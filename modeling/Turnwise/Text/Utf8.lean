/-!
# Decoding UTF-8

Text from bytes that need not be well formed. The decoder is an automaton that takes one byte at a
time: between two bytes it either stands between characters or inside one (`Partial`), and then it
knows how many bytes are missing and in which range the next one must lie. The range of the second
byte is what excludes overlong forms, surrogates and numbers beyond the last character.

A byte that cannot continue the character begun makes that beginning a replacement character and is
then looked at afresh. So each maximal invalid part becomes exactly one replacement character.
-/

namespace Turnwise.Utf8

/-- The character that stands for bytes that are not text. -/
def replacement : Char := '\uFFFD'

/-- A character that has begun. -/
structure Partial where
  /-- How many bytes are missing. -/
  missing : Nat
  /-- The bits read so far. -/
  value : Nat
  /-- The least admissible next byte. -/
  low : Nat
  /-- The greatest admissible next byte. -/
  high : Nat
  deriving DecidableEq, Repr

/-- What a byte means between two characters: a whole character, the beginning of one, or nothing
that can stand there. -/
def start (byte : UInt8) : List Char × Option Partial :=
  let b := byte.toNat
  if b < 0x80 then ([Char.ofNat b], none)
  else if b < 0xC2 then ([replacement], none)
  else if b < 0xE0 then ([], some ⟨1, b - 0xC0, 0x80, 0xBF⟩)
  else if b = 0xE0 then ([], some ⟨2, 0, 0xA0, 0xBF⟩)
  else if b = 0xED then ([], some ⟨2, 0xD, 0x80, 0x9F⟩)
  else if b < 0xF0 then ([], some ⟨2, b - 0xE0, 0x80, 0xBF⟩)
  else if b = 0xF0 then ([], some ⟨3, 0, 0x90, 0xBF⟩)
  else if b < 0xF4 then ([], some ⟨3, b - 0xF0, 0x80, 0xBF⟩)
  else if b = 0xF4 then ([], some ⟨3, 4, 0x80, 0x8F⟩)
  else ([replacement], none)

/-- Takes the next byte. -/
def feed : Option Partial → UInt8 → List Char × Option Partial
  | none, byte => start byte
  | some p, byte =>
      let b := byte.toNat
      if p.low ≤ b ∧ b ≤ p.high then
        let value := p.value * 64 + b % 64
        if p.missing = 1 then ([Char.ofNat value], none)
        else ([], some ⟨p.missing - 1, value, 0x80, 0xBF⟩)
      else
        let (chars, next) := start byte
        (replacement :: chars, next)

/-- The text of the bytes that follow a state. A character that is still incomplete at the end is
invalid. -/
def decodeFrom : Option Partial → List UInt8 → List Char
  | none, [] => []
  | some _, [] => [replacement]
  | state, byte :: rest => (feed state byte).1 ++ decodeFrom (feed state byte).2 rest

/-- The text of a list of bytes. -/
def decodeLossy (bytes : List UInt8) : String := String.ofList (decodeFrom none bytes)

def encode (text : String) : List UInt8 := text.toList.flatMap String.utf8EncodeChar

end Turnwise.Utf8
