import Turnwise.Json.Value
import Turnwise.Number.Decimal

/-!
# Reading JSON

The reader of JSON documents.

The grammar is the strict one: no comments, no trailing commas, no leading
zeros, no raw control characters in strings, nothing but blanks after the
document. Reading works on the list of characters and returns what is left of
it; every step consumes at least one character, so the length of the text is
fuel enough.

A string literal is read in two passes: `readLiteral?` undoes the escapes, which
yields characters and sixteen-bit units, and `joinUnits` pairs the units up.
-/

namespace Turnwise

namespace Json

def isBlank (c : Char) : Bool := c = ' ' || c = '\n' || c = '\t' || c = '\r'

def skipBlanks (s : List Char) : List Char := s.dropWhile isBlank

/-! ### Numbers -/

def digitsValue (digits : List Char) : Nat :=
  digits.foldl (fun n c => 10 * n + (c.toNat - 48)) 0

/-- Splits off one or more digits. -/
def readDigits? (s : List Char) : Option (List Char × List Char) :=
  if (s.takeWhile Char.isDigit).isEmpty then none
  else some (s.takeWhile Char.isDigit, s.dropWhile Char.isDigit)

def readFraction? : List Char → Option (List Char × List Char)
  | '.' :: s => (readDigits? s).map fun (digits, rest) => ('.' :: digits, rest)
  | s => some ([], s)

def readExponent? : List Char → Option (List Char × List Char)
  | e :: s =>
      if e = 'e' || e = 'E' then
        match s with
        | '+' :: s => (readDigits? s).map fun (digits, rest) => (e :: '+' :: digits, rest)
        | '-' :: s => (readDigits? s).map fun (digits, rest) => (e :: '-' :: digits, rest)
        | s => (readDigits? s).map fun (digits, rest) => (e :: digits, rest)
      else some ([], e :: s)
  | [] => some ([], [])

/-- Splits a number without its sign into its whole part and the fraction with the exponent. -/
def readUnsigned? (s : List Char) : Option ((List Char × List Char) × List Char) := do
  let (whole, rest) ← readDigits? s
  if whole.length > 1 && whole.head? == some '0' then none
  let (fraction, rest) ← readFraction? rest
  let (exponent, rest) ← readExponent? rest
  some ((whole, fraction ++ exponent), rest)

def readNumber? : List Char → Option (Json × List Char)
  | '-' :: s => do
      let ((whole, tail), rest) ← readUnsigned? s
      some (number ('-' :: (whole ++ tail)), rest)
  | s => do
      let ((whole, tail), rest) ← readUnsigned? s
      if tail.isEmpty then some (natural (digitsValue whole), rest)
      else some (number (whole ++ tail), rest)

/-! ### Strings -/

/-- A piece of a string literal: a character, or a sixteen-bit unit given by its number. -/
inductive Piece where
  | char (c : Char)
  | unit (value : Nat)
  deriving DecidableEq, Repr

/-- The character that a one-letter escape stands for. -/
def shortEscape? : Char → Option Char
  | '"' => some '"'
  | '\\' => some '\\'
  | '/' => some '/'
  | 'b' => some (Char.ofNat 8)
  | 'f' => some (Char.ofNat 12)
  | 'n' => some '\n'
  | 'r' => some '\r'
  | 't' => some '\t'
  | _ => none

/-- Reads the inside of a string literal up to the closing quote. -/
def readLiteral? : List Char → Option (List Piece × List Char)
  | [] => none
  | '"' :: rest => some ([], rest)
  | '\\' :: 'u' :: a :: b :: c :: d :: rest => do
      let value ← readNatural? 16 [a, b, c, d]
      let (pieces, rest) ← readLiteral? rest
      some (.unit value :: pieces, rest)
  | '\\' :: e :: rest => do
      let c ← shortEscape? e
      let (pieces, rest) ← readLiteral? rest
      some (.char c :: pieces, rest)
  | c :: rest => do
      if c.toNat < 32 || c = '\\' then none
      let (pieces, rest) ← readLiteral? rest
      some (.char c :: pieces, rest)

/-- Whether a unit is the first half of a surrogate pair. -/
def isLeading (unit : Nat) : Bool := 0xD800 ≤ unit && unit < 0xDC00

/-- Whether a unit is the second half of a surrogate pair. -/
def isTrailing (unit : Nat) : Bool := 0xDC00 ≤ unit && unit < 0xE000

/-- Pairs up the surrogates among the units. A half without its partner makes the whole literal
denote nothing. -/
def joinUnits : List Piece → Option (List Char)
  | [] => some []
  | .char c :: rest => (joinUnits rest).map (c :: ·)
  | .unit high :: .unit low :: rest =>
      if isLeading high && isTrailing low then
        (joinUnits rest).map
          (Char.ofNat (0x10000 + 0x400 * (high - 0xD800) + (low - 0xDC00)) :: ·)
      else if isLeading high || isTrailing high then none
      else (joinUnits (.unit low :: rest)).map (Char.ofNat high :: ·)
  | .unit value :: rest =>
      if isLeading value || isTrailing value then none
      else (joinUnits rest).map (Char.ofNat value :: ·)

/-- Reads a string literal whose opening quote has been read. -/
def readString? (s : List Char) : Option (Option String × List Char) := do
  let (pieces, rest) ← readLiteral? s
  some ((joinUnits pieces).map String.ofList, rest)

/-! ### Documents -/

mutual

def readValue? : Nat → List Char → Option (Json × List Char)
  | 0, _ => none
  | fuel + 1, s =>
    match skipBlanks s with
    | 'n' :: 'u' :: 'l' :: 'l' :: rest => some (null, rest)
    | 't' :: 'r' :: 'u' :: 'e' :: rest => some (bool true, rest)
    | 'f' :: 'a' :: 'l' :: 's' :: 'e' :: rest => some (bool false, rest)
    | '"' :: rest => (readString? rest).map fun read => (string read.1, read.2)
    | '[' :: rest =>
        match skipBlanks rest with
        | ']' :: rest => some (array [], rest)
        | _ => (readItems? fuel rest).map fun read => (array read.1, read.2)
    | '\x7b' :: rest =>
        match skipBlanks rest with
        | '\x7d' :: rest => some (object [], rest)
        | _ => (readFields? fuel rest).map fun read => (object read.1, read.2)
    | s => readNumber? s

/-- Reads the items of an array, of which there is at least one, and the closing bracket. -/
def readItems? : Nat → List Char → Option (List Json × List Char)
  | 0, _ => none
  | fuel + 1, s => do
    let (item, rest) ← readValue? fuel s
    match skipBlanks rest with
    | ']' :: rest => some ([item], rest)
    | ',' :: rest =>
        let (items, rest) ← readItems? fuel rest
        some (item :: items, rest)
    | _ => none

/-- Reads the fields of an object, of which there is at least one, and the closing brace. -/
def readFields? : Nat → List Char → Option (List (Option String × Json) × List Char)
  | 0, _ => none
  | fuel + 1, s =>
    match skipBlanks s with
    | '"' :: rest => do
        let (name, rest) ← readString? rest
        match skipBlanks rest with
        | ':' :: rest =>
            let (value, rest) ← readValue? fuel rest
            match skipBlanks rest with
            | '\x7d' :: rest => some ([(name, value)], rest)
            | ',' :: rest =>
                let (fields, rest) ← readFields? fuel rest
                some ((name, value) :: fields, rest)
            | _ => none
        | _ => none
    | _ => none

end

def parse? (s : String) : Option Json := do
  let (document, rest) ← readValue? (s.toList.length + 1) s.toList
  if (skipBlanks rest).isEmpty then some document else none

end Json

end Turnwise
