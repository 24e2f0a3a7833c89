import Turnwise.Number.Decimal

/-!
# Characters, escapes and headers of YAML texts

What the two revisions of the YAML syntax have in common below the level of tokens: the character
classes, the escapes in double quotes and in tags, and the header of a block scalar.

The revisions differ in what breaks a line, in where tabs and comments may stand and in how far a
line must be indented; that is the subject of the modules under `V11` and `V12`.
-/

namespace Turnwise.Yaml

/-! ### Characters -/

/-- A blank inside a line. -/
def isBlank (c : Char) : Bool := c = ' ' || c = '\t'

/-- A character of the name of a handle or of a directive. -/
def isWordChar (c : Char) : Bool := c.isAlphanum || c = '_' || c = '-'

/-- A character that has a meaning of its own inside brackets. -/
def isFlowIndicator (c : Char) : Bool :=
  c = ',' || c = '[' || c = ']' || c = '\x7b' || c = '\x7d'

/-! ### Line folding -/

/-- What a run of line breaks between two words stands for: a single line feed is a blank, and of
several line feeds the first one is dropped. -/
def foldBreaks : List Char → List Char
  | ['\n'] => [' ']
  | '\n' :: more => more
  | breaks => breaks

/-- White space between two words of a scalar: the blanks in front of the first break, and the
breaks. Blanks that start a line count for nothing. -/
structure Gap where
  blanks : List Char := []
  breaks : List Char := []
  deriving DecidableEq, Repr

namespace Gap

/-- What a gap stands for: its blanks, if it stays on one line. -/
def text (gap : Gap) : List Char :=
  if gap.breaks.isEmpty then gap.blanks else foldBreaks gap.breaks

def isBroken (gap : Gap) : Bool := !gap.breaks.isEmpty

/-- The gap with a blank in front, which counts only if no break was passed before it. -/
def addBlank (gap : Gap) (broken : Bool) (c : Char) : Gap :=
  if broken then gap else { gap with blanks := c :: gap.blanks }

/-- The gap with a break in front. -/
def addBreak (gap : Gap) (c : Char) : Gap := { gap with breaks := c :: gap.breaks }

end Gap

/-! ### Escapes in double quotes -/

/-- The character that an escape of one letter stands for. -/
def shortEscape? : Char → Option Char
  | '0' => some '\x00'
  | 'a' => some '\x07'
  | 'b' => some '\x08'
  | 't' | '\t' => some '\t'
  | 'n' => some '\n'
  | 'v' => some '\x0b'
  | 'f' => some '\x0c'
  | 'r' => some '\r'
  | 'e' => some '\x1b'
  | ' ' => some ' '
  | '"' => some '"'
  | '/' => some '/'
  | '\\' => some '\\'
  | 'N' => some '\x85'
  | '_' => some '\xa0'
  | 'L' => some '\u2028'
  | 'P' => some '\u2029'
  | _ => none

/-- The number of digits in an escape that names a code point. -/
def codeLength? : Char → Option Nat
  | 'x' => some 2
  | 'u' => some 4
  | 'U' => some 8
  | _ => none

/-- Reads an escape whose backslash has been read. -/
def escape? : List Char → Option (Char × List Char)
  | [] => none
  | e :: rest =>
    match codeLength? e with
    | none => (shortEscape? e).map (·, rest)
    | some n => do
      let digits ← (rest.take n).mapM (digitValue? 16)
      let value := digits.foldl (16 * · + ·) 0
      if digits.length = n && value.isValidChar then some (Char.ofNat value, rest.drop n) else none

/-! ### Escapes in tags -/

/-- The number of bytes in the character whose first byte is given. -/
def encodedLength? (byte : Nat) : Option Nat :=
  if byte < 0x80 then some 1
  else if byte < 0xC0 then none
  else if byte < 0xE0 then some 2
  else if byte < 0xF0 then some 3
  else if byte < 0xF8 then some 4
  else none

/-- Reads `n` bytes that are written as two digits after a percent sign. -/
def percentBytes? : Nat → List Char → Option (List UInt8 × List Char)
  | 0, rest => some ([], rest)
  | n + 1, '%' :: a :: b :: rest => do
    let byte := 16 * (← digitValue? 16 a) + (← digitValue? 16 b)
    let (bytes, rest) ← percentBytes? n rest
    some (byte.toUInt8 :: bytes, rest)
  | _, _ => none

/-- Reads the bytes of one character. All but the first have the form of later bytes. -/
def percentGroup? (text : List Char) : Option (List UInt8 × List Char) := do
  let (first, _) ← percentBytes? 1 text
  let n ← encodedLength? (first.headD 0).toNat
  let (bytes, rest) ← percentBytes? n text
  if (bytes.drop 1).all fun byte => byte &&& 0xC0 == 0x80 then some (bytes, rest) else none

/-! ### Headers of block scalars -/

/-- What becomes of the line breaks at the end of a block scalar. -/
inductive Chomping where
  /-- All of them are dropped. -/
  | strip
  /-- One is kept. -/
  | clip
  /-- All of them are kept. -/
  | keep
  deriving DecidableEq, Repr

/-- The chomping that a sign in a header asks for. -/
def Chomping.ofSign? : Char → Option Chomping
  | '+' => some .keep
  | '-' => some .strip
  | _ => none

/-- The indentation that a digit in a header asks for; zero is refused. -/
def indentDigit? (c : Char) : Option Nat :=
  if '1' ≤ c && c ≤ '9' then some (c.toNat - 48) else none

/-- The header of a block scalar after its indicator: a chomping sign and an indentation digit, both
optional and in either order. -/
def blockHeader? (rest : List Char) : Option (Chomping × Option Nat × List Char) :=
  match rest with
  | [] => some (.clip, none, [])
  | c :: rest =>
    match Chomping.ofSign? c with
    | some chomping =>
      match rest with
      | d :: rest' =>
        if d.isDigit then (indentDigit? d).map fun n => (chomping, some n, rest')
        else some (chomping, none, rest)
      | [] => some (chomping, none, [])
    | none =>
      if c.isDigit then do
        let n ← indentDigit? c
        match rest with
        | s :: rest' =>
          match Chomping.ofSign? s with
          | some chomping => some (chomping, some n, rest')
          | none => some (.clip, some n, rest)
        | [] => some (.clip, some n, [])
      else some (.clip, none, c :: rest)

/-! ### Lines of block scalars -/

/-- The end of a block scalar: the break of its last line, and the breaks of the blank lines behind
it. -/
structure BlockEnd where
  last : List Char
  blankLines : List Char

/-- What joins the lines of a block. In a folded block a line feed between two lines that both start
with a word turns into a blank, or into nothing if blank lines follow. -/
def BlockEnd.joint (folded : Bool) (before : BlockEnd) (blankBefore blankAfter : Bool) :
    List Char :=
  if folded && before.last == ['\n'] && !blankBefore && !blankAfter then
    (if before.blankLines.isEmpty then [' '] else []) ++ before.blankLines
  else before.last ++ before.blankLines

end Turnwise.Yaml
