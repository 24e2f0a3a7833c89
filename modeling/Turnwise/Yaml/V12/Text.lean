import Turnwise.Yaml.Text

/-!
# Places in a text of the newer revision

`Cursor` is a place in a text together with what follows it. Line breaks are line feeds once they
are unified (`unifyBreaks`); no other character breaks a line, and any character may stand in a
text, but a null character ends it.

The newer revision wants a blank in front of a comment that follows a token
(`Cursor.finishToken?`), and it lets tabs stand left of an indentation on lines without content.
-/

namespace Turnwise.Yaml.V12

/-! ### Characters -/

/-- A blank or a line break. -/
def isSpace (c : Char) : Bool := isBlank c || c = '\n'

/-- Whether a word ends here: at white space or at the end of the text. -/
def endsWord : List Char → Bool
  | [] => true
  | c :: _ => isSpace c

/-- Whether a line ends here. -/
def endsLine : List Char → Bool
  | [] => true
  | c :: _ => c = '\n'

/-- Brings every line break to a line feed, and cuts the text off at a null character. -/
def unifyBreaks : List Char → List Char
  | [] => []
  | '\r' :: '\n' :: rest => '\n' :: unifyBreaks rest
  | c :: rest =>
    if c = '\x00' then [] else (if c = '\r' then '\n' else c) :: unifyBreaks rest

/-! ### Places -/

/-- A place in a text. Lines and columns count from zero. -/
structure Cursor where
  rest : List Char
  line : Nat := 0
  column : Nat := 0
  /-- Whether nothing but blanks stands in front of the place on its line. -/
  isFresh : Bool := true
  deriving DecidableEq, Repr

namespace Cursor

/-- The place on the same line where `rest` is what follows. -/
def moveTo (cursor : Cursor) (rest : List Char) : Cursor :=
  let n := cursor.rest.length - rest.length
  { cursor with
    rest
    column := cursor.column + n
    isFresh := cursor.isFresh && (cursor.rest.take n).all isBlank }

/-- The place after the next `n` characters of the line. -/
def skip (cursor : Cursor) (n : Nat) : Cursor := cursor.moveTo (cursor.rest.drop n)

/-- The place after the characters of the line for which `p` holds. -/
def skipWhile (p : Char → Bool) (cursor : Cursor) : Cursor :=
  cursor.moveTo (cursor.rest.dropWhile p)

/-- The end of the line. -/
def skipLine (cursor : Cursor) : Cursor := cursor.skipWhile (· != '\n')

/-- The start of the next line, if the cursor is at a break. -/
def skipBreak (cursor : Cursor) : Cursor :=
  match cursor.rest with
  | '\n' :: rest => { rest, line := cursor.line + 1 }
  | _ => cursor

/-- Skips the blanks behind a token, and a comment, which must be set off by a blank. The blanks
are part of the result. -/
def finishToken? (cursor : Cursor) : Option (List Char × Cursor) :=
  let blanks := cursor.rest.takeWhile isBlank
  let cursor := cursor.skipWhile isBlank
  if cursor.rest.head? == some '#' then
    if blanks.isEmpty then none else some (blanks, cursor.skipLine)
  else some (blanks, cursor)

/-- Whether a marker of three equal characters stands here, at the start of a line. -/
def atMarker (cursor : Cursor) (c : Char) : Bool :=
  cursor.column = 0 && [c, c, c].isPrefixOf cursor.rest && endsWord (cursor.rest.drop 3)

/-- Whether the start or the end of a document is marked here. -/
def atAnyMarker (cursor : Cursor) : Bool := cursor.atMarker '-' || cursor.atMarker '.'

end Cursor

/-! ### Gaps -/

/-- Whether nothing but blanks and a comment is left of a line. -/
def isHollow (rest : List Char) : Bool :=
  let rest := rest.dropWhile isBlank
  endsLine rest || rest.head? == some '#'

/-- Where in a gap a reader is. -/
inductive GapState where
  /-- Still on the line on which the gap starts. -/
  | inLine
  /-- On a later line. -/
  | broken
  /-- On a later line, where all characters up to its end are skipped. -/
  | skipping
  deriving DecidableEq, Repr

/-- Reads white space at the given line and column. On a later line, a tab left of `indent` is
refused; if hollow lines are lenient, it is taken on those, and the whole line is skipped. -/
def scanGap? (indent : Nat) (lenient : Bool) :
    GapState → List Char → Nat → Nat → Option (Gap × Cursor)
  | _, [], line, column => some ({}, { rest := [], line, column })
  | state, c :: rest, line, column =>
    if c = '\n' then do
      let (gap, cursor) ← scanGap? indent lenient .broken rest (line + 1) 0
      some (gap.addBreak c, cursor)
    else if state = .skipping then scanGap? indent lenient .skipping rest line (column + 1)
    else if !isBlank c then
      some ({}, { rest := c :: rest, line, column, isFresh := state = .broken })
    else if state = .broken && c = '\t' && column < indent then
      if lenient && isHollow rest then scanGap? indent lenient .skipping rest line (column + 1)
      else none
    else do
      let (gap, cursor) ← scanGap? indent lenient state rest line (column + 1)
      some (gap.addBlank (state = .broken) c, cursor)

def Cursor.gap? (cursor : Cursor) (indent : Nat) (lenient : Bool) (state : GapState) :
    Option (Gap × Cursor) :=
  scanGap? indent lenient state cursor.rest cursor.line cursor.column

end Turnwise.Yaml.V12
