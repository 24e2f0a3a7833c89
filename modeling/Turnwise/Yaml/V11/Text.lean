import Turnwise.Yaml.Text

/-!
# Places in a text of the older revision

The character classes of the older revision, and `Cursor`, a place in a text together with what
follows it.

Before it is read, a text has its line breaks brought to one form (`unifyBreaks`), so that a break
is always a single character.
-/

namespace Turnwise.Yaml.V11

/-! ### Characters -/

/-- A line break, once the breaks are unified: a line feed, or one of the two separators that keep
their identity. -/
def isBreak (c : Char) : Bool := c = '\n' || c = '\u2028' || c = '\u2029'

/-- White space of either kind. -/
def isSpace (c : Char) : Bool := isBlank c || isBreak c

/-- Whether a text may contain the character: control characters are refused, but for tabs and
breaks, and so are the last two code points of the basic plane. -/
def isAllowed (c : Char) : Bool :=
  c = '\t' || c = '\n' || c = '\r' || (0x20 ≤ c.toNat && c.toNat ≤ 0x7E) || c.toNat = 0x85 ||
    (0xA0 ≤ c.toNat && c.toNat ≤ 0xFFFD) || 0x10000 ≤ c.toNat

/-- Whether a word ends here: at white space or at the end of the text. -/
def endsWord : List Char → Bool
  | [] => true
  | c :: _ => isSpace c

/-- Brings every line break to a single character: a carriage return, with or without a line feed,
and a next-line character become a line feed. -/
def unifyBreaks : List Char → List Char
  | [] => []
  | '\r' :: '\n' :: rest => '\n' :: unifyBreaks rest
  | c :: rest => (if c = '\r' || c = '\x85' then '\n' else c) :: unifyBreaks rest

/-! ### Places -/

/-- A place in a text. Lines and columns count from zero. -/
structure Cursor where
  rest : List Char
  line : Nat
  column : Nat
  deriving DecidableEq, Repr

namespace Cursor

def ofText (text : List Char) : Cursor := ⟨text, 0, 0⟩

/-- The place on the same line where `rest` is what follows. -/
def moveTo (cursor : Cursor) (rest : List Char) : Cursor :=
  { cursor with rest, column := cursor.column + (cursor.rest.length - rest.length) }

/-- The place after the next `n` characters of the line. -/
def skip (cursor : Cursor) (n : Nat) : Cursor := cursor.moveTo (cursor.rest.drop n)

/-- The place after the characters of the line for which `p` holds. -/
def skipWhile (p : Char → Bool) (cursor : Cursor) : Cursor :=
  cursor.moveTo (cursor.rest.dropWhile p)

/-- The start of the next line, if the cursor is at a break. -/
def skipBreak (cursor : Cursor) : Cursor :=
  match cursor.rest with
  | c :: rest => if isBreak c then ⟨rest, cursor.line + 1, 0⟩ else cursor
  | [] => cursor

/-- The place after a comment, if one starts here: the end of the line. -/
def skipComment (cursor : Cursor) : Cursor :=
  if cursor.rest.head? == some '#' then cursor.skipWhile (!isBreak ·) else cursor

/-- The next line, provided that nothing but blanks and a comment is left of this one. -/
def finishLine? (cursor : Cursor) : Option Cursor :=
  let cursor := (cursor.skipWhile isBlank).skipComment
  match cursor.rest with
  | [] => some cursor
  | c :: _ => if isBreak c then some cursor.skipBreak else none

/-- Whether a document marker, `---` or `...`, stands here, at the start of a line. -/
def atMarker (cursor : Cursor) : Bool :=
  cursor.column = 0 &&
    match cursor.rest with
    | '-' :: '-' :: '-' :: rest | '.' :: '.' :: '.' :: rest => endsWord rest
    | _ => false

end Cursor

/-! ### Gaps -/

/-- Reads white space at the given line and column. On a later line of a gap (`broken`), a tab left
of `indent` is refused. -/
def scanGap? (indent : Nat) (broken : Bool) : List Char → Nat → Nat → Option (Gap × Cursor)
  | [], line, column => some (⟨[], []⟩, ⟨[], line, column⟩)
  | c :: rest, line, column =>
    if isBlank c then
      if broken && c = '\t' && column < indent then none
      else do
        let (gap, cursor) ← scanGap? indent broken rest line (column + 1)
        some (gap.addBlank broken c, cursor)
    else if isBreak c then do
      let (gap, cursor) ← scanGap? indent true rest (line + 1) 0
      some (gap.addBreak c, cursor)
    else some (⟨[], []⟩, ⟨c :: rest, line, column⟩)

def Cursor.gap? (cursor : Cursor) (indent : Nat) (broken : Bool) : Option (Gap × Cursor) :=
  scanGap? indent broken cursor.rest cursor.line cursor.column

end Turnwise.Yaml.V11
