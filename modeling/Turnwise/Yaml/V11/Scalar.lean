import Turnwise.Yaml.V11.Text

/-!
# Scalars of the older revision

The readers of the five ways to write a scalar.

A plain scalar and the two quoted ones are words with gaps between them; they differ in what ends a
word. A block scalar is a run of lines that share an indentation. Each reader takes the place where
the scalar starts and yields its text and the place behind it. The number of characters that are
left bounds the number of words and lines, and serves as fuel.
-/

namespace Turnwise.Yaml.V11.Scalar

/-! ### Plain scalars -/

/-- One word of a plain scalar and what follows it. A colon ends the scalar where a word ends behind
it. Inside brackets the flow indicators end it too, and a colon right before one of them, or before
a question mark, is refused. -/
def plainWord? (inFlow : Bool) : List Char → Option (List Char × List Char)
  | [] => some ([], [])
  | c :: rest =>
    if isSpace c then some ([], c :: rest)
    else if c = ':' && endsWord rest then some ([], c :: rest)
    else if inFlow && c = ':' && rest.head?.any (fun d => isFlowIndicator d || d = '?') then none
    else if inFlow && isFlowIndicator c then some ([], c :: rest)
    else do
      let (word, rest) ← plainWord? inFlow rest
      some (c :: word, rest)

/-- The words of a plain scalar after a gap. Outside brackets the scalar goes on only on lines that
reach the column `indent`. The flag says whether a line break was passed behind the last word. -/
def plainWords? (inFlow : Bool) (indent : Nat) :
    Nat → Gap → Cursor → Option (List Char × Bool × Cursor)
  | 0, _, _ => none
  | fuel + 1, gap, cursor => do
    if cursor.atMarker || cursor.rest.head? == some '#' then some ([], gap.isBroken, cursor)
    else
      let (word, rest) ← plainWord? inFlow cursor.rest
      if word.isEmpty then some ([], gap.isBroken, cursor)
      else
        let text := gap.text ++ word
        if !rest.head?.any isSpace then some (text, false, cursor.moveTo rest)
        else
          let (gap, cursor) ← (cursor.moveTo rest).gap? indent false
          if !inFlow && cursor.column < indent then some (text, gap.isBroken, cursor)
          else
            let (more, broken, cursor) ← plainWords? inFlow indent fuel gap cursor
            some (text ++ more, broken, cursor)

def plain? (inFlow : Bool) (indent : Nat) (cursor : Cursor) :
    Option (List Char × Bool × Cursor) :=
  plainWords? inFlow indent (cursor.rest.length + 1) {} cursor

/-! ### Quoted scalars -/

/-- One word of a quoted scalar and what follows it: white space, the closing quote, an escaped
line break, or the end of the text. -/
def quotedWord? (double : Bool) : Nat → List Char → Option (List Char × List Char)
  | 0, _ => none
  | _, [] => some ([], [])
  | fuel + 1, c :: rest => do
    if isSpace c then some ([], c :: rest)
    else if double then
      if c = '"' then some ([], c :: rest)
      else if c = '\\' then
        if rest.head?.any isBreak then some ([], c :: rest)
        else
          let (value, rest) ← escape? rest
          let (word, rest) ← quotedWord? double fuel rest
          some (value :: word, rest)
      else
        let (word, rest) ← quotedWord? double fuel rest
        some (c :: word, rest)
    else if c = '\'' && rest.head? != some '\'' then some ([], c :: rest)
    else
      -- Two quotes stand for one.
      let (word, rest) ← quotedWord? double fuel (if c = '\'' then rest.drop 1 else rest)
      some (c :: word, rest)

/-- The words of a quoted scalar, up to and with the closing quote. An escaped line break joins its
lines without a blank. A document marker is refused. -/
def quotedWords? (double : Bool) : Nat → Cursor → Option (List Char × Cursor)
  | 0, _ => none
  | fuel + 1, cursor => do
    if cursor.atMarker then none
    else
      let (word, rest) ← quotedWord? double (cursor.rest.length + 1) cursor.rest
      let cursor := cursor.moveTo rest
      match rest with
      | [] => none
      | c :: _ =>
        if isSpace c then
          let (gap, cursor) ← cursor.gap? 0 false
          let (more, cursor) ← quotedWords? double fuel cursor
          some (word ++ gap.text ++ more, cursor)
        else if double && c = '\\' then
          let (gap, cursor) ← (cursor.skip 1).skipBreak.gap? 0 true
          let (more, cursor) ← quotedWords? double fuel cursor
          some (word ++ gap.breaks ++ more, cursor)
        else some (word, cursor.skip 1)

/-- Reads a quoted scalar from its opening quote. -/
def quoted? (double : Bool) (cursor : Cursor) : Option (List Char × Cursor) :=
  quotedWords? double (cursor.rest.length + 1) (cursor.skip 1)

/-! ### Block scalars -/

/-- The blank lines in front of a line of a block scalar: their breaks, the widest indentation seen,
and the place where the text of the line starts. Only blanks left of the column `indent` are
skipped, any number if it is zero; a tab among them is refused. -/
def blankLines? (indent : Nat) :
    List Char → Nat → Nat → Nat → Option (List Char × Nat × Cursor)
  | [], line, column, widest => some ([], max widest column, ⟨[], line, column⟩)
  | c :: rest, line, column, widest =>
    let inside := indent = 0 || column < indent
    if inside && c = ' ' then blankLines? indent rest line (column + 1) widest
    else if inside && c = '\t' then none
    else if isBreak c then do
      let (breaks, widest, cursor) ← blankLines? indent rest (line + 1) 0 (max widest column)
      some (c :: breaks, widest, cursor)
    else some ([], max widest column, ⟨c :: rest, line, column⟩)

/-- The lines of a block scalar that start at the column `indent`. -/
def blockLines? (folded : Bool) (indent : Nat) :
    Nat → BlockEnd → Bool → Cursor → Option (List Char × BlockEnd × Cursor)
  | 0, _, _, _ => none
  | fuel + 1, before, blankBefore, cursor => do
    if cursor.column != indent || cursor.rest.isEmpty then some ([], before, cursor)
    else
      let blankAfter := cursor.rest.head?.any isBlank
      let line := cursor.rest.takeWhile (!isBreak ·)
      let cursor := cursor.skipWhile (!isBreak ·)
      let last := cursor.rest.take 1
      let next := cursor.skipBreak
      let (blanks, _, next) ← blankLines? indent next.rest next.line next.column 0
      let (more, after, next) ← blockLines? folded indent fuel ⟨last, blanks⟩ blankAfter next
      some (before.joint folded blankBefore blankAfter ++ line ++ more, after, next)

/-- Reads a block scalar from its indicator. Its lines are indented to the column that the header
gives, counted from the column `floor - 1` of the enclosing block, or else as the first line that is
not blank, but at least to the column `floor`. -/
def block? (folded : Bool) (floor : Nat) (cursor : Cursor) : Option (List Char × Cursor) := do
  let cursor := cursor.skip 1
  let (chomping, digit?, rest) ← blockHeader? cursor.rest
  let cursor ← (cursor.moveTo rest).finishLine?
  let indent := match digit? with
    | some n => (floor - 1) + n
    | none => 0
  let (blanks, widest, cursor) ← blankLines? indent cursor.rest cursor.line cursor.column 0
  let indent := if indent = 0 then max (max widest floor) 1 else indent
  let (text, blockEnd, cursor) ←
    blockLines? folded indent (cursor.rest.length + 1) ⟨[], blanks⟩ false cursor
  let tail := match chomping with
    | .strip => []
    | .clip => blockEnd.last
    | .keep => blockEnd.last ++ blockEnd.blankLines
  some (text ++ tail, cursor)

end Turnwise.Yaml.V11.Scalar
