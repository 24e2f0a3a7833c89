import Turnwise.Yaml.V12.Text

/-!
# Scalars of the newer revision

The readers of the five ways to write a scalar.

A plain scalar and the two quoted ones are words with gaps between them; they differ in what ends a
word. A block scalar is a run of lines that share an indentation. Each reader takes the place where
the scalar starts and yields its text and the place behind it. The number of characters that are
left bounds the number of words and lines, and serves as fuel.

Columns are compared with a `floor`, the least column of what belongs to the innermost block.
-/

namespace Turnwise.Yaml.V12.Scalar

/-! ### Plain scalars -/

/-- Whether a character ends a plain scalar, given what follows it: a colon where a word ends, and
inside brackets a colon in front of a flow indicator, and the flow indicators themselves. -/
def endsPlain (inFlow : Bool) (c : Char) (rest : List Char) : Bool :=
  if c = ':' then endsWord rest || (inFlow && rest.head?.any isFlowIndicator)
  else inFlow && isFlowIndicator c

/-- One word of a plain scalar and what follows it. -/
def plainWord (inFlow : Bool) : List Char → List Char × List Char
  | [] => ([], [])
  | c :: rest =>
    if isSpace c || endsPlain inFlow c rest then ([], c :: rest)
    else
      let (word, rest) := plainWord inFlow rest
      (c :: word, rest)

/-- Whether a dash in front of a flow indicator stands here, which is no word. -/
def isLoneDash : List Char → Bool
  | '-' :: c :: _ => isFlowIndicator c
  | _ => false

/-- The words of a plain scalar after a gap. Outside brackets the scalar goes on only on lines that
reach the floor. The flag says whether a line break was passed behind the last word. -/
def plainWords? (inFlow : Bool) (floor : Nat) :
    Nat → Gap → Cursor → Option (List Char × Bool × Cursor)
  | 0, _, _ => none
  | fuel + 1, gap, cursor =>
    if cursor.atAnyMarker || cursor.rest.head? == some '#' then some ([], gap.isBroken, cursor)
    else if inFlow && isLoneDash cursor.rest then none
    else
      match plainWord inFlow cursor.rest with
      | ([], _) => some ([], gap.isBroken, cursor)
      | (word, rest) => do
        let text := gap.text ++ word
        let cursor := cursor.moveTo rest
        if !rest.head?.any isSpace then some (text, false, cursor)
        else
          let (gap, cursor) ← cursor.gap? floor true .inLine
          if !inFlow && cursor.column < floor then some (text, gap.isBroken, cursor)
          else
            let (more, broken, cursor) ← plainWords? inFlow floor fuel gap cursor
            some (text ++ more, broken, cursor)

/-- Reads a plain scalar. Inside brackets it must start at the floor or right of it. -/
def plain? (inFlow : Bool) (floor : Nat) (cursor : Cursor) : Option (List Char × Bool × Cursor) :=
  if inFlow && cursor.column < floor then none
  else plainWords? inFlow floor (cursor.rest.length + 1) {} cursor

/-! ### Quoted scalars -/

/-- One word of a quoted scalar and what follows it: white space, the closing quote, an escaped
line break, or the end of the text. -/
def quotedWord? (double : Bool) : Nat → List Char → Option (List Char × List Char)
  | 0, _ => none
  | _, [] => some ([], [])
  | fuel + 1, c :: rest => do
    if isSpace c then some ([], c :: rest)
    else if double then
      if c = '"' then some ([], c :: rest)
      else if c = '\\' then
        if rest.head? == some '\n' then some ([], c :: rest)
        else
          let (value, rest) ← escape? rest
          let (word, rest) ← quotedWord? double fuel rest
          some (value :: word, rest)
      else
        let (word, rest) ← quotedWord? double fuel rest
        some (c :: word, rest)
    else if c = '\'' && rest.head? != some '\'' then some ([], c :: rest)
    else
      -- Two quotes stand for one.
      let (word, rest) ← quotedWord? double fuel (if c = '\'' then rest.drop 1 else rest)
      some (c :: word, rest)

/-- The words of a quoted scalar, up to and with the closing quote. An escaped line break joins its
lines without a blank, and the closing quote may follow it right away. All other lines must reach
the column in front of the floor. A document marker is refused. -/
def quotedWords? (double : Bool) (floor : Nat) : Nat → Cursor → Option (List Char × Cursor)
  | 0, _ => none
  | fuel + 1, cursor => do
    if cursor.atAnyMarker || cursor.column + 1 < floor then none
    else
      let (word, rest) ← quotedWord? double (cursor.rest.length + 1) cursor.rest
      let cursor := cursor.moveTo rest
      match rest with
      | [] => none
      | c :: _ =>
        if isSpace c then
          let (gap, cursor) ← cursor.gap? (floor - 1) false .inLine
          let (more, cursor) ← quotedWords? double floor fuel cursor
          some (word ++ gap.text ++ more, cursor)
        else if double && c = '\\' then
          let cursor := (cursor.skip 1).skipBreak
          if cursor.rest.head? == some '"' then some (word, cursor.skip 1)
          else
            let (gap, cursor) ← cursor.gap? (floor - 1) false .broken
            let (more, cursor) ← quotedWords? double floor fuel cursor
            some (word ++ gap.breaks ++ more, cursor)
        else some (word, cursor.skip 1)

/-- Reads a quoted scalar from its opening quote. -/
def quoted? (double : Bool) (floor : Nat) (cursor : Cursor) : Option (List Char × Cursor) :=
  quotedWords? double floor (cursor.rest.length + 1) (cursor.skip 1)

/-! ### Block scalars -/

/-- The blank lines in front of a line of a block scalar: their breaks, the widest indentation seen,
and the place where the text of the line starts. Only blanks left of the column `indent` are
skipped, or any number of them. -/
def blankLines (indent : Option Nat) : List Char → Nat → Nat → Nat → List Char × Nat × Cursor
  | [], line, column, widest => ([], max widest column, { rest := [], line, column })
  | c :: rest, line, column, widest =>
    if c = ' ' && indent.all (column < ·) then blankLines indent rest line (column + 1) widest
    else if c = '\n' then
      let (breaks, widest, cursor) := blankLines indent rest (line + 1) 0 (max widest column)
      (c :: breaks, widest, cursor)
    else ([], max widest column, { rest := c :: rest, line, column })

/-- The lines of a block scalar that start at the column `indent`. Without an indentation, the mark
of the end of a document ends them. -/
def blockLines? (folded : Bool) (indent : Nat) :
    Nat → BlockEnd → Bool → Cursor → Option (List Char × BlockEnd × Cursor)
  | 0, _, _, _ => none
  | fuel + 1, before, blankBefore, cursor => do
    if cursor.column != indent || cursor.rest.isEmpty || (indent = 0 && cursor.atMarker '.') then
      some ([], before, cursor)
    else
      let blankAfter := cursor.rest.head?.any isBlank
      let line := cursor.rest.takeWhile (· != '\n')
      let joint := before.joint folded blankBefore blankAfter
      let cursor := cursor.skipLine
      if cursor.rest.isEmpty then some (joint ++ line, ⟨[], []⟩, cursor)
      else
        let next := cursor.skipBreak
        let (blanks, _, next) := blankLines (some indent) next.rest next.line next.column 0
        let (more, after, next) ← blockLines? folded indent fuel ⟨['\n'], blanks⟩ blankAfter next
        some (joint ++ line ++ more, after, next)

/-- A block scalar without content, in a text that ends with its blank lines. -/
def emptyBlock (chomping : Chomping) (hasBreak : Bool) (blankLines : List Char) : List Char :=
  if !hasBreak || chomping = .strip then []
  else if chomping = .keep && !blankLines.isEmpty then blankLines
  else ['\n']

/-- What the end of a block scalar adds to its text. A last line that reaches the column `indent`
without a break counts as broken. -/
def chompedEnd (chomping : Chomping) (indent : Nat) (blockEnd : BlockEnd) (cursor : Cursor) :
    List Char :=
  let last :=
    if cursor.rest.isEmpty && max indent 1 ≤ cursor.column then blockEnd.last ++ ['\n']
    else blockEnd.last
  match chomping with
  | .strip => []
  | .clip => last
  | .keep => last ++ blockEnd.blankLines

/-- Reads a block scalar from its indicator. Its lines are indented to the column that the header
gives, counted from the enclosing block, or else as the first line that is not blank, but at least
to the floor. -/
def block? (folded : Bool) (floor : Nat) (cursor : Cursor) : Option (List Char × Cursor) := do
  let cursor := cursor.skip 1
  let (chomping, digit?, rest) ← blockHeader? cursor.rest
  let (_, cursor) ← (cursor.moveTo rest).finishToken?
  if !endsLine cursor.rest || (cursor.rest.drop 1).head? == some '\t' then none
  else
    let hasBreak := !cursor.rest.isEmpty
    let cursor := cursor.skipBreak
    let given := digit?.map (floor - 1 + ·)
    let (blanks, widest, cursor) := blankLines given cursor.rest cursor.line cursor.column 0
    let indent := given.getD (max widest floor)
    if cursor.rest.isEmpty then some (emptyBlock chomping hasBreak blanks, cursor)
    else if cursor.column < indent && floor ≤ cursor.column then none
    else
      let (text, blockEnd, cursor) ←
        blockLines? folded indent (cursor.rest.length + 1) ⟨[], blanks⟩ false cursor
      some (text ++ chompedEnd chomping indent blockEnd cursor, cursor)

end Turnwise.Yaml.V12.Scalar
