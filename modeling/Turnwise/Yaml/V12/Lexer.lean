import Turnwise.Yaml.V12.Scalar
import Turnwise.Yaml.V12.Tag

/-!
# Tokens of the newer revision

Outside brackets a candidate for a key must fit on one line and in 1024 characters, and one that
stands at the indentation of a mapping has to become a key. Inside brackets keys may be of any
length, and behind a key in quotes or brackets the colon need not be followed by a blank.

Indentation is a stack of levels. A level is a block collection, or the room of a single item or
value, which has to be indented further than the collection that it belongs to. A pair that is an
item of a sequence in brackets gets the tokens of a mapping in braces; whether braces have been seen
before decides about that.

`tokens?` reads a whole text. Each step reads one token's worth of characters, so the number of
characters bounds the number of steps.
-/

namespace Turnwise.Yaml.V12

/-- A level of indentation. -/
structure Level where
  /-- The column of the collection; the room of an item starts behind it. -/
  column : Nat
  /-- Whether the level is a collection, whose end is a token. -/
  isBlock : Bool
  deriving DecidableEq, Repr

/-- A reader in the middle of a text. -/
structure Lexer where
  cursor : Cursor
  /-- The tokens read so far, the last one first. -/
  read : List Token := []
  /-- The levels of indentation, the innermost first. -/
  levels : List Level := []
  /-- The candidate at the current bracket level. -/
  candidate : Option Candidate := none
  /-- The candidates at the enclosing bracket levels, the innermost first. -/
  outer : List (Option Candidate) := []
  /-- Whether a key may start here. -/
  keyAllowed : Bool := true
  /-- How many characters were left where a colon needs no blank behind it. -/
  adjacent : Option Nat := none
  /-- Whether braces were opened since the last pair outside braces. -/
  sawBraces : Bool := false
  /-- Whether the tokens of a pair outside braces are to be closed. -/
  inPair : Bool := false

namespace Lexer

/-- Whether the cursor is inside brackets. -/
def inFlow (lexer : Lexer) : Bool := !lexer.outer.isEmpty

/-- The least column that is right of the current level. -/
def floor (lexer : Lexer) : Nat :=
  match lexer.levels with
  | [] => 0
  | level :: _ => level.column + 1

/-- Whether the cursor is left of the current level. -/
def isOutside (lexer : Lexer) : Bool := lexer.cursor.column + 1 < lexer.floor

def emit (lexer : Lexer) (token : Token) : Lexer := { lexer with read := token :: lexer.read }

def emitAt (lexer : Lexer) (place : Nat) (token : Token) : Lexer :=
  { lexer with read := token.insertAt lexer.read place }

/-- Skips the blanks behind a token, and a comment. -/
def finishToken? (lexer : Lexer) : Option Lexer := do
  let (_, cursor) ← lexer.cursor.finishToken?
  some { lexer with cursor }

/-! ### Candidates -/

def dropCandidate? (lexer : Lexer) : Option Lexer :=
  if lexer.candidate.any (·.isRequired) then none else some { lexer with candidate := none }

/-- Makes the token that starts here a candidate, where a key may start. -/
def saveCandidate (lexer : Lexer) : Lexer :=
  if lexer.keyAllowed then
    let { line, column, .. } := lexer.cursor
    let isRequired := !lexer.inFlow && lexer.levels.head? == some ⟨column, true⟩
    { lexer with candidate := some { place := lexer.read.length, line, column, isRequired } }
  else lexer

/-- Outside brackets, forgets a candidate that a colon at the cursor is too far away from. -/
def expire? (lexer : Lexer) : Option Lexer :=
  let isStale (candidate : Candidate) : Bool :=
    candidate.line < lexer.cursor.line || candidate.column + 1024 < lexer.cursor.column
  if !lexer.inFlow && lexer.candidate.any isStale then lexer.dropCandidate? else some lexer

/-! ### Levels -/

/-- Closes the levels right of a column; all of them if there is no column. -/
def closeLevels (lexer : Lexer) (column : Option Nat) : Lexer :=
  if lexer.inFlow then lexer
  else
    let isClosed (level : Level) : Bool := column.all (· < level.column)
    let ends := (lexer.levels.takeWhile isClosed).filter (·.isBlock)
    { lexer with
      levels := lexer.levels.dropWhile isClosed
      read := ends.map (fun _ => .blockEnd) ++ lexer.read }

/-- Gives up the room of an item. -/
def leaveRoom (lexer : Lexer) : Lexer :=
  { lexer with levels := lexer.levels.dropWhile (!·.isBlock) }

/-- Makes room for an item of the innermost collection. -/
def makeRoom (lexer : Lexer) : Lexer :=
  match lexer.levels with
  | ⟨column, true⟩ :: _ =>
    if lexer.inFlow then lexer
    else { lexer with levels := ⟨column + 1, false⟩ :: lexer.levels }
  | _ => lexer

/-- Opens a block collection at a column that is right of the innermost one; the room of an item
there becomes the collection. The token for it goes behind the first `place` tokens. Inside brackets
there are no block collections. -/
def openBlock (lexer : Lexer) (column place : Nat) (token : Token) : Lexer :=
  if lexer.inFlow then lexer
  else
    let levels := match lexer.levels with
      | ⟨room, false⟩ :: outer => if room ≤ column then outer else lexer.levels
      | levels => levels
    if levels.head?.all (·.column < column) then
      { lexer.emitAt place token with levels := ⟨column, true⟩ :: levels }
    else { lexer with levels }

/-! ### Tokens -/

def skip (lexer : Lexer) (n : Nat) : Lexer := { lexer with cursor := lexer.cursor.skip n }

/-- A document marker, which ends all blocks. Nothing but a comment may follow the mark of an end on
its line. -/
def marker? (lexer : Lexer) (token : Token) : Option Lexer := do
  let lexer ← (lexer.closeLevels none).dropCandidate?
  let lexer := { lexer.skip 3 with keyAllowed := false }.emit token
  if token == .documentEnd then
    let lexer ← lexer.finishToken?
    if endsLine lexer.cursor.rest then some lexer else none
  else some lexer

/-- A directive, which fills its line. -/
def directive? (lexer : Lexer) : Option Lexer := do
  let lexer ← (lexer.closeLevels none).dropCandidate?
  let cursor := lexer.cursor.skip 1
  let (directive, rest) ← V12.directive? cursor.rest
  let (_, cursor) ← (cursor.moveTo rest).finishToken?
  if endsLine cursor.rest then
    some { lexer.emit (.directive directive) with cursor := cursor.skipBreak, keyAllowed := false }
  else none

/-- Closes a pair outside braces. -/
def endPair (lexer : Lexer) : Lexer :=
  if lexer.inPair then
    { lexer.emit .flowMappingEnd with inPair := false, sawBraces := false }
  else lexer

/-- An opening bracket. Brackets nest at most 255 deep. -/
def flowStart? (lexer : Lexer) (token : Token) : Option Lexer :=
  let lexer := lexer.saveCandidate.makeRoom
  if 255 ≤ lexer.outer.length then none
  else
    let lexer :=
      { lexer.skip 1 with
        candidate := none
        outer := lexer.candidate :: lexer.outer
        keyAllowed := true
        sawBraces := lexer.sawBraces || token == Token.flowMappingStart }
    (lexer.emit token).finishToken?

/-- A closing bracket. What it closes may be a key at the enclosing level. -/
def flowEnd? (lexer : Lexer) (token : Token) : Option Lexer := do
  let lexer ← lexer.dropCandidate?
  let lexer := match lexer.outer with
    | [] => lexer
    | candidate :: outer => { lexer with candidate, outer }
  let lexer ← ({ lexer.endPair.skip 1 with keyAllowed := false }.emit token).finishToken?
  some (if lexer.inFlow then { lexer with adjacent := some lexer.cursor.rest.length } else lexer)

/-- A comma inside brackets. -/
def separator? (lexer : Lexer) : Option Lexer := do
  let lexer ← lexer.dropCandidate?
  ({ lexer.endPair.skip 1 with keyAllowed := true }.emit .separator).finishToken?

/-- A dash. Another dash must not follow it behind a tab. -/
def entry? (lexer : Lexer) : Option Lexer := do
  if lexer.inFlow || !lexer.keyAllowed then none
  else
    let column := lexer.cursor.column
    let lexer := (lexer.skip 1).openBlock column lexer.read.length .blockSequenceStart
    let (blanks, cursor) ← lexer.cursor.finishToken?
    let isEntry := cursor.rest.head? == some '-' && endsWord (cursor.rest.drop 1)
    if blanks.contains '\t' && isEntry then none
    else
      let lexer := { lexer with cursor }
      let endsHere := cursor.rest.head?.any fun c => c = '\n' || isFlowIndicator c
      let lexer ← (if endsHere then lexer.makeRoom else lexer).dropCandidate?
      some { lexer.emit .entry with keyAllowed := true }

/-- Skips white space other than tabs, and comments. -/
def skipSpaces : Nat → Cursor → Cursor
  | 0, cursor => cursor
  | fuel + 1, cursor =>
    let cursor := cursor.skipWhile (· = ' ')
    let cursor := if cursor.rest.head? == some '#' then cursor.skipLine else cursor
    if cursor.rest.head? == some '\n' then skipSpaces fuel cursor.skipBreak else cursor

/-- A question mark, which announces a key. White space must follow it, and no tab. -/
def key? (lexer : Lexer) : Option Lexer := do
  if !lexer.inFlow && !lexer.keyAllowed then none
  else
    let lexer := lexer.openBlock lexer.cursor.column lexer.read.length .blockMappingStart
    let lexer ← lexer.dropCandidate?
    let start := lexer.cursor.skip 1
    let cursor := skipSpaces (start.rest.length + 1) start
    if cursor.rest.length = start.rest.length || cursor.rest.head? == some '\t' then none
    else
      some
        { lexer.emit .key with
          cursor
          keyAllowed := !lexer.inFlow
          sawBraces := lexer.sawBraces || lexer.inFlow }

/-- Skips the blanks behind a colon, if the first of them is a tab. Unless there is a space among
them, no word and no dash may follow. -/
def finishColon? (cursor : Cursor) : Option Cursor :=
  if cursor.rest.head? == some '\t' then do
    let (blanks, cursor) ← cursor.finishToken?
    if !blanks.contains ' ' && cursor.rest.head?.any isWordChar then none else some cursor
  else some cursor

/-- A colon: the candidate in front of it, if there is one, is a key. A pair outside braces must
start on the line of its colon. -/
def value? (lexer : Lexer) : Option Lexer := do
  let start := lexer.cursor
  let inPair := lexer.inFlow && !lexer.sawBraces
  let cursor ← finishColon? (start.skip 1)
  let lexer := { lexer with cursor, inPair }
  match lexer.candidate with
  | some candidate =>
    if inPair && candidate.line < start.line then none
    else
      let lexer := lexer.emitAt candidate.place .key
      let lexer := if inPair then lexer.emitAt candidate.place .flowMappingStart else lexer
      let lexer := lexer.openBlock candidate.column candidate.place .blockMappingStart
      some { lexer.makeRoom.emit .value with candidate := none, keyAllowed := false }
  | none =>
    let lexer := if inPair then lexer.emit .flowMappingStart else lexer
    if lexer.inFlow then some { lexer.emit .value with keyAllowed := false }
    else if lexer.keyAllowed then
      let lexer := lexer.openBlock start.column lexer.read.length .blockMappingStart
      some { lexer.makeRoom.emit .value with keyAllowed := true }
    else none

/-- An anchor, an alias or a tag, given what is left of the text behind it. -/
def property (lexer : Lexer) (token : Token) (rest : List Char) : Lexer :=
  { lexer.saveCandidate.emit token with cursor := lexer.cursor.moveTo rest, keyAllowed := false }

/-- A plain scalar. If it runs up to a new line, a key may start there. -/
def plain? (lexer : Lexer) : Option Lexer := do
  let lexer := lexer.saveCandidate.leaveRoom
  let (text, keyAllowed, cursor) ← Scalar.plain? lexer.inFlow lexer.floor lexer.cursor
  some { lexer.emit (.scalar .plain text) with cursor, keyAllowed }

def block? (lexer : Lexer) (style : ScalarStyle) : Option Lexer := do
  let lexer := lexer.saveCandidate.leaveRoom
  let (text, cursor) ← Scalar.block? (style == .folded) lexer.floor lexer.cursor
  some { lexer.emit (.scalar style text) with cursor, keyAllowed := true }

/-- Skips blanks, comments and line breaks in front of a token. Left of the indentation of a block,
a line that starts with a tab must be hollow. Outside brackets a key may start on every new line. -/
def skipSpace? : Nat → Lexer → Option Lexer
  | 0, _ => none
  | fuel + 1, lexer =>
    let cursor := lexer.cursor
    match cursor.rest with
    | [] => some lexer
    | c :: rest =>
      if c = '\t' && cursor.isFresh && lexer.isOutside then
        if isHollow rest then skipSpace? fuel { lexer with cursor := cursor.skipLine } else none
      else if isBlank c then skipSpace? fuel (lexer.skip 1)
      else if c = '\n' then
        skipSpace? fuel
          { lexer with
            cursor := cursor.skipBreak
            keyAllowed := !lexer.inFlow || lexer.keyAllowed }
      else if c = '#' then skipSpace? fuel { lexer with cursor := cursor.skipLine }
      else some lexer

/-- A quoted scalar. Only a comment may follow it on its line, or a colon if it fits on a line, or
inside brackets a colon, a comma or a closing bracket. -/
def quoted? (lexer : Lexer) (style : ScalarStyle) : Option Lexer := do
  let start := lexer.cursor
  let lexer := { lexer.saveCandidate with keyAllowed := false }
  let (text, cursor) ← Scalar.quoted? (style == .doubleQuoted) lexer.floor start
  let (_, cursor) ← cursor.finishToken?
  let isFollowed := cursor.rest.head?.any fun c =>
    if c = ':' then lexer.inFlow || start.line = cursor.line
    else lexer.inFlow && (c = ',' || c = ']' || c = '\x7d')
  if !endsLine cursor.rest && !isFollowed then none
  else
    let lexer ← skipSpace? (cursor.rest.length + 1) { lexer with cursor }
    some { lexer.emit (.scalar style text) with adjacent := some lexer.cursor.rest.length }

/-- Whether a colon at the cursor, with the given text behind it, stands between a key and its
value. -/
def isColon (lexer : Lexer) (rest : List Char) : Bool :=
  endsWord rest ||
    (lexer.inFlow &&
      (rest.head?.any isFlowIndicator || lexer.adjacent == some lexer.cursor.rest.length))

/-- Reads the token that starts at the cursor. -/
def token? (lexer : Lexer) (c : Char) (rest : List Char) : Option Lexer :=
  let inFlow := lexer.inFlow
  if lexer.cursor.column = 0 && c = '%' then lexer.directive?
  else if lexer.cursor.atMarker '-' then lexer.marker? .documentStart
  else if lexer.cursor.atMarker '.' then lexer.marker? .documentEnd
  else if lexer.isOutside then none
  else if c = '[' then lexer.flowStart? .flowSequenceStart
  else if c = '\x7b' then lexer.flowStart? .flowMappingStart
  else if c = ']' then lexer.flowEnd? .flowSequenceEnd
  else if c = '\x7d' then lexer.flowEnd? .flowMappingEnd
  else if c = ',' then lexer.separator?
  else if c = '-' && endsWord rest then lexer.entry?
  else if c = '?' && endsWord rest then lexer.key?
  else if c = ':' && lexer.isColon rest then lexer.value?
  else if c = '*' then (anchorName? rest).map fun (name, rest) => lexer.property (.alias name) rest
  else if c = '&' then (anchorName? rest).map fun (name, rest) => lexer.property (.anchor name) rest
  else if c = '!' then
    (tag? inFlow (c :: rest)).map fun (tag, rest) => lexer.property (.tag tag) rest
  else if c = '|' && !inFlow then lexer.block? .literal
  else if c = '>' && !inFlow then lexer.block? .folded
  else if c = '\'' then lexer.quoted? .singleQuoted
  else if c = '"' then lexer.quoted? .doubleQuoted
  else if "%@\x60".toList.contains c then none
  else lexer.plain?

/-! ### Whole texts -/

/-- The tokens of a text that has been read to its end. -/
def finish? (lexer : Lexer) : Option (List Token) :=
  if lexer.outer.any (·.any (·.isRequired)) then none
  else (lexer.closeLevels none).dropCandidate?.map (·.read.reverse)

/-- Reads tokens up to the end of the text, in at most `fuel` steps. -/
def run? : Nat → Lexer → Option (List Token)
  | 0, _ => none
  | fuel + 1, lexer => do
    let lexer ← (← skipSpace? (lexer.cursor.rest.length + 1) lexer).expire?
    match lexer.cursor.rest with
    | [] => lexer.finish?
    | c :: rest => run? fuel (← (lexer.closeLevels (some lexer.cursor.column)).token? c rest)

end Lexer

/-- The tokens of a text. -/
def tokens? (text : List Char) : Option (List Token) :=
  let text := unifyBreaks text
  Lexer.run? (text.length + 1) { cursor := { rest := text } }

end Turnwise.Yaml.V12
