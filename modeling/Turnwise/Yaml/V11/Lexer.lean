import Turnwise.Yaml.V11.Scalar
import Turnwise.Yaml.V11.Tag

/-!
# Tokens of the older revision

A candidate for a key must fit on one line and in 1024 characters. Outside brackets, a candidate
that stands at the indentation of a mapping has to become a key.

`tokens?` reads a whole text. Each step reads one token's worth of characters, so the number of
characters bounds the number of steps.
-/

namespace Turnwise.Yaml.V11

/-- A reader in the middle of a text. -/
structure Lexer where
  cursor : Cursor
  /-- The tokens read so far, the last one first. -/
  read : List Token := []
  /-- The columns of the open block collections, the innermost first. -/
  columns : List Nat := []
  /-- The candidate at the current bracket level. -/
  candidate : Option Candidate := none
  /-- The candidates at the enclosing bracket levels, the innermost first. -/
  outer : List (Option Candidate) := []
  /-- Whether a key may start here. -/
  keyAllowed : Bool := true

namespace Lexer

/-- Whether the cursor is inside brackets. -/
def inFlow (lexer : Lexer) : Bool := !lexer.outer.isEmpty

/-- The least column of what belongs to the innermost block collection. -/
def floor (lexer : Lexer) : Nat :=
  match lexer.columns with
  | [] => 0
  | column :: _ => column + 1

def emit (lexer : Lexer) (token : Token) : Lexer := { lexer with read := token :: lexer.read }

def emitAt (lexer : Lexer) (place : Nat) (token : Token) : Lexer :=
  { lexer with read := token.insertAt lexer.read place }

/-! ### Candidates -/

def dropCandidate? (lexer : Lexer) : Option Lexer :=
  if lexer.candidate.any (·.isRequired) then none else some { lexer with candidate := none }

/-- Makes the token that starts here a candidate, where a key may start. -/
def saveCandidate? (lexer : Lexer) : Option Lexer :=
  if lexer.keyAllowed then do
    let lexer ← lexer.dropCandidate?
    let candidate :=
      { place := lexer.read.length
        line := lexer.cursor.line
        column := lexer.cursor.column
        isRequired := !lexer.inFlow && lexer.columns.head? == some lexer.cursor.column }
    some { lexer with candidate := some candidate }
  else some lexer

/-- Whether a colon at the cursor is too far away from a candidate. -/
def isStale (cursor : Cursor) (candidate : Candidate) : Bool :=
  candidate.line < cursor.line || candidate.column + 1024 < cursor.column

/-- Forgets a candidate if it is stale. -/
def expire? (cursor : Cursor) : Option Candidate → Option (Option Candidate)
  | none => some none
  | some candidate =>
    if !isStale cursor candidate then some (some candidate)
    else if candidate.isRequired then none
    else some none

/-- Forgets the stale candidates of all levels. -/
def expireAll? (lexer : Lexer) : Option Lexer := do
  let candidate ← expire? lexer.cursor lexer.candidate
  let outer ← lexer.outer.mapM (expire? lexer.cursor)
  some { lexer with candidate, outer }

/-! ### Block collections -/

/-- Opens a block collection at a column that is right of the innermost one. The token for it goes
behind the first `place` tokens. Inside brackets there are no block collections. -/
def openBlock (lexer : Lexer) (column place : Nat) (token : Token) : Lexer :=
  if !lexer.inFlow && lexer.floor ≤ column then
    { lexer.emitAt place token with columns := column :: lexer.columns }
  else lexer

/-- Closes the block collections right of a column; all of them if there is no column. -/
def closeBlocks (lexer : Lexer) (column : Option Nat) : Lexer :=
  if lexer.inFlow then lexer
  else
    let isClosed (open_ : Nat) : Bool := column.all (· < open_)
    { lexer with
      columns := lexer.columns.dropWhile isClosed
      read := (lexer.columns.takeWhile isClosed).map (fun _ => .blockEnd) ++ lexer.read }

/-! ### Tokens -/

/-- Skips the next `n` characters and adds the token that they are. -/
def punctuate (lexer : Lexer) (n : Nat) (keyAllowed : Bool) (token : Token) : Lexer :=
  { lexer.emit token with cursor := lexer.cursor.skip n, keyAllowed }

/-- A document marker, which ends all blocks. -/
def marker? (lexer : Lexer) (token : Token) : Option Lexer := do
  let lexer ← (lexer.closeBlocks none).dropCandidate?
  some (lexer.punctuate 3 false token)

/-- A directive, which fills its line. -/
def directive? (lexer : Lexer) : Option Lexer := do
  let lexer ← (lexer.closeBlocks none).dropCandidate?
  let cursor := lexer.cursor.skip 1
  let (directive, rest) ← V11.directive? cursor.rest
  let cursor ← (cursor.moveTo rest).finishLine?
  some { lexer.emit (.directive directive) with cursor, keyAllowed := false }

def flowStart? (lexer : Lexer) (token : Token) : Option Lexer := do
  let lexer ← lexer.saveCandidate?
  some
    { lexer.punctuate 1 true token with
      candidate := none
      outer := lexer.candidate :: lexer.outer }

/-- A closing bracket. What it closes may be a key at the enclosing level. -/
def flowEnd? (lexer : Lexer) (token : Token) : Option Lexer := do
  let lexer ← lexer.dropCandidate?
  let lexer := match lexer.outer with
    | [] => lexer
    | candidate :: outer => { lexer with candidate, outer }
  some (lexer.punctuate 1 false token)

/-- A comma inside brackets. -/
def separator? (lexer : Lexer) : Option Lexer := do
  some ((← lexer.dropCandidate?).punctuate 1 true .separator)

/-- Opens a block collection for an indicator at the cursor. -/
def openHere? (lexer : Lexer) (token : Token) : Option Lexer :=
  if lexer.inFlow then some lexer
  else if lexer.keyAllowed then
    some (lexer.openBlock lexer.cursor.column lexer.read.length token)
  else none

def entry? (lexer : Lexer) : Option Lexer := do
  let lexer ← (← lexer.openHere? .blockSequenceStart).dropCandidate?
  some (lexer.punctuate 1 true .entry)

/-- A question mark, which announces a key. -/
def key? (lexer : Lexer) : Option Lexer := do
  let lexer ← (← lexer.openHere? .blockMappingStart).dropCandidate?
  some (lexer.punctuate 1 (!lexer.inFlow) .key)

/-- A colon: the candidate in front of it, if there is one, is a key. -/
def value? (lexer : Lexer) : Option Lexer :=
  match lexer.candidate with
  | some candidate =>
    let lexer := (lexer.emitAt candidate.place .key).openBlock candidate.column candidate.place
      .blockMappingStart
    some ({ lexer with candidate := none }.punctuate 1 false .value)
  | none => do
    let lexer ← lexer.openHere? .blockMappingStart
    some (lexer.punctuate 1 (!lexer.inFlow) .value)

/-- An anchor, an alias or a tag, given what is left of the text behind it. -/
def property? (lexer : Lexer) (token : Token) (rest : List Char) : Option Lexer := do
  let lexer ← lexer.saveCandidate?
  some { lexer.emit token with cursor := lexer.cursor.moveTo rest, keyAllowed := false }

/-- A scalar that may be a key. A plain scalar that runs up to a new line leaves it open for one. -/
def inlineScalar? (lexer : Lexer) (style : ScalarStyle) : Option Lexer := do
  let lexer ← lexer.saveCandidate?
  let (text, keyAllowed, cursor) ← match style with
    | .plain => Scalar.plain? lexer.inFlow lexer.floor lexer.cursor
    | _ => (Scalar.quoted? (style == .doubleQuoted) lexer.cursor).map fun (text, cursor) =>
        (text, false, cursor)
  some { lexer.emit (.scalar style text) with cursor, keyAllowed }

/-- A block scalar. -/
def blockScalar? (lexer : Lexer) (style : ScalarStyle) : Option Lexer := do
  let lexer ← lexer.dropCandidate?
  let (text, cursor) ← Scalar.block? (style == .folded) lexer.floor lexer.cursor
  some { lexer.emit (.scalar style text) with cursor, keyAllowed := true }

/-- Whether a plain scalar may start with the character, given what follows it. -/
def startsPlain (inFlow : Bool) (c : Char) (rest : List Char) : Bool :=
  if c = '-' then !rest.head?.any isBlank
  else if c = '?' || c = ':' then !inFlow && !endsWord rest
  else !isSpace c && !",[]\x7b\x7d#&*!|>'\"%@\x60".toList.contains c

/-- Reads the token that starts at the cursor. -/
def token? (lexer : Lexer) (c : Char) (rest : List Char) : Option Lexer :=
  let inFlow := lexer.inFlow
  if lexer.cursor.column = 0 && c = '%' then lexer.directive?
  else if lexer.cursor.atMarker then
    lexer.marker? (if c = '-' then .documentStart else .documentEnd)
  else if c = '[' then lexer.flowStart? .flowSequenceStart
  else if c = '\x7b' then lexer.flowStart? .flowMappingStart
  else if c = ']' then lexer.flowEnd? .flowSequenceEnd
  else if c = '\x7d' then lexer.flowEnd? .flowMappingEnd
  else if c = ',' then lexer.separator?
  else if c = '-' && endsWord rest then lexer.entry?
  else if c = '?' && (inFlow || endsWord rest) then lexer.key?
  else if c = ':' && (inFlow || endsWord rest) then lexer.value?
  else if c = '*' then
    (anchorName? rest).bind fun (name, rest) => lexer.property? (.alias name) rest
  else if c = '&' then
    (anchorName? rest).bind fun (name, rest) => lexer.property? (.anchor name) rest
  else if c = '!' then
    (tag? inFlow (c :: rest)).bind fun (tag, rest) => lexer.property? (.tag tag) rest
  else if c = '|' && !inFlow then lexer.blockScalar? .literal
  else if c = '>' && !inFlow then lexer.blockScalar? .folded
  else if c = '\'' then lexer.inlineScalar? .singleQuoted
  else if c = '"' then lexer.inlineScalar? .doubleQuoted
  else if startsPlain inFlow c rest then lexer.inlineScalar? .plain
  else none

/-! ### Whole texts -/

/-- Skips a byte order mark, which may start a line and takes a column. -/
def skipMark (cursor : Cursor) : Cursor :=
  if cursor.column = 0 && cursor.rest.head? == some '\uFEFF' then cursor.skip 1 else cursor

/-- Skips blanks, comments and line breaks in front of a token. Outside brackets a tab does not
count as a blank where a key may start, and a key may start on every new line. -/
def skipSpace : Nat → Lexer → Lexer
  | 0, lexer => lexer
  | fuel + 1, lexer =>
    let tabs := lexer.inFlow || !lexer.keyAllowed
    let cursor := (skipMark lexer.cursor).skipWhile fun c => c = ' ' || (tabs && c = '\t')
    let cursor := cursor.skipComment
    let lexer := { lexer with cursor }
    if cursor.rest.head?.any isBreak then
      skipSpace fuel
        { lexer with
          cursor := cursor.skipBreak
          keyAllowed := !lexer.inFlow || lexer.keyAllowed }
    else lexer

/-- Reads tokens up to the end of the text, in at most `fuel` steps. -/
def run? : Nat → Lexer → Option (List Token)
  | 0, _ => none
  | fuel + 1, lexer => do
    let lexer ← (lexer.skipSpace (lexer.cursor.rest.length + 1)).expireAll?
    match lexer.cursor.rest with
    | [] => some (← (lexer.closeBlocks none).dropCandidate?).read.reverse
    | c :: rest => run? fuel (← (lexer.closeBlocks (some lexer.cursor.column)).token? c rest)

end Lexer

/-- The tokens of a text. -/
def tokens? (text : List Char) : Option (List Token) :=
  if text.all isAllowed then
    let text := unifyBreaks text
    Lexer.run? (text.length + 1) { cursor := .ofText text }
  else none

end Turnwise.Yaml.V11
