import Turnwise.Yaml.Text

/-!
# Tokens

The tokens of a YAML text, which both revisions of the syntax share. Indentation disappears at this
level: where a block collection starts or ends, a token says so.

Whether a scalar or a bracket is a key is known only when the colon behind it is read. Until then it
is a `Candidate`, remembered with its place among the tokens, and the colon puts the tokens for a
key in front of it.
-/

namespace Turnwise.Yaml

/-- The revisions of the syntax. -/
inductive Revision where
  /-- The older one, in which the strict form of a configuration is written. -/
  | v11
  /-- The newer one, in which the files of a layered configuration are written. -/
  | v12
  deriving DecidableEq, Repr, Inhabited

/-- How a scalar is written. -/
inductive ScalarStyle where
  | plain
  | singleQuoted
  | doubleQuoted
  /-- A block whose line breaks are kept. -/
  | literal
  /-- A block whose lines are folded into paragraphs. -/
  | folded
  deriving DecidableEq, Repr, Inhabited

/-- The name of a type in two parts. The first is a handle, as long as it is not resolved, and then
what the handle stands for. A tag that is complete as it stands has an empty first part. -/
structure Tag where
  handle : List Char
  suffix : List Char
  deriving DecidableEq, Repr, Inhabited

namespace Tag

/-- What the tags of the core types start with. -/
def corePrefix : List Char := "tag:yaml.org,2002:".toList

/-- The tag that asks for no resolution. -/
def nonSpecific : Tag := ⟨[], ['!']⟩

/-- The whole name of a resolved tag. -/
def text (tag : Tag) : List Char := tag.handle ++ tag.suffix

/-- Whether a resolved tag names a core type, in whatever parts. -/
def isCore (tag : Tag) (name : String) : Bool := tag.text == corePrefix ++ name.toList

end Tag

/-- A line that starts with a percent sign, in front of a document. -/
inductive Directive where
  | version (major minor : Nat)
  /-- What a tag's handle stands for. -/
  | tagHandle (name meaning : List Char)
  deriving DecidableEq, Repr

/-- A part of a text that matters to its structure. -/
inductive Token where
  | directive (value : Directive)
  | documentStart
  | documentEnd
  | blockSequenceStart
  | blockMappingStart
  /-- The end of the innermost block collection. -/
  | blockEnd
  | flowSequenceStart
  | flowSequenceEnd
  | flowMappingStart
  | flowMappingEnd
  /-- The dash in front of an item. -/
  | entry
  /-- The comma between items in brackets. -/
  | separator
  | key
  | value
  | anchor (name : List Char)
  | alias (name : List Char)
  | tag (value : Tag)
  | scalar (style : ScalarStyle) (text : List Char)
  deriving DecidableEq, Repr

/-- Puts a token behind the first `place` of the tokens read so far, the last of which comes first
in the list. -/
def Token.insertAt (read : List Token) (place : Nat) (token : Token) : List Token :=
  let after := read.length - place
  read.take after ++ token :: read.drop after

/-- A token that may turn out to be a key. -/
structure Candidate where
  /-- How many tokens are in front of it. -/
  place : Nat
  line : Nat
  column : Nat
  /-- Whether the text is wrong if no colon follows. -/
  isRequired : Bool
  deriving DecidableEq, Repr

end Turnwise.Yaml
