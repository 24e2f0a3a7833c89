import Turnwise.Text.Utf8
import Turnwise.Yaml.Token
import Turnwise.Yaml.V11.Text

/-!
# Anchors, tags and directives of the older revision

The parts of a document that name things: the names of anchors, the tags that say what type a node
has, and the directives in front of a document that choose a version and abbreviate tags.

A tag is written as a handle and a suffix. The handle stands for what the directives in force say;
by default `!` stands for itself and `!!` for the tags of the core types.
-/

namespace Turnwise.Yaml.V11

/-! ### Anchors -/

/-- Reads the name of an anchor after its indicator. The name must end at white space or at one of
the characters that end a node. -/
def anchorName? (text : List Char) : Option (List Char × List Char) :=
  let name := text.takeWhile isWordChar
  let rest := text.dropWhile isWordChar
  if name.isEmpty then none
  else if endsWord rest || rest.head?.any ("?:,]\x7d%@\x60".toList.contains ·) then
    some (name, rest)
  else none

/-! ### Tags -/

/-- Whether a character may stand in a tag; `verbatim` allows the flow indicators too. -/
def isUriChar (verbatim : Bool) (c : Char) : Bool :=
  isWordChar c || ";/?:@&=+$.!~*'()%".toList.contains c || (verbatim && ",[]".toList.contains c)

/-- Reads a character that is written as the bytes of its encoding. -/
def percentChar? (text : List Char) : Option (List Char × List Char) :=
  (percentGroup? text).map fun (bytes, rest) => (Utf8.decodeFrom none bytes, rest)

/-- The characters of a tag, with their escapes undone, and what follows them. -/
def uri? (verbatim : Bool) : Nat → List Char → Option (List Char × List Char)
  | 0, _ => none
  | _, [] => some ([], [])
  | fuel + 1, c :: rest => do
    if !isUriChar verbatim c then some ([], c :: rest)
    else
      let (value, rest) ← if c = '%' then percentChar? (c :: rest) else some ([c], rest)
      let (more, rest) ← uri? verbatim fuel rest
      some (value ++ more, rest)

/-- The handle at the start of a text: an exclamation mark, with a word and another mark behind it
if it is closed. -/
def handle? : List Char → Option (List Char × List Char)
  | '!' :: rest =>
    let word := rest.takeWhile isWordChar
    match rest.dropWhile isWordChar with
    | '!' :: rest => some ('!' :: (word ++ ['!']), rest)
    | _ => some (['!'], rest)
  | _ => none

/-- Reads a tag. A mark on its own is the tag that asks for no resolution. -/
def tag? (inFlow : Bool) (text : List Char) : Option (Tag × List Char) := do
  let (tag, rest) ← match text with
    | '!' :: '<' :: rest => do
      let (suffix, rest) ← uri? true (rest.length + 1) rest
      match suffix, rest with
      | _ :: _, '>' :: rest => some (⟨[], suffix⟩, rest)
      | _, _ => none
    | _ => do
      let (handle, rest) ← handle? text
      let (suffix, rest) ← uri? false (rest.length + 1) rest
      if !suffix.isEmpty then some (⟨handle, suffix⟩, rest)
      else if handle = ['!'] then some (.nonSpecific, rest)
      else none
  if endsWord rest || (inFlow && rest.head? == some ',') then some (tag, rest) else none

/-! ### Directives -/

/-- Reads a number of at most nine digits. -/
def number? (text : List Char) : Option (Nat × List Char) := do
  let digits := text.takeWhile Char.isDigit
  if 9 < digits.length then none
  some (← readNatural? 10 digits, text.dropWhile Char.isDigit)

/-- Reads a directive after its percent sign. There are two of them, and no other is accepted. -/
def directive? (text : List Char) : Option (Directive × List Char) := do
  let name := text.takeWhile isWordChar
  let rest := text.dropWhile isWordChar
  if !endsWord rest then none
  else
    let rest := rest.dropWhile isBlank
    if name = "YAML".toList then
      match ← number? rest with
      | (major, '.' :: rest) =>
        let (minor, rest) ← number? rest
        some (.version major minor, rest)
      | _ => none
    else if name = "TAG".toList then
      let (handle, rest) ← handle? rest
      if !rest.head?.any isBlank then none
      else
        let rest := rest.dropWhile isBlank
        let (meaning, rest) ← uri? true (rest.length + 1) rest
        if meaning.isEmpty || !endsWord rest then none else some (.tagHandle handle meaning, rest)
    else none

end Turnwise.Yaml.V11
