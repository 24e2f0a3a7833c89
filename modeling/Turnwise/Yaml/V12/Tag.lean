import Turnwise.Yaml.Token
import Turnwise.Yaml.V12.Text

/-!
# Anchors, tags and directives of the newer revision

The parts of a document that name things. Names of anchors are almost unrestricted here, and so are
directives: one that is not known counts as an abbreviation of nothing.

A character that is written as the bytes of its encoding stands for the code point whose number
those bytes spell in base 256.
-/

namespace Turnwise.Yaml.V12

/-! ### Anchors -/

/-- A character of an anchor's name. -/
def isAnchorChar (c : Char) : Bool := !isSpace c && !isFlowIndicator c && c != '\uFEFF'

/-- Reads the name of an anchor after its indicator. -/
def anchorName? (text : List Char) : Option (List Char × List Char) :=
  let name := text.takeWhile isAnchorChar
  if name.isEmpty then none else some (name, text.dropWhile isAnchorChar)

/-! ### Tags -/

/-- A character of a complete tag. -/
def isUriChar (c : Char) : Bool := isWordChar c || "#;/?:@&=+$,.!~*'()[]%".toList.contains c

/-- A character of a tag's suffix. -/
def isTagChar (c : Char) : Bool := isUriChar c && !isFlowIndicator c && c != '!'

/-- Reads a character that is written as the bytes of its encoding. -/
def percentChar? (text : List Char) : Option (Char × List Char) := do
  let (bytes, rest) ← percentGroup? text
  let value := bytes.foldl (fun value byte => 256 * value + byte.toNat) 0
  if value.isValidChar then some (Char.ofNat value, rest) else none

/-- The characters of a tag, with their escapes undone, and what follows them. -/
def tagChars? (isIn : Char → Bool) : Nat → List Char → Option (List Char × List Char)
  | 0, _ => none
  | _, [] => some ([], [])
  | fuel + 1, c :: rest => do
    if !isIn c then some ([], c :: rest)
    else
      let (value, rest) ← if c = '%' then percentChar? (c :: rest) else some (c, rest)
      let (more, rest) ← tagChars? isIn fuel rest
      some (value :: more, rest)

/-- All characters of the given kind at the front of a text. -/
def tagText? (isIn : Char → Bool) (text : List Char) : Option (List Char × List Char) :=
  tagChars? isIn (text.length + 1) text

/-- The handle at the start of a text: an exclamation mark, with a word and another mark behind it
if it is closed. -/
def handle? : List Char → Option (List Char × List Char)
  | '!' :: rest =>
    let word := rest.takeWhile isWordChar
    match rest.dropWhile isWordChar with
    | '!' :: rest => some ('!' :: (word ++ ['!']), rest)
    | _ => some (['!'], rest)
  | _ => none

/-- Reads a tag. A mark on its own is the tag that asks for no resolution; a closed handle needs a
suffix. -/
def tag? (inFlow : Bool) (text : List Char) : Option (Tag × List Char) := do
  let (tag, rest) ← match text with
    | '!' :: '<' :: rest =>
      match ← tagText? isUriChar rest with
      | (suffix, '>' :: rest) => some (⟨[], suffix⟩, rest)
      | _ => none
    | _ => do
      let (handle, rest) ← handle? text
      let (suffix, rest) ← tagText? isTagChar rest
      if !suffix.isEmpty then some (⟨handle, suffix⟩, rest)
      else if handle = ['!'] then some (.nonSpecific, rest)
      else none
  if endsWord rest || (inFlow && rest.head?.any isFlowIndicator) then some (tag, rest) else none

/-! ### Directives -/

/-- Reads a number of at most nine digits. -/
def number? (text : List Char) : Option (Nat × List Char) :=
  let digits := text.takeWhile Char.isDigit
  if 9 < digits.length then none
  else (readNatural? 10 digits).map (·, text.dropWhile Char.isDigit)

/-- Reads what the handle of a tag is to stand for. -/
def meaning? : List Char → Option (List Char × List Char)
  | [] => none
  | c :: rest =>
    if c = '!' then do
      let (more, rest) ← tagText? isUriChar rest
      some (c :: more, rest)
    else if isTagChar c then tagText? isUriChar (c :: rest)
    else none

/-- Reads a directive after its percent sign. -/
def directive? (text : List Char) : Option (Directive × List Char) := do
  let name := text.takeWhile isWordChar
  let rest := text.dropWhile isWordChar
  if name.isEmpty || !endsWord rest then none
  else
    let value := rest.dropWhile isBlank
    if name = "YAML".toList then
      match ← number? value with
      | (major, '.' :: rest) =>
        let (minor, rest) ← number? rest
        some (.version major minor, rest)
      | _ => none
    else if name = "TAG".toList then
      let (handle, rest) ← handle? value
      let (meaning, behind) ← meaning? (rest.dropWhile isBlank)
      if handle = ['!'] && rest.head?.any isWordChar then none
      else if endsWord behind then some (.tagHandle handle meaning, behind)
      else none
    else some (.tagHandle [] [], rest.dropWhile (· != '\n'))

end Turnwise.Yaml.V12
