import Turnwise.Yaml.V11.Lexer
import Turnwise.Yaml.V12.Lexer

/-!
# Documents

The documents of a YAML text as trees of nodes. `parse?` reads a text under either revision of the
syntax. Above the level of tokens the revisions differ in three points: what an omitted node is,
whether a value may lack its key, and how directives give tags their meaning.

A node is read from the tokens at its start and leaves the tokens behind it. An alias is the node
that it refers to, which must stand in front of it; only where it refers to a collection that it is
itself a part of, the tree cannot contain that collection and holds a reference (`Node.enclosing`)
to an entry of the document's table.

Every node starts with a token of its own, and every collection with one more, so twice the number
of tokens bounds the depth of the recursion.
-/

namespace Turnwise.Yaml

inductive Node where
  /-- A scalar, with its tag resolved. -/
  | scalar (tag : Option Tag) (style : ScalarStyle) (text : List Char)
  | sequence (items : List Node)
  | mapping (pairs : List (Node × Node))
  /-- The collection with the given number, which contains this place. -/
  | enclosing (anchor : Nat)
  deriving Inhabited

/-- The node that stands where a node may be left out. In the newer revision it is the sign for no
value. -/
def Node.omitted : Revision → Node
  | .v11 => .scalar none .plain []
  | .v12 => .scalar none .plain ['~']

structure Document where
  root : Node
  /-- The nodes that have anchors, by their numbers. -/
  anchored : List (Nat × Node) := []

/-- The node that a reference to an enclosing collection refers to; any other node itself. -/
def Document.follow (document : Document) : Node → Node
  | .enclosing anchor => (document.anchored.lookup anchor).getD (.enclosing anchor)
  | node => node

/-- An anchor, and its node once that is complete. -/
structure Anchor where
  name : List Char
  number : Nat
  node : Option Node := none

/-- A reader in the middle of a document. -/
structure Composer where
  revision : Revision
  tokens : List Token
  /-- What the tag handles stand for. -/
  handles : List (List Char × List Char) := []
  /-- The anchors so far, the latest first. A later anchor hides an earlier one of its name. -/
  anchors : List Anchor := []

namespace Composer

open Node (omitted)

/-- The composer behind the next `n` tokens. -/
def skip (composer : Composer) (n : Nat) : Composer :=
  { composer with tokens := composer.tokens.drop n }

/-- Whether the next token is one of the given ones. -/
def isNext (composer : Composer) (tokens : List Token) : Bool :=
  composer.tokens.head?.any (tokens.contains ·)

/-! ### Properties -/

/-- What the handle of a tag stands for. In the older revision a handle must have a meaning. In the
newer one `!!` has one by default, and only a handle that is closed needs one; any other handle
stands for itself. -/
def meaning? (composer : Composer) (handle : List Char) : Option (List Char) :=
  match composer.handles.lookup handle, composer.revision with
  | some meaning, _ => some meaning
  | none, .v11 => if handle.isEmpty then some [] else none
  | none, .v12 =>
    if handle = ['!', '!'] then some Tag.corePrefix
    else if 2 ≤ handle.length then none
    else some handle

/-- The tag with what its handle stands for. -/
def resolve? (composer : Composer) (tag : Tag) : Option Tag :=
  (composer.meaning? tag.handle).map (⟨·, tag.suffix⟩)

/-- Opens an anchor and yields its number. -/
def openAnchor (composer : Composer) (name : List Char) : Nat × Composer :=
  let number := composer.anchors.length
  (number, { composer with anchors := { name, number } :: composer.anchors })

/-- Records the node of an anchor. -/
def closeAnchor (composer : Composer) (number : Nat) (node : Node) : Composer :=
  let close (anchor : Anchor) : Anchor :=
    if anchor.number = number then { anchor with node := some node } else anchor
  { composer with anchors := composer.anchors.map close }

def alias? (composer : Composer) (name : List Char) : Option Node :=
  (composer.anchors.find? (·.name == name)).map fun anchor =>
    anchor.node.getD (.enclosing anchor.number)

/-- What stands in front of a node: the number of its anchor and its tag. -/
structure Properties where
  anchor : Option Nat := none
  tag : Option Tag := none

/-- Reads the properties of a node: an anchor and a tag, in either order. -/
def properties? (composer : Composer) : Option (Properties × Composer) :=
  match composer.tokens with
  | .anchor name :: .tag tag :: _ | .tag tag :: .anchor name :: _ => do
    let tag ← composer.resolve? tag
    let (number, composer) := (composer.skip 2).openAnchor name
    some ({ anchor := some number, tag := some tag }, composer)
  | .anchor name :: _ =>
    let (number, composer) := (composer.skip 1).openAnchor name
    some ({ anchor := some number }, composer)
  | .tag tag :: _ => do some ({ tag := some (← composer.resolve? tag) }, composer.skip 1)
  | _ => some ({}, composer)

/-! ### Nodes -/

mutual

/-- Reads a node. Block collections are possible only outside brackets (`inBlock`). Where a mapping
has announced the node, the dashes of a sequence need not be indented (`dashes`). -/
def node? : Nat → (inBlock dashes : Bool) → Composer → Option (Node × Composer)
  | 0, _, _, _ => none
  | fuel + 1, inBlock, dashes, composer =>
    match composer.tokens with
    | .alias name :: _ => (composer.alias? name).map (·, composer.skip 1)
    | _ => do
      let (properties, composer) ← composer.properties?
      let (node, composer) ← content? fuel inBlock dashes properties composer
      some (node, match properties.anchor with
        | some number => composer.closeAnchor number node
        | none => composer)

/-- Reads what follows the properties of a node. A node with properties may be empty. -/
def content? : Nat → (inBlock dashes : Bool) → Properties → Composer → Option (Node × Composer)
  | 0, _, _, _, _ => none
  | fuel + 1, inBlock, dashes, properties, composer =>
    match composer.tokens, inBlock, dashes with
    | .entry :: _, _, true =>
      (dashItems? fuel composer).map fun (items, composer) => (.sequence items, composer)
    | .scalar style text :: _, _, _ =>
      some (.scalar properties.tag style text, composer.skip 1)
    | .flowSequenceStart :: _, _, _ =>
      (flowItems? fuel true (composer.skip 1)).map fun (items, composer) =>
        (.sequence items, composer)
    | .flowMappingStart :: _, _, _ =>
      (flowPairs? fuel true (composer.skip 1)).map fun (pairs, composer) =>
        (.mapping pairs, composer)
    | .blockSequenceStart :: _, true, _ =>
      (blockItems? fuel (composer.skip 1)).map fun (items, composer) => (.sequence items, composer)
    | .blockMappingStart :: _, true, _ =>
      (blockPairs? fuel (composer.skip 1)).map fun (pairs, composer) => (.mapping pairs, composer)
    | _, _, _ =>
      if properties.anchor.isSome || properties.tag.isSome then
        some (.scalar properties.tag .plain [], composer)
      else none

/-- Reads a node that is empty if one of the given tokens is next. -/
def optional? : Nat → (inBlock dashes : Bool) → List Token → Composer → Option (Node × Composer)
  | 0, _, _, _, _ => none
  | fuel + 1, inBlock, dashes, stops, composer =>
    if composer.isNext stops then some (omitted composer.revision, composer)
    else node? fuel inBlock dashes composer

/-- Reads the value of a pair, which is empty if there is no colon. -/
def pairValue? : Nat → (inBlock : Bool) → List Token → Composer → Option (Node × Composer)
  | 0, _, _, _ => none
  | fuel + 1, inBlock, stops, composer =>
    if composer.isNext [.value] then optional? fuel inBlock inBlock stops (composer.skip 1)
    else some (omitted composer.revision, composer)

/-- Reads the items of a block sequence and its end. -/
def blockItems? : Nat → Composer → Option (List Node × Composer)
  | 0, _ => none
  | fuel + 1, composer =>
    match composer.tokens with
    | .blockEnd :: _ => some ([], composer.skip 1)
    | .entry :: _ => do
      let (item, composer) ← optional? fuel true false [.entry, .blockEnd] (composer.skip 1)
      let (items, composer) ← blockItems? fuel composer
      some (item :: items, composer)
    | _ => none

/-- Reads the items of a sequence that is not indented; it ends where there is no dash. -/
def dashItems? : Nat → Composer → Option (List Node × Composer)
  | 0, _ => none
  | fuel + 1, composer =>
    match composer.tokens with
    | .entry :: _ => do
      let (item, composer) ←
        optional? fuel true false [.entry, .key, .value, .blockEnd] (composer.skip 1)
      let (items, composer) ← dashItems? fuel composer
      some (item :: items, composer)
    | _ => some ([], composer)

/-- Reads the pairs of a block mapping and its end. -/
def blockPairs? : Nat → Composer → Option (List (Node × Node) × Composer)
  | 0, _ => none
  | fuel + 1, composer =>
    let stops := [.key, .value, .blockEnd]
    match composer.tokens, composer.revision with
    | .blockEnd :: _, _ => some ([], composer.skip 1)
    | .key :: _, _ => do
      let (key, composer) ← optional? fuel true true stops (composer.skip 1)
      let (value, composer) ← pairValue? fuel true stops composer
      let (pairs, composer) ← blockPairs? fuel composer
      some ((key, value) :: pairs, composer)
    | .value :: _, .v12 => do
      let (value, composer) ← pairValue? fuel true stops composer
      let (pairs, composer) ← blockPairs? fuel composer
      some ((omitted .v12, value) :: pairs, composer)
    | _, _ => none

/-- Reads the items of a sequence in brackets and the closing bracket. A comma stands in front of
every item but the first, and may stand behind the last one. -/
def flowItems? : Nat → (isFirst : Bool) → Composer → Option (List Node × Composer)
  | 0, _, _ => none
  | fuel + 1, isFirst, composer =>
    match composer.tokens, isFirst with
    | .flowSequenceEnd :: _, _ => some ([], composer.skip 1)
    | .separator :: .flowSequenceEnd :: _, false => some ([], composer.skip 2)
    | .separator :: _, false => flowItem? fuel (composer.skip 1)
    | _, true => flowItem? fuel composer
    | _, false => none

/-- Reads an item of a sequence in brackets and those behind it. A key makes the item a mapping with
a single pair. -/
def flowItem? : Nat → Composer → Option (List Node × Composer)
  | 0, _ => none
  | fuel + 1, composer => do
    let stops := [.separator, .flowSequenceEnd]
    let (item, composer) ←
      if composer.isNext [.key] then do
        let composer := composer.skip 1
        let (key, composer) ←
          -- A key that is left out takes the place of the token behind it.
          if composer.isNext (.value :: stops) then
            some (omitted composer.revision, composer.skip 1)
          else node? fuel false false composer
        let (value, composer) ← pairValue? fuel false stops composer
        some (.mapping [(key, value)], composer)
      else node? fuel false false composer
    let (items, composer) ← flowItems? fuel false composer
    some (item :: items, composer)

/-- Reads the pairs of a mapping in braces and the closing brace. -/
def flowPairs? : Nat → (isFirst : Bool) → Composer → Option (List (Node × Node) × Composer)
  | 0, _, _ => none
  | fuel + 1, isFirst, composer =>
    match composer.tokens, isFirst with
    | .flowMappingEnd :: _, _ => some ([], composer.skip 1)
    | .separator :: .flowMappingEnd :: _, false => some ([], composer.skip 2)
    | .separator :: _, false => flowPair? fuel (composer.skip 1)
    | _, true => flowPair? fuel composer
    | _, false => none

/-- Reads a pair of a mapping in braces and those behind it. A node that is not a key is one without
a value. -/
def flowPair? : Nat → Composer → Option (List (Node × Node) × Composer)
  | 0, _ => none
  | fuel + 1, composer => do
    let stops := [.separator, .flowMappingEnd]
    let (pair, composer) ←
      if composer.isNext [.key] then do
        let (key, composer) ← optional? fuel false false (.value :: stops) (composer.skip 1)
        let (value, composer) ← pairValue? fuel false stops composer
        some ((key, value), composer)
      else if composer.isNext [.value] && composer.revision = .v12 then do
        let (value, composer) ← pairValue? fuel false stops composer
        some ((omitted .v12, value), composer)
      else do
        let (key, composer) ← node? fuel false false composer
        some ((key, omitted composer.revision), composer)
    let (pairs, composer) ← flowPairs? fuel false composer
    some (pair :: pairs, composer)

end

/-! ### Documents -/

/-- Whether the content of a document cannot start with the tokens. -/
def endsDocument : List Token → Bool
  | [] | .directive _ :: _ | .documentStart :: _ | .documentEnd :: _ => true
  | _ => false

def document? (revision : Revision) (handles : List (List Char × List Char))
    (tokens : List Token) : Option (Document × List Token) := do
  let (root, composer) ← node? (6 * tokens.length + 6) true false { revision, tokens, handles }
  let anchored := composer.anchors.filterMap fun anchor =>
    anchor.node.map fun node => (anchor.number, node)
  some (⟨root, anchored⟩, composer.tokens)

/-- Reads a document behind its directives: the mark of its start, and content, which may be left
out. -/
def markedDocument? (revision : Revision) (handles : List (List Char × List Char)) :
    List Token → Option (Document × List Token)
  | .documentStart :: rest =>
    if endsDocument rest then some (⟨omitted revision, []⟩, rest)
    else document? revision handles rest
  | _ => none

/-! ### Documents of the older revision -/

/-- What the tag handles stand for where no directive says otherwise. -/
def defaultHandles : List (List Char × List Char) :=
  [(['!'], ['!']), (['!', '!'], Tag.corePrefix)]

/-- Reads the directives in front of a document. The version must be 1.1 or 1.2; neither it nor a
handle may be given twice. -/
def directives? : List Token → (hasVersion : Bool) → List (List Char × List Char) →
    Option (List (List Char × List Char) × List Token)
  | .directive (.version major minor) :: rest, hasVersion, handles =>
    if !hasVersion && major = 1 && (minor = 1 || minor = 2) then directives? rest true handles
    else none
  | .directive (.tagHandle name meaning) :: rest, hasVersion, handles =>
    if (handles.lookup name).isNone then directives? rest hasVersion ((name, meaning) :: handles)
    else none
  | rest, _, handles => some (handles ++ defaultHandles, rest)

/-- Reads the documents of a text. The first one needs neither a marker nor directives; every later
one starts with a marker. -/
def documents? : Nat → (isFirst : Bool) → List Token → Option (List Document)
  | 0, _, _ => none
  | fuel + 1, isFirst, tokens => do
    let tokens := if isFirst then tokens else tokens.dropWhile (· == .documentEnd)
    if tokens.isEmpty then some []
    else
      let (document, rest) ←
        if isFirst && (!endsDocument tokens || tokens.head? == some .documentEnd) then
          document? .v11 defaultHandles tokens
        else do
          let (handles, rest) ← directives? tokens false []
          markedDocument? .v11 handles rest
      let rest := if rest.head? == some .documentEnd then rest.drop 1 else rest
      let documents ← documents? fuel false rest
      some (document :: documents)

/-! ### Documents of the newer revision -/

/-- Reads the directives in front of a document. The version must not be given twice. Only the last
directive is in force. -/
def lastDirective? : List Token → (hasVersion : Bool) → List (List Char × List Char) →
    Option (List (List Char × List Char) × List Token)
  | .directive (.version _ _) :: rest, hasVersion, _ =>
    if hasVersion then none else lastDirective? rest true []
  | .directive (.tagHandle name meaning) :: rest, hasVersion, _ =>
    lastDirective? rest hasVersion [(name, meaning)]
  | rest, _, handles => some (handles, rest)

/-- Reads the documents of a text. The first one, and one behind the mark of an end, need neither a
marker nor directives; a directive must not follow a document without that mark. -/
def laterDocuments? : Nat → (isOpen : Bool) → List Token → Option (List Document)
  | 0, _, _ => none
  | fuel + 1, isOpen, tokens => do
    let tokens := tokens.dropWhile (· == .documentEnd)
    if tokens.isEmpty then some []
    else
      let (document, rest) ←
        if isOpen && !endsDocument tokens then document? .v12 [] tokens
        else do
          let (handles, rest) ← lastDirective? tokens false []
          markedDocument? .v12 handles rest
      let isOpen := rest.head? == some .documentEnd
      let rest := if isOpen then rest.drop 1 else rest
      let isDirective := match rest with
        | .directive _ :: _ => true
        | _ => false
      if !isOpen && isDirective then none
      else
        let documents ← laterDocuments? fuel isOpen rest
        some (document :: documents)

end Composer

/-- The documents of a text under a revision of the syntax. -/
def parse? (revision : Revision) (text : String) : Option (List Document) := do
  match revision with
  | .v11 =>
    let tokens ← V11.tokens? text.toList
    Composer.documents? (tokens.length + 1) true tokens
  | .v12 =>
    let tokens ← V12.tokens? text.toList
    Composer.laterDocuments? (tokens.length + 1) true tokens

end Turnwise.Yaml
