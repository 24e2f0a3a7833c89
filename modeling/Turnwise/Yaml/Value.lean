import Turnwise.Yaml.Node

/-!
# Values of the newer revision

What the nodes of a document denote where nothing is known of the types that are wanted: a plain
scalar without a tag denotes what its text looks like, one with the tag of a core type denotes a
value of that type, and any other scalar denotes its text.

A scalar that is not of the type that its tag names denotes nothing (`Value.lost`), and so does a
collection inside itself. Where that happens in the place of a key, the node behind it becomes the
key.
-/

namespace Turnwise.Yaml

/-- What a node denotes. -/
inductive Value where
  | null
  | flag (value : Bool)
  | integer (value : Int)
  /-- A floating-point number, as it is written. -/
  | real (text : List Char)
  | text (value : List Char)
  | sequence (items : List Value)
  | mapping (pairs : List (Value × Value))
  /-- Nothing at all. -/
  | lost
  deriving Inhabited

namespace Value

/-! ### Sameness -/

mutual

/-- Whether two values are the same. Floating-point numbers are compared as they are written. -/
def isSame : Value → Value → Bool
  | null, null => true
  | flag a, flag b => a == b
  | integer a, integer b => a == b
  | real a, real b => a == b
  | text a, text b => a == b
  | sequence as, sequence bs => areSame as bs
  | mapping as, mapping bs => arePairsSame as bs
  | _, _ => false

/-- Whether two lists of values are the same. -/
def areSame : List Value → List Value → Bool
  | [], [] => true
  | a :: as, b :: bs => isSame a b && areSame as bs
  | _, _ => false

/-- Whether two lists of pairs are the same. -/
def arePairsSame : List (Value × Value) → List (Value × Value) → Bool
  | [], [] => true
  | (a, a') :: as, (b, b') :: bs => isSame a b && isSame a' b' && arePairsSame as bs
  | _, _ => false

end

/-! ### Scalars -/

/-- Whether an integer fits into 64 bits with a sign. -/
def isWord (n : Int) : Bool := Int64.minValue.toInt ≤ n && n ≤ Int64.maxValue.toInt

/-- The integer of 64 bits that a text is. -/
def readWord? (base : Nat) (text : List Char) : Option Int := (readInteger? base text).filter isWord

/-- The integer that a plain scalar is: a decimal one, or one behind a mark for its base or behind a
plus sign. -/
def markedInteger? (text : List Char) : Option Int :=
  let marked := match text with
    | '0' :: 'x' :: digits => readWord? 16 digits
    | '0' :: 'o' :: digits => readWord? 8 digits
    | '+' :: digits => readWord? 10 digits
    | _ => none
  marked <|> readWord? 10 text

/-- Whether a text is a numeral, or one of the names of infinity and of what is not a number that
start with a point. -/
def isReal (text : List Char) : Bool :=
  let names := [".inf", ".Inf", ".INF", "+.inf", "+.Inf", "+.INF", "-.inf", "-.Inf", "-.INF",
    ".nan", ".NAN"]
  names.contains (String.ofList text) || (Numeral.read? text).isSome

/-- The truth value that a text is. -/
def readFlag? (text : List Char) : Option Bool :=
  if text = "true".toList then some true
  else if text = "false".toList then some false
  else none

/-- Whether a text says that there is no value. -/
def isNull (text : List Char) : Bool := text = ['~'] || text = "null".toList

/-- What a plain scalar without a tag denotes. -/
def ofPlain (content : List Char) : Value :=
  match markedInteger? content, readFlag? content with
  | some n, _ => integer n
  | none, some b => flag b
  | none, none =>
    if isNull content then null else if isReal content then real content else text content

/-- What a plain scalar with a tag denotes. The tag of a core type must be given in the two parts
that its handle makes. -/
def ofTagged (tag : Tag) (content : List Char) : Value :=
  if tag.handle != Tag.corePrefix then text content
  else match String.ofList tag.suffix with
    | "bool" => ((readFlag? content).map flag).getD lost
    | "int" => ((readWord? 10 content).map integer).getD lost
    | "float" => if isReal content then real content else lost
    | "null" => if isNull content then null else lost
    | _ => text content

def ofScalar : Option Tag → ScalarStyle → List Char → Value
  | none, .plain, content => ofPlain content
  | some tag, .plain, content => ofTagged tag content
  | _, _, content => text content

/-! ### Nodes -/

/-- Makes pairs of the values that stand in a mapping, keys and values by turns, given the keys in
front of them. No key must be there twice. -/
def pairUp? (seen : List Value) : List Value → Option (List (Value × Value))
  | lost :: rest => pairUp? seen rest
  | key :: value :: rest =>
    if seen.any (isSame key) then none
    else (pairUp? (key :: seen) rest).map ((key, value) :: ·)
  | _ => some []

mutual

/-- What a node denotes. -/
def ofNode? : Node → Option Value
  | .scalar tag style content => some (ofScalar tag style content)
  | .sequence items => (ofNodes? items).map sequence
  | .mapping pairs => do some (mapping (← pairUp? [] (← ofPairs? pairs)))
  | .enclosing _ => some lost

/-- What the items of a sequence denote. -/
def ofNodes? : List Node → Option (List Value)
  | [] => some []
  | node :: rest => do some ((← ofNode? node) :: (← ofNodes? rest))

/-- What the keys and values of a mapping denote, by turns. -/
def ofPairs? : List (Node × Node) → Option (List Value)
  | [] => some []
  | (key, value) :: rest => do
    some ((← ofNode? key) :: (← ofNode? value) :: (← ofPairs? rest))

end

end Value

end Turnwise.Yaml
