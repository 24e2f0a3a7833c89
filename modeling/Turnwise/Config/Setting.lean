import Turnwise.Config.Basic
import Turnwise.Number.Binary
import Turnwise.Yaml.Value

/-!
# Settings

Values from sources that know nothing of the types they will be read as: configuration files and
environment variables.

Tables can be laid over each other (`Setting.assign`): a table adds its entries to what is there,
anything else replaces it. Names of entries do not depend on case. A name may be a path
(`pathOf`): names of entries of tables, and numbers of items of lists.

Reading is lenient. A value that has the form of another type is converted: a text to the number or
the truth value that it names, a floating-point number to the nearest natural number, a number to
its text.
-/

namespace Turnwise

/-- A value of a type that its source gives it. -/
inductive Setting where
  | absent
  | flag (value : Bool)
  | integer (value : Int)
  | real (value : Float)
  | text (value : String)
  | list (items : List Setting)
  | table (entries : List (String × Setting))
  deriving Inhabited

/-! ### Names -/

/-- The lower case of a character, as far as it makes letters of the Latin alphabet: besides their
upper case, the sign for kelvin becomes one. -/
def lowerChar (c : Char) : Char := if c = '\u212a' then 'k' else c.toLower

/-- The name that stands for a name in any case. -/
def lowerName (name : String) : String := String.ofList (name.toList.map lowerChar)

/-- Whether a character may stand in a name that is part of a path. -/
def isPathChar (c : Char) : Bool := c.isAlphanum || c = '_' || c = '-' || c = ' '

inductive Step where
  /-- To the entry of a table. -/
  | entry (name : String)
  /-- To an item of a list; a negative number counts from the end. -/
  | item (index : Int)
  deriving DecidableEq, Repr

/-- Reads the number of an item up to the closing bracket. Blanks may surround it. -/
def readIndex? (text : List Char) : Option (Int × List Char) :=
  let isBlank (c : Char) : Bool := c = ' ' || c = '\t'
  let number := (text.dropWhile isBlank).takeWhile fun c => c = '-' || c.isDigit
  match ((text.dropWhile isBlank).drop number.length).dropWhile isBlank with
  | ']' :: rest =>
      ((readInteger? 10 number).filter fun n => n.natAbs < 0x8000000000000000).map (·, rest)
  | _ => none

/-- The steps behind the first one of a path, in at most `fuel` steps: names behind points, and
numbers in brackets. -/
def stepsOf? : Nat → List Char → Option (List Step)
  | _, [] => some []
  | fuel + 1, '.' :: rest =>
    let name := rest.takeWhile isPathChar
    if name.isEmpty then none
    else (stepsOf? fuel (rest.drop name.length)).map (.entry (String.ofList name) :: ·)
  | fuel + 1, '[' :: rest => do
    let (index, rest) ← readIndex? rest
    (stepsOf? fuel rest).map (.item index :: ·)
  | _, _ => none

/-- The path that a name spells; a name that spells none stands for itself. -/
def pathOf (name : String) : List Step :=
  let text := name.toList
  let first := text.takeWhile isPathChar
  match stepsOf? text.length (text.drop first.length) with
  | some steps => if first.isEmpty then [.entry name] else .entry (String.ofList first) :: steps
  | none => [.entry name]

namespace Setting

/-! ### Tables -/

def entry? (name : String) : Setting → Option Setting
  | table entries => entries.lookup name
  | _ => none

/-- Replaces or adds an entry. What is no table becomes one. -/
def put (target : Setting) (name : String) (value : Setting) : Setting :=
  match target with
  | table entries =>
    if (entries.lookup name).isSome then
      table (entries.map fun entry => if entry.1 == name then (name, value) else entry)
    else table (entries ++ [(name, value)])
  | _ => table [(name, value)]

/-- The entry under a name, or an empty table. -/
def child (target : Setting) (name : String) : Setting :=
  (target.entry? name).getD (table [])

mutual

/-- Lays a value over the entry of a table under a name. -/
def assign (target : Setting) (name : String) : Setting → Setting
  | table entries =>
    target.put (lowerName name) (assignAll (target.child (lowerName name)) entries)
  | value => target.put (lowerName name) value

/-- Lays entries over those of a table, one after the other. -/
def assignAll (target : Setting) : List (String × Setting) → Setting
  | [] => target
  | (name, value) :: rest => assignAll (assign target name value) rest

end

/-- Replaces an item of a list, which grows as far as needed. What is no list becomes one. There is
no item in front of the first one. -/
def putItem (target : Setting) (index : Int) (value : Setting) : Setting :=
  let items := match target with
    | list items => items
    | _ => []
  let place := if index < 0 then items.length + index else index
  if place < 0 then target
  else
    let more := List.replicate (place.toNat + 1 - items.length) absent
    list ((items ++ more).set place.toNat value)

def item (target : Setting) (index : Int) : Setting :=
  match target with
  | list items =>
    let place := if index < 0 then items.length + index else index
    if place < 0 then absent else items.getD place.toNat absent
  | _ => absent

/-- Changes what a path leads to. Tables and lists that are missing on the way are made, but a path
does not lead through the entries of anything but a table. -/
def changeAt? (change : Setting → Setting) : List Step → Setting → Option Setting
  | [], target => some (change target)
  | .entry name :: path, target => do
    let name := lowerName name
    let entry ← match target with
      | table _ => some ((target.entry? name).getD absent)
      | absent => some absent
      | _ => none
    some (target.put name (← changeAt? change path entry))
  | .item index :: path, target => do
    some (target.putItem index (← changeAt? change path (target.item index)))

/-- Lays a value over what a path leads to, if it leads anywhere. -/
def assignAt (target : Setting) (value : Setting) (path : List Step) : Setting :=
  let change (parent : Setting) : Setting :=
    match path.getLast? with
    | some (.entry name) => parent.assign name value
    | some (.item index) => parent.putItem index value
    | none => parent
  (changeAt? change path.dropLast target).getD target

/-- Lays a source's entries over a table. Their names are paths. -/
def overlay (target : Setting) (source : List (String × Setting)) : Setting :=
  source.foldl (fun target (name, value) => target.assignAt value (pathOf name)) target

/-! ### Sources -/

/-- The value of an environment variable: a truth value, an integer or another number if the text is
one, and else the text. -/
def ofVariable (value : String) : Setting :=
  let text := value.toList
  let word := text.map Char.toLower
  if word = "true".toList then flag true
  else if word = "false".toList then flag false
  else match Yaml.Value.readWord? 10 text with
    | some n => integer n
    | none => match Numeral.read? text with
      | some x => real x.toDouble
      | none => .text value

/-- The name of an entry with a given key: texts and integers name entries. -/
def keyName? : Yaml.Value → Option String
  | .text value => some (String.ofList value)
  | .integer value => some (toString value)
  | _ => none

mutual

/-- A value from a file. The names of infinity and of what is not a number that start with a point
are no numerals and are refused, and so are keys that name nothing. -/
def ofValue? : Yaml.Value → Option Setting
  | .null | .lost => some absent
  | .flag value => some (flag value)
  | .integer value => some (integer value)
  | .real content => (Numeral.read? content).map fun x => real x.toDouble
  | .text content => some (text (String.ofList content))
  | .sequence items => (ofValues? items).map list
  | .mapping pairs => ofPairs? (table []) pairs

def ofValues? : List Yaml.Value → Option (List Setting)
  | [] => some []
  | value :: rest => do some ((← ofValue? value) :: (← ofValues? rest))

/-- The entries of a mapping, added to those of a table. -/
def ofPairs? (target : Setting) : List (Yaml.Value × Yaml.Value) → Option Setting
  | [] => some target
  | (key, value) :: rest => do
    let name ← keyName? key
    let value ← ofValue? value
    ofPairs? (target.put name value) rest

end

/-! ### Defaults -/

/-- A seed, which may be absent. -/
def ofSeed (seed : Option UInt64) : Setting :=
  (seed.map fun n => integer n.toNat).getD absent

/-- A configuration as a table of sections. -/
def ofConfig (config : Config) : Setting :=
  let natural (n : Nat) : Setting := integer n
  table [
    ("engine", table [
      ("num_workers", natural config.engine.numWorkers),
      ("selection", text config.engine.selection.label),
      ("router_queue_size", natural config.engine.routerQueueSize),
      ("ack_timeout_ms", natural config.engine.ackTimeoutMs)]),
    ("worker", table [
      ("max_sessions", natural config.worker.maxSessions),
      ("command_queue_size", natural config.worker.commandQueueSize),
      ("stream_buffer_size", natural config.worker.streamBufferSize),
      ("batching", table [
        ("max_prefill_tokens", natural config.worker.batching.maxPrefillTokens),
        ("max_decode_sequences", natural config.worker.batching.maxDecodeSequences),
        ("idle_backoff_ms", natural config.worker.batching.idleBackoffMs)])]),
    ("sampling", table [
      ("temperature", real (widen config.sampling.temperature)),
      ("top_k", natural config.sampling.topK),
      ("top_p", real (widen config.sampling.topP)),
      ("seed", ofSeed config.sampling.seed)]),
    ("observability", table [
      ("log_level", text config.observability.logLevel),
      ("enable_metrics", flag config.observability.enableMetrics)])]

/-! ### Reading -/

/-- The truth value that a text names, in any case. -/
def namedFlag? (value : String) : Option Bool :=
  let word := String.ofList (value.toList.map Char.toLower)
  if ["true", "on", "yes"].contains word then some true
  else if ["false", "off", "no"].contains word then some false
  else none

/-- The natural number of 64 bits nearest to a floating-point number; a half goes up. -/
def nearestNatural (x : Float) : Nat :=
  match BinaryParts.ofDouble x with
  | .nan => 0
  | .infinite negative => if negative then 0 else UInt64.size - 1
  | .finite true _ => 0
  | .finite false v =>
    let places := v.exponent.natAbs
    let whole :=
      if 0 ≤ v.exponent then v.significand <<< places
      else (2 * v.significand + (1 <<< places)) >>> (places + 1)
    min whole (UInt64.size - 1)

def natural? : Setting → Option Nat
  | flag value => some value.toNat
  | integer value => if value < 0 then none else some value.toNat
  | real value => some (nearestNatural value)
  | text value =>
    match namedFlag? value with
    | some b => some b.toNat
    | none =>
      let digits := match value.toList with
        | '+' :: rest => rest
        | rest => rest
      (readNatural? 10 digits).filter (· < UInt64.size)
  | _ => none

def double? : Setting → Option Float
  | flag value => some (if value then 1 else 0)
  | integer value => some (Numeral.finite (value < 0) ⟨value.natAbs, 0⟩).toDouble
  | real value => some value
  | text value =>
    match namedFlag? value with
    | some b => some (if b then 1 else 0)
    | none => (Numeral.read? value.toList).map Numeral.toDouble
  | _ => none

def single? (setting : Setting) : Option Float32 := setting.double?.map narrow

/-- Reads a truth value. Every number but zero is true. -/
def flag? : Setting → Option Bool
  | flag value => some value
  | integer value => some (value != 0)
  | real value => some (value != 0)
  | text value =>
    if value = "1" then some true else if value = "0" then some false else namedFlag? value
  | _ => none

def text? : Setting → Option String
  | flag value => some (if value then "true" else "false")
  | integer value => some (toString value)
  | real value => some (doubleText value)
  | text value => some value
  | _ => none

def seed? : Setting → Option (Option UInt64)
  | absent => some none
  | setting => setting.natural?.map fun n => some n.toUInt64

/-- Reads a selection policy: its name in any case, as a text or as the only entry of a table. -/
def selection? (setting : Setting) : Option WorkerSelection := do
  let name ← match setting with
    | text value => some value
    | table [(name, _)] => some name
    | _ => none
  WorkerSelection.all.find? (·.label == lowerName name)

/-- The fields of a section: by name in a table, by position in a list. -/
def field? (setting : Setting) : Option (String → Nat → Option Setting) :=
  match setting with
  | table entries => some fun name _ => entries.lookup name
  | list items => some fun _ position => items[position]?
  | _ => none

end Setting

end Turnwise
