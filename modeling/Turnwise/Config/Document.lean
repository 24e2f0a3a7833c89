import Turnwise.Config.Basic
import Turnwise.Number.Binary
import Turnwise.Yaml.Node

/-!
# Configuration documents

Reading a configuration from a YAML document, strictly: every field must be written as a value of
its own type. A number in quotes is a text and no number.

A section is a mapping. Fields that it lacks take their defaults, fields that it does not know are
ignored whatever they hold, and a known field must not be given twice. A section that is left empty
has no fields; the same holds of a whole text without a document.
-/

namespace Turnwise

open Yaml (Document Node)

/-! ### Values -/

/-- What an unsigned number is written as: a sign `+` at most, and digits, either decimal ones
without superfluous zeros, or hexadecimal, octal or binary ones behind their marks. -/
def readUnsigned? (text : List Char) : Option Nat := do
  let body := match text with
    | '+' :: rest => rest
    | _ => text
  let value ← match body with
    | '0' :: 'x' :: digits => readNatural? 16 digits
    | '0' :: 'o' :: digits => readNatural? 8 digits
    | '0' :: 'b' :: digits => readNatural? 2 digits
    | ['0'] => some 0
    | '0' :: _ => none
    | digits => readNatural? 10 digits
  if value < UInt64.size then some value else none

/-- What a floating-point number is written as: a numeral that denotes a finite value, or one of the
names of infinity and of what is not a number, which start with a point. -/
def readDouble? (text : List Char) : Option Float :=
  let body? := match text with
    | '+' :: '+' :: _ | '+' :: '-' :: _ => none
    | '+' :: rest => some rest
    | _ => some text
  let infinities := [".inf", ".Inf", ".INF"].map String.toList
  if [".nan", ".NaN", ".NAN"].contains (String.ofList text) then some Numeral.nan.toDouble
  else if text.head? == some '-' && infinities.contains (text.drop 1) then
    some (Numeral.infinite true).toDouble
  else do
    let body ← body?
    if infinities.contains body then some (Numeral.infinite false).toDouble
    else
      let value := (← Numeral.read? body).toDouble
      if value.isFinite then some value else none

/-- What a truth value is written as. -/
def readFlag? (text : List Char) : Option Bool :=
  if ["true", "True", "TRUE"].contains (String.ofList text) then some true
  else if ["false", "False", "FALSE"].contains (String.ofList text) then some false
  else none

/-- Whether a plain text says that there is no value. -/
def isNullWord (text : List Char) : Bool :=
  ["~", "null", "Null", "NULL"].contains (String.ofList text)

namespace Yaml.Node

/-- The text of a scalar that may denote a value of the given core type: a plain one, or a literal
block that bears the tag of the type. -/
def typedText? (type : String) : Node → Option (List Char)
  | scalar _ .plain text => some text
  | scalar tag .literal text => if tag.any (·.isCore type) then some text else none
  | _ => none

/-- An unsigned number of 64 bits. -/
def natural? (node : Node) : Option Nat := (node.typedText? "int").bind readUnsigned?

/-- A 32-bit floating-point number, rounded from 64 bits. -/
def single? (node : Node) : Option Float32 :=
  ((node.typedText? "float").bind readDouble?).map narrow

def flag? (node : Node) : Option Bool := (node.typedText? "bool").bind readFlag?

/-- A text: any scalar, however it is written. -/
def text? : Node → Option String
  | scalar _ _ text => some (String.ofList text)
  | _ => none

/-- A seed, or a word for its absence, or nothing. -/
def seed? (node : Node) : Option (Option UInt64) :=
  let given := node.natural?.map fun n => some n.toUInt64
  match node with
  | scalar none .plain text => if text.isEmpty || isNullWord text then some none else given
  | scalar (some tag) .plain text =>
    if tag.isCore "null" then (if isNullWord text then some none else none) else given
  | _ => given

def policy? (name : List Char) : Option WorkerSelection :=
  WorkerSelection.all.find? (·.label.toList == name)

/-- A selection policy: its name as a text, or as a tag on an absent value. -/
def selection? : Node → Option WorkerSelection
  | scalar tag style text =>
    match tag.map (·.text) with
    | some ('!' :: name) => do
      let policy ← policy? name
      if style = .plain && (text.isEmpty || isNullWord text) then some policy else none
    | _ => policy? text
  | _ => none

/-- The fields of a section. Their names must be scalars. -/
def fields? (document : Document) (node : Node) : Option (List (List Char × Node)) :=
  match document.follow node with
  | mapping pairs => pairs.mapM fun
    | (scalar _ _ name, value) => some (name, value)
    | _ => none
  | scalar _ .plain [] => some []
  | _ => none

end Yaml.Node

/-! ### Sections -/

/-- Reads a field, which takes its default if it is absent and must not be there twice. -/
def readField? (fields : List (List Char × Node)) (name : String) (default : α)
    (read : Node → Option α) : Option α :=
  match fields.filter (·.1 == name.toList) with
  | [] => some default
  | [(_, node)] => read node
  | _ => none

namespace Config

def readEngine? (document : Document) (node : Node) : Option EngineConfig := do
  let fields ← node.fields? document
  let d : EngineConfig := {}
  some
    { numWorkers := ← readField? fields "num_workers" d.numWorkers Node.natural?
      selection := ← readField? fields "selection" d.selection Node.selection?
      routerQueueSize := ← readField? fields "router_queue_size" d.routerQueueSize Node.natural?
      ackTimeoutMs := ← readField? fields "ack_timeout_ms" d.ackTimeoutMs Node.natural? }

def readBatching? (document : Document) (node : Node) : Option BatchingConfig := do
  let fields ← node.fields? document
  let d : BatchingConfig := {}
  some
    { maxPrefillTokens := ← readField? fields "max_prefill_tokens" d.maxPrefillTokens Node.natural?
      maxDecodeSequences :=
        ← readField? fields "max_decode_sequences" d.maxDecodeSequences Node.natural?
      idleBackoffMs := ← readField? fields "idle_backoff_ms" d.idleBackoffMs Node.natural? }

def readWorker? (document : Document) (node : Node) : Option WorkerConfig := do
  let fields ← node.fields? document
  let d : WorkerConfig := {}
  some
    { maxSessions := ← readField? fields "max_sessions" d.maxSessions Node.natural?
      commandQueueSize := ← readField? fields "command_queue_size" d.commandQueueSize Node.natural?
      streamBufferSize := ← readField? fields "stream_buffer_size" d.streamBufferSize Node.natural?
      batching := ← readField? fields "batching" d.batching (readBatching? document) }

def readSampling? (document : Document) (node : Node) : Option SamplingConfig := do
  let fields ← node.fields? document
  let d : SamplingConfig := {}
  some
    { temperature := ← readField? fields "temperature" d.temperature Node.single?
      topK := ← readField? fields "top_k" d.topK Node.natural?
      topP := ← readField? fields "top_p" d.topP Node.single?
      seed := ← readField? fields "seed" d.seed Node.seed? }

def readObservability? (document : Document) (node : Node) : Option ObservabilityConfig := do
  let fields ← node.fields? document
  let d : ObservabilityConfig := {}
  some
    { logLevel := ← readField? fields "log_level" d.logLevel Node.text?
      enableMetrics := ← readField? fields "enable_metrics" d.enableMetrics Node.flag? }

def ofDocument? (document : Document) : Option Config := do
  let fields ← document.root.fields? document
  let d : Config := {}
  some
    { engine := ← readField? fields "engine" d.engine (readEngine? document)
      worker := ← readField? fields "worker" d.worker (readWorker? document)
      sampling := ← readField? fields "sampling" d.sampling (readSampling? document)
      observability :=
        ← readField? fields "observability" d.observability (readObservability? document) }

/-- Reads a text of at most one document as a configuration, without looking at its ranges. -/
def parse? (text : String) : Option Config := do
  match ← Yaml.parse? .v11 text with
  | [] => some {}
  | [document] => ofDocument? document
  | _ => none

/-- Reads a text as a configuration that an engine can start with. -/
def ofText (text : String) : Except Error Config := do
  match parse? text with
  | none => throw (.yaml "the text is not a configuration")
  | some config =>
    config.validate
    pure config

/-- Reads what is found at a path as a configuration that an engine can start with. -/
def ofFile (path : String) : ConfigFile → Except Error Config
  | .text value | .device value => ofText value
  | .unreadable fault => throw (.config s!"Failed to read config file {path}: {fault.message}")

end Config

end Turnwise
