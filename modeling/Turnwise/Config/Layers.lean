import Turnwise.Config.Setting

/-!
# Layered configuration

A configuration from several sources, each laid over those before it: the defaults, a file, and the
environment.

A file is a YAML document whose root is a mapping. An environment variable counts if its name
starts with the mark of the program; two underscores separate the names of a section and of a field.
Neither source knows the fields: what remains unread is ignored, and what is read is converted to
the field's type if it can be.
-/

namespace Turnwise

namespace Config

/-! ### Sources -/

/-- The entries of a configuration file. A text without a document has none. -/
def fileEntries? (text : String) : Option (List (String × Setting)) := do
  match ← Yaml.parse? .v12 text with
  | [] => some []
  | [document] =>
    match ← Setting.ofValue? (← Yaml.Value.ofNode? document.root) with
    | .table entries => some entries
    | _ => none
  | _ => none

/-- What the name of a variable that counts starts with, in lower case. -/
def variableMark : List Char := "seqloop__".toList

/-- A name with points for every two underscores. -/
def dotted : List Char → List Char
  | '_' :: '_' :: rest => '.' :: dotted rest
  | c :: rest => c :: dotted rest
  | [] => []

def variableEntry? (name value : String) : Option (String × Setting) :=
  let name := (lowerName name).toList
  if variableMark.isPrefixOf name then
    some (String.ofList (dotted (name.drop variableMark.length)), Setting.ofVariable value)
  else none

def variableEntries (environment : List (String × String)) : List (String × Setting) :=
  environment.filterMap fun (name, value) => variableEntry? name value

/-! ### Sections -/

/-- Reads an optional field of a section, given by name and position. -/
def pick? (fields : String → Nat → Option Setting) (name : String) (position : Nat) (default : α)
    (read : Setting → Option α) : Option α :=
  match fields name position with
  | none => some default
  | some setting => read setting

def engineOf? (setting : Setting) : Option EngineConfig := do
  let fields ← setting.field?
  let d : EngineConfig := {}
  some
    { numWorkers := ← pick? fields "num_workers" 0 d.numWorkers Setting.natural?
      selection := ← pick? fields "selection" 1 d.selection Setting.selection?
      routerQueueSize := ← pick? fields "router_queue_size" 2 d.routerQueueSize Setting.natural?
      ackTimeoutMs := ← pick? fields "ack_timeout_ms" 3 d.ackTimeoutMs Setting.natural? }

def batchingOf? (setting : Setting) : Option BatchingConfig := do
  let fields ← setting.field?
  let d : BatchingConfig := {}
  some
    { maxPrefillTokens := ← pick? fields "max_prefill_tokens" 0 d.maxPrefillTokens Setting.natural?
      maxDecodeSequences :=
        ← pick? fields "max_decode_sequences" 1 d.maxDecodeSequences Setting.natural?
      idleBackoffMs := ← pick? fields "idle_backoff_ms" 2 d.idleBackoffMs Setting.natural? }

def workerOf? (setting : Setting) : Option WorkerConfig := do
  let fields ← setting.field?
  let d : WorkerConfig := {}
  some
    { maxSessions := ← pick? fields "max_sessions" 0 d.maxSessions Setting.natural?
      commandQueueSize := ← pick? fields "command_queue_size" 1 d.commandQueueSize Setting.natural?
      streamBufferSize := ← pick? fields "stream_buffer_size" 2 d.streamBufferSize Setting.natural?
      batching := ← pick? fields "batching" 3 d.batching batchingOf? }

def samplingOf? (setting : Setting) : Option SamplingConfig := do
  let fields ← setting.field?
  let d : SamplingConfig := {}
  some
    { temperature := ← pick? fields "temperature" 0 d.temperature Setting.single?
      topK := ← pick? fields "top_k" 1 d.topK Setting.natural?
      topP := ← pick? fields "top_p" 2 d.topP Setting.single?
      seed := ← pick? fields "seed" 3 d.seed Setting.seed? }

def observabilityOf? (setting : Setting) : Option ObservabilityConfig := do
  let fields ← setting.field?
  let d : ObservabilityConfig := {}
  some
    { logLevel := ← pick? fields "log_level" 0 d.logLevel Setting.text?
      enableMetrics := ← pick? fields "enable_metrics" 1 d.enableMetrics Setting.flag? }

/-- The configuration that a table of settings amounts to. -/
def ofSetting? (setting : Setting) : Option Config := do
  let fields ← setting.field?
  let d : Config := {}
  some
    { engine := ← pick? fields "engine" 0 d.engine engineOf?
      worker := ← pick? fields "worker" 1 d.worker workerOf?
      sampling := ← pick? fields "sampling" 2 d.sampling samplingOf?
      observability := ← pick? fields "observability" 3 d.observability observabilityOf? }

/-! ### Loading -/

/-- The entries of the file that is asked for, which must exist and be a file. Without a file there
are none. -/
def sourceEntries? : Option ConfigFile → Option (List (String × Setting))
  | none => some []
  | some (.text value) => fileEntries? value
  | some _ => none

/-- Lays the sources over each other and reads the result, without looking at its ranges. -/
def layered? (file : Option ConfigFile) (environment : List (String × String)) :
    Option Config := do
  let entries ← sourceEntries? file
  ofSetting? (((Setting.ofConfig {}).overlay entries).overlay (variableEntries environment))

/-- Loads a configuration that an engine can start with. -/
def load (file : Option ConfigFile) (environment : List (String × String)) :
    Except Error Config := do
  match layered? file environment with
  | none => throw (.config "the sources do not make up a configuration")
  | some config =>
    config.validate
    pure config

end Config

end Turnwise
