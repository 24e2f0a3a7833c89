import Turnwise.Error
import Turnwise.Number.Shortest

/-!
# Configuration

What an engine is configured by: the pool and its selection policy, the limits of each worker and of
its batches, the default sampling parameters, and what is observed. Every field has a default.

`Config.validate` says which configurations an engine starts with. It reports the first offending
field in a fixed order.
-/

namespace Turnwise

/-- How the worker for a new session is picked. -/
inductive WorkerSelection where
  /-- The healthy workers take turns. -/
  | roundRobin
  /-- The healthy worker with the fewest sessions, the first of them on a tie. -/
  | leastLoaded
  deriving DecidableEq, Repr, Inhabited

namespace WorkerSelection

def label : WorkerSelection → String
  | roundRobin => "round_robin"
  | leastLoaded => "least_loaded"

def all : List WorkerSelection := [roundRobin, leastLoaded]

end WorkerSelection

/-- The pool of workers and the router in front of it. -/
structure EngineConfig where
  numWorkers : Nat := 2
  selection : WorkerSelection := .roundRobin
  /-- How many requests may wait for the router. -/
  routerQueueSize : Nat := 256
  /-- How long the router waits for a worker's acknowledgement, in milliseconds. -/
  ackTimeoutMs : Nat := 5000
  deriving DecidableEq, Repr, Inhabited

/-- The limits of one tick's batches. -/
structure BatchingConfig where
  maxPrefillTokens : Nat := 512
  maxDecodeSequences : Nat := 32
  /-- How long a worker waits for a command after a tick that did nothing, in milliseconds. -/
  idleBackoffMs : Nat := 2
  deriving DecidableEq, Repr, Inhabited

/-- The limits of one worker. -/
structure WorkerConfig where
  maxSessions : Nat := 64
  commandQueueSize : Nat := 128
  /-- How many events a stream buffers, the terminal one included. -/
  streamBufferSize : Nat := 64
  batching : BatchingConfig := {}
  deriving DecidableEq, Repr, Inhabited

/-- How the next token of a session is picked. -/
structure SamplingConfig where
  /-- Zero or less picks the most likely token; larger values flatten the distribution. -/
  temperature : Float32 := 0.0
  /-- How many of the most likely tokens are considered; zero considers all. -/
  topK : Nat := 40
  /-- The share of the probability that the considered tokens must reach; one considers all. -/
  topP : Float32 := 0.95
  /-- Where the session's random numbers start. -/
  seed : Option UInt64 := none
  deriving DecidableEq, Repr, Inhabited

structure ObservabilityConfig where
  logLevel : String := "info"
  enableMetrics : Bool := true
  deriving DecidableEq, Repr, Inhabited

/-- The configuration of an engine. -/
structure Config where
  engine : EngineConfig := {}
  worker : WorkerConfig := {}
  sampling : SamplingConfig := {}
  observability : ObservabilityConfig := {}
  deriving DecidableEq, Repr, Inhabited

/-- Why nothing can be read at a path. -/
inductive ReadFault where
  | missing
  | notDirectory
  | isDirectory
  | nameTooLong
  | nullInPath
  deriving DecidableEq, Repr

/-- The text of a fault, with its number if the operating system reports it. -/
def ReadFault.message : ReadFault → String
  | missing => "No such file or directory (os error 2)"
  | notDirectory => "Not a directory (os error 20)"
  | isDirectory => "Is a directory (os error 21)"
  | nameTooLong => "File name too long (os error 36)"
  | nullInPath => "file name contained an unexpected NUL byte"

/-- What is found where a configuration file is looked for. -/
inductive ConfigFile where
  | text (value : String)
  /-- Something else that can be read like a file, with the text that it yields. -/
  | device (value : String)
  | unreadable (fault : ReadFault)
  deriving DecidableEq, Repr

/-! ### Validation -/

/-- The temperature must be finite and not negative, and the share of the probability must lie in
`(0, 1]`. -/
def SamplingConfig.validate (sampling : SamplingConfig) : Except Error Unit := do
  if !sampling.temperature.isFinite || sampling.temperature < 0 then
    throw <| .config
      s!"temperature must be a non-negative number, got {singleText sampling.temperature}"
  if !(0 < sampling.topP && sampling.topP ≤ 1) then
    throw <| .config s!"top_p must be in (0, 1], got {singleText sampling.topP}"

def requireAtLeast (field : String) (least value : Nat) : Except Error Unit :=
  if value < least then throw <| .config s!"{field} must be at least {least}" else pure ()

/-- Reports the first field that is out of range. A stream needs room for two events, because one
place is always kept for the terminal event; slots are numbered in 32 bits. -/
def Config.validate (config : Config) : Except Error Unit := do
  requireAtLeast "num_workers" 1 config.engine.numWorkers
  requireAtLeast "router_queue_size" 1 config.engine.routerQueueSize
  requireAtLeast "max_sessions" 1 config.worker.maxSessions
  if UInt32.size ≤ config.worker.maxSessions then
    throw <| .config "max_sessions exceeds slot id range"
  requireAtLeast "command_queue_size" 1 config.worker.commandQueueSize
  requireAtLeast "stream_buffer_size" 2 config.worker.streamBufferSize
  requireAtLeast "max_prefill_tokens" 1 config.worker.batching.maxPrefillTokens
  requireAtLeast "max_decode_sequences" 1 config.worker.batching.maxDecodeSequences
  config.sampling.validate

end Turnwise
