import Turnwise.Router

/-!
# The engine

What callers hold: a router in front of hosted workers, and the sampling parameters that sessions
get unless they bring their own. After a shutdown every request is refused.
-/

namespace Turnwise

/-- A running or stopped engine. -/
structure Engine (b : Backend) where
  front : Front (Pool b)
  defaultSampling : SamplingConfig
  running : Bool := true

namespace Engine

variable {b : Backend}

/-- The hosts of a pool, in order, each with a context of its own. -/
def startHosts (b : Backend) (config : Config) (crashesOn : Batch → Bool) (callMs : Nat) :
    List Nat → Except Error (List (Host b))
  | [] => .ok []
  | index :: rest => do
      let context ← b.newContext config.worker.maxSessions
      let hosts ← startHosts b config crashesOn callMs rest
      pure
        ({ worker := .start ⟨index⟩ context config.worker
           ackTimeoutMs := config.engine.ackTimeoutMs
           crashesOn
           callMs } :: hosts)

/-- Starts the workers that a configuration asks for. The configuration must be valid, and every
worker must get its context. -/
def start (b : Backend) (config : Config) (crashesOn : Batch → Bool := fun _ => false)
    (callMs : Nat := 0) : Except Error (Engine b) := do
  config.validate
  let hosts ← startHosts b config crashesOn callMs (List.range config.engine.numWorkers)
  pure
    { front := { router := .ofWorkers (hosts.map Host.id) config, pool := { hosts } }
      defaultSampling := config.sampling }

/-- The refusal of a stopped engine. -/
def hasShutDown : Error := .workerUnavailable "engine has shut down"

/-- Makes a request to the router, unless the engine has stopped. -/
def call (e : Engine b) (request : Front (Pool b) → Except Error α × Front (Pool b)) :
    Except Error α × Engine b :=
  if e.running then
    let (answer, front) := request e.front
    (answer, { e with front })
  else (.error hasShutDown, e)

/-- Creates a session with sampling parameters of its own, which must be valid. -/
def createSessionWith (e : Engine b) (sampling : Sampling) :
    Except Error SessionId × Engine b :=
  match sampling.validate with
  | .error refusal => (.error refusal, e)
  | .ok () => e.call fun f => f.createSession Pool.clients sampling

/-- Creates a session with the engine's sampling parameters. -/
def createSession (e : Engine b) (unseeded : ChaCha.Generator := .ofSeed 0) :
    Except Error SessionId × Engine b :=
  e.createSessionWith { e.defaultSampling with unseeded }

def appendInput (e : Engine b) (id : SessionId) (text : String) : Except Error Nat × Engine b :=
  e.call fun f => f.appendInput Pool.clients id text

def generate (e : Engine b) (id : SessionId) (budget : Nat) :
    Except Error (Nat × Option StreamId) × Engine b :=
  e.call fun f => f.generate Pool.clients id budget

def cancelGenerate (e : Engine b) (id : SessionId) : Except Error Unit × Engine b :=
  e.call fun f => f.cancelGenerate Pool.clients id

def endSession (e : Engine b) (id : SessionId) : Except Error Unit × Engine b :=
  e.call fun f => f.endSession Pool.clients id

def snapshot (e : Engine b) (id : SessionId) : Except Error SessionSnapshot × Engine b :=
  e.call fun f => f.snapshot Pool.clients id

def workerStatus (e : Engine b) : Except Error (List WorkerStatus) × Engine b :=
  e.call fun f => f.workerStatus Pool.clients

/-- Stops the router and every worker. -/
def shutdown (e : Engine b) : Except Error Unit × Engine b :=
  if e.running then
    let (answer, pool) := e.front.pool.stop
    (answer, { e with front := { e.front with pool }, running := false })
  else (.error hasShutDown, e)

/-- Reads a stream of a worker to its end, and gives everything that it delivered. -/
def collect (e : Engine b) (id : SessionId) (index : Nat) (stream : Option StreamId) :
    Collected × Engine b :=
  let (collected, pool) := e.front.pool.collect id index stream
  (collected, { e with front := { e.front with pool } })

end Engine

end Turnwise
