import Turnwise.Pool.Clients

/-!
# The router

The router pins every session to one worker and sends all commands for the session there. It is the
only one that mints session ids and the only one that changes the table of pins.

It also keeps a view of each worker: how many sessions it has pinned there, and whether the worker
can be reached. A worker found unreachable is never picked again. A create that times out may still
take effect, so its id is retired, and the worker is told to end the session in case it comes to
life.
-/

namespace Turnwise

/-- A worker as the router sees it. -/
structure WorkerInfo where
  worker : WorkerId
  sessions : Nat := 0
  /-- Cleared once the worker is found to be unreachable. -/
  healthy : Bool := true
  deriving DecidableEq, Repr, Inhabited

/-- The load by which workers are compared. -/
inductive LoadScore where
  | sessions (count : Nat)
  /-- The load of a worker that cannot be reached, above every number of sessions. -/
  | unreachable
  deriving DecidableEq, Repr

namespace LoadScore

def isBelow : LoadScore → LoadScore → Bool
  | sessions count, sessions count' => count < count'
  | sessions _, unreachable => true
  | unreachable, _ => false

/-- The load as it is shown, with infinity for a worker that cannot be reached. Numbers of sessions
up to `2 ^ 53` are shown exactly, so a comparison of what is shown is one of the loads. -/
def toFloat : LoadScore → Float
  | sessions count => Float.ofNat count
  | unreachable => Float.ofBits 0x7ff0000000000000

instance : Coe LoadScore Float where
  coe := toFloat

end LoadScore

def WorkerInfo.loadScore (info : WorkerInfo) : LoadScore :=
  if info.healthy then .sessions info.sessions else .unreachable

structure RouterTally where
  sessionsCreated : Nat := 0
  sessionsEnded : Nat := 0
  /-- Commands for a session that is not pinned. -/
  unknownSession : Nat := 0
  /-- Commands that did not reach a worker or got no answer from it. -/
  routingFailures : Nat := 0
  deriving DecidableEq, Repr, Inhabited

/-- The table of pins, the view of the workers and the policy for new sessions. -/
structure Router where
  workers : List WorkerInfo
  selection : WorkerSelection
  streamBufferSize : Nat
  /-- The worker index that each session is pinned to. -/
  pins : List (SessionId × Nat) := []
  nextSession : Nat := 1
  /-- Ids that were never handed out, because creating the session timed out. -/
  abandoned : List SessionId := []
  /-- The worker index at which the next turn begins. -/
  cursor : Nat := 0
  tally : RouterTally := {}
  deriving DecidableEq, Repr

namespace Router

def ofWorkers (workers : List WorkerId) (config : Config) : Router where
  workers := workers.map fun worker => { worker }
  selection := config.engine.selection
  streamBufferSize := config.worker.streamBufferSize

/-- The worker index that a session is pinned to. -/
def pinned? (r : Router) (id : SessionId) : Option Nat := r.pins.lookup id

/-! ### Selection -/

/-- The indices of the healthy workers, in order. -/
def healthyIndices (r : Router) : List Nat :=
  (r.workers.zipIdx.filter fun entry => entry.1.healthy).map Prod.snd

/-- The healthy worker whose turn it is: the first at or after the cursor, or else the first. -/
def nextInTurn? (r : Router) : Option Nat :=
  match r.healthyIndices.find? fun index => r.cursor ≤ index with
  | some index => some index
  | none => r.healthyIndices.head?

/-- The healthy worker with the lowest load, the first of them on a tie. -/
def leastLoaded? (r : Router) : Option Nat :=
  let healthy := r.workers.zipIdx.filter fun entry => entry.1.healthy
  match healthy with
  | [] => none
  | first :: rest =>
      let least := rest.foldl
        (fun best entry => if entry.1.loadScore.isBelow best.1.loadScore then entry else best) first
      some least.2

/-- Picks the worker for a new session. -/
def selectWorker (r : Router) : Except Error Nat × Router :=
  let none := Except.error (.workerUnavailable "No healthy workers available")
  match r.selection with
  | .roundRobin =>
      match r.nextInTurn? with
      | some index => (.ok index, { r with cursor := (index + 1) % r.workers.length })
      | _ => (none, r)
  | .leastLoaded =>
      match r.leastLoaded? with
      | some index => (.ok index, r)
      | _ => (none, r)

/-! ### Bookkeeping -/

def modifyWorker (r : Router) (index : Nat) (f : WorkerInfo → WorkerInfo) : Router :=
  { r with workers := r.workers.modify index f }

/-- Counts a failed request that is the worker's fault. An unreachable worker is noted as such. -/
def markFailed (r : Router) (index : Nat) (e : Error) : Router :=
  if e.isRoutingFailure then
    let r := { r with tally := { r.tally with routingFailures := r.tally.routingFailures + 1 } }
    match e with
    | .workerUnavailable _ => r.modifyWorker index fun info => { info with healthy := false }
    | _ => r
  else r

/-- Counts a command for a session that is not pinned. -/
def countUnknown (r : Router) : Router :=
  { r with tally := { r.tally with unknownSession := r.tally.unknownSession + 1 } }

/-- Whether an id was handed out by a create that succeeded. -/
def wasIssued (r : Router) (id : SessionId) : Bool :=
  1 ≤ id.number && id.number < r.nextSession && !r.abandoned.contains id

/-- Pins the next id to a worker. -/
def pin (r : Router) (index : Nat) : Router :=
  { r.modifyWorker index fun info => { info with sessions := info.sessions + 1 } with
    pins := (⟨r.nextSession⟩, index) :: r.pins
    nextSession := r.nextSession + 1
    tally := { r.tally with sessionsCreated := r.tally.sessionsCreated + 1 } }

/-- Retires the next id without handing it out. -/
def abandon (r : Router) : Router :=
  { r with abandoned := ⟨r.nextSession⟩ :: r.abandoned, nextSession := r.nextSession + 1 }

def unpin (r : Router) (id : SessionId) (index : Nat) : Router :=
  { r.modifyWorker index fun info => { info with sessions := info.sessions - 1 } with
    pins := r.pins.filter fun entry => entry.1 != id
    tally := { r.tally with sessionsEnded := r.tally.sessionsEnded + 1 } }

end Router

/-! ### Requests -/

/-- A router in front of a pool in state `σ`. -/
structure Front (σ : Type) where
  router : Router
  pool : σ

namespace Front

variable {σ : Type}

/-- Makes a request to a worker. A failure is noted in the view of the worker. -/
def call (f : Front σ) (index : Nat) (request : σ → Except Error α × σ) :
    Except Error α × Front σ :=
  match request f.pool with
  | (.ok value, pool) => (.ok value, { f with pool })
  | (.error e, pool) => (.error e, { router := f.router.markFailed index e, pool })

/-- Makes a request to the worker that a session is pinned to. -/
def route (f : Front σ) (id : SessionId) (request : Nat → σ → Except Error α × σ) :
    Except Error α × Front σ :=
  match f.router.pinned? id with
  | none => (.error (.unknownSession id), { f with router := f.router.countUnknown })
  | some index => f.call index (request index)

/-- Creates a session on the worker that the policy picks. -/
def createSession (c : Clients σ) (f : Front σ) (sampling : Sampling) :
    Except Error SessionId × Front σ :=
  match f.router.selectWorker with
  | (.error e, router) => (.error e, { f with router })
  | (.ok index, router) =>
      let id : SessionId := ⟨router.nextSession⟩
      match { f with router }.call index (c.createSession index id sampling) with
      | (.ok _, f) => (.ok id, { f with router := f.router.pin index })
      | (.error (.timeout detail), f) =>
          let (_, pool) := c.endDetached index id f.pool
          (.error (.timeout detail), { router := f.router.abandon, pool })
      | (.error e, f) => (.error e, f)

/-- Queues text for a session, and gives the number of tokens. -/
def appendInput (c : Clients σ) (f : Front σ) (id : SessionId) (text : String) :
    Except Error Nat × Front σ :=
  f.route id fun index => c.appendInput index id text

/-- Starts a generation, and gives its worker and the number of its stream there. -/
def generate (c : Clients σ) (f : Front σ) (id : SessionId) (budget : Nat) :
    Except Error (Nat × Option StreamId) × Front σ :=
  f.route id fun index pool =>
    let (answer, pool) := c.generate index id budget f.router.streamBufferSize pool
    (answer.map fun stream => (index, stream), pool)

/-- Asks for the active generation of a session to be cancelled. -/
def cancelGenerate (c : Clients σ) (f : Front σ) (id : SessionId) : Except Error Unit × Front σ :=
  let (answer, f) := f.route id fun index => c.cancel index id
  (answer.map fun _ => (), f)

/-- Ends a session. Ending one again that was handed out once succeeds without asking anybody. -/
def endSession (c : Clients σ) (f : Front σ) (id : SessionId) : Except Error Unit × Front σ :=
  match f.router.pinned? id with
  | some index =>
      match f.call index (c.endSession index id) with
      | (.ok _, f) => (.ok (), { f with router := f.router.unpin id index })
      | (.error e, f) => (.error e, f)
  | none =>
      if f.router.wasIssued id then (.ok (), f)
      else (.error (.unknownSession id), { f with router := f.router.countUnknown })

/-- A session as its worker sees it. -/
def snapshot (c : Clients σ) (f : Front σ) (id : SessionId) :
    Except Error SessionSnapshot × Front σ :=
  f.route id fun index => c.snapshot index id

/-- The workers of the given indices as they see themselves; the first failure ends the round. -/
def statusOf (c : Clients σ) : List Nat → Front σ → Except Error (List WorkerStatus) × Front σ
  | [], f => (.ok [], f)
  | index :: rest, f =>
      match f.call index (c.status index) with
      | (.error e, f) => (.error e, f)
      | (.ok status, f) =>
          let (answer, f) := statusOf c rest f
          (answer.map (status :: ·), f)

/-- All workers as they see themselves. -/
def workerStatus (c : Clients σ) (f : Front σ) : Except Error (List WorkerStatus) × Front σ :=
  statusOf c (List.range f.router.workers.length) f

end Front

end Turnwise
