import Turnwise.Pool.Host

/-!
# Clients

The requests that can be made to the workers of a pool, each with the type of its own answer. A
router is written against this record alone, so what is said about it holds however the workers
answer: at once, late, with an error, or never.

All clients of workers that take commands are made in the same way, from the three ways to send a
command (`Clients.over`). `Pool.clients` is the record for workers that are hosted on threads.
-/

namespace Turnwise

/-- Requests to the workers of a pool in state `σ`; the first argument of each is the index of the
worker. -/
structure Clients (σ : Type) where
  createSession : Nat → SessionId → Sampling → σ → Except Error Slot × σ
  appendInput : Nat → SessionId → String → σ → Except Error Nat × σ
  /-- Starts a generation with a budget and the capacity of its stream, without waiting for the
  worker. Gives the number of the stream, if the worker has opened it already. -/
  generate : Nat → SessionId → Nat → Nat → σ → Except Error (Option StreamId) × σ
  cancel : Nat → SessionId → σ → Except Error Bool × σ
  endSession : Nat → SessionId → σ → Except Error EndOutcome × σ
  /-- Ends a session without waiting for the outcome. -/
  endDetached : Nat → SessionId → σ → Except Error Unit × σ
  snapshot : Nat → SessionId → σ → Except Error SessionSnapshot × σ
  status : Nat → σ → Except Error WorkerStatus × σ

/-- The failure of a request that was given another request's answer. -/
def wrongAnswer (index : Nat) : Error := .internal s!"worker {index} answered another command"

/-- The value of an answer, which must be of the kind that `pick` picks. -/
def Ack.pick (index : Nat) (pick : Ack → Option α) (ack : Ack) : Except Error α :=
  match pick ack with
  | some value => .ok value
  | none => .error (wrongAnswer index)

/-- The requests as commands: `ask` waits for the answer; `post` and `send` do not, and give it if
it is there already. Only `send` leaves no trace in the counts of the worker. -/
def Clients.over (ask : Nat → Command → σ → Except Error Ack × σ)
    (post send : Nat → Command → σ → Except Error (Option Ack) × σ) : Clients σ :=
  let request {α : Type} (index : Nat) (command : Command) (pick : Ack → Option α) (s : σ) :
      Except Error α × σ :=
    let (answer, s) := ask index command s
    (answer.bind (Ack.pick index pick), s)
  { createSession := fun index id sampling =>
      request index (.createSession id sampling) fun
        | .created slot => some slot
        | _ => none
    appendInput := fun index id text =>
      request index (.appendInput id text) fun
        | .queued count => some count
        | _ => none
    generate := fun index id budget capacity s =>
      let (answer, s) := post index (.generate id budget capacity) s
      (answer.map fun
        | some (.opened stream) => some stream
        | _ => none, s)
    cancel := fun index id =>
      request index (.cancel id) fun
        | .cancelled wasActive => some wasActive
        | _ => none
    endSession := fun index id =>
      request index (.endSession id) fun
        | .ended outcome => some outcome
        | _ => none
    endDetached := fun index id s =>
      let (answer, s) := send index (.endSession id) s
      (answer.map fun _ => (), s)
    snapshot := fun index id =>
      request index (.snapshot id) fun
        | .snapshot view => some view
        | _ => none
    status := fun index =>
      request index .status fun
        | .status view => some view
        | _ => none }

/-- Hosted workers, each at the index of its name, and the time. -/
structure Pool (b : Backend) where
  hosts : List (Host b)
  now : Nat := 0

namespace Pool

variable {b : Backend}

/-- The failure of a request to a worker that the pool does not have. -/
def noSuchWorker (index : Nat) : Error := .internal s!"worker {index} is not in the pool"

/-- Lets a host do something that takes until a time of its own. -/
def act (pool : Pool b) (index : Nat) (f : Nat → Host b → Except Error α × Nat × Host b) :
    Except Error α × Pool b :=
  match pool.hosts[index]? with
  | none => (.error (noSuchWorker index), pool)
  | some h =>
      let (answer, now, h) := f pool.now h
      (answer, { hosts := pool.hosts.set index h, now })

def clients : Clients (Pool b) :=
  .over
    (fun index command pool => pool.act index fun now h => h.ask now command)
    (fun index command pool => pool.act index fun now h =>
      let (answer, h) := h.post now command
      (answer, now, h))
    (fun index command pool => pool.act index fun now h =>
      let (answer, h) := h.send now command
      (answer, now, h))

/-- Reads a stream of a worker to its end, which has come when the worker has nothing left to do,
and gives everything that the stream delivered. -/
def collect (pool : Pool b) (id : SessionId) (index : Nat) (stream : Option StreamId) :
    Collected × Pool b :=
  match pool.hosts[index]? with
  | none => ({ session := id }, pool)
  | some h =>
      let h := h.catchUp none
      (.ofEvents id ((stream.map h.events).getD []),
        { hosts := pool.hosts.set index h, now := max pool.now h.tickEnd })

/-- Stops every worker and waits for the threads; fails if one of them crashed. -/
def stop (pool : Pool b) : Except Error Unit × Pool b :=
  let hosts := pool.hosts.map fun h => h.dismiss pool.now
  (hosts.forM Host.join, { pool with hosts })

end Pool

end Turnwise
