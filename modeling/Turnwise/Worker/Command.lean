import Turnwise.Worker.State

/-!
# Commands of a worker

What a worker does when it is asked to: create and end sessions, queue input, start and cancel
generations, and tell about itself. Nothing here calls the model; that is the work of a tick.

Each command has a function of its own, with its own answer. `Command` and `Ack` gather them, so
that commands can be queued, and `Worker.handle` applies one.
-/

namespace Turnwise

/-- What became of a session that was to be ended. -/
inductive EndOutcome where
  /-- The session was live, and its slot is vacant now. -/
  | removed
  /-- There was no such session. -/
  | alreadyGone
  deriving DecidableEq, Repr

namespace Worker

variable {b : Backend}

/-! ### Sessions -/

/-- Gives a session a slot. The id must be new, the sampling parameters valid, and a slot vacant, in
this order. -/
def createSession (w : Worker b) (id : SessionId) (sampling : Sampling) :
    Except Error (Slot × Worker b) :=
  if (w.index.find? id).isSome then
    .error (.internal s!"{id} already exists on {w.id}")
  else
    match sampling.validate with
    | .error e => .error e
    | .ok () =>
        match w.sessions.insertWith fun slot => { id, slot, sampler := .ofConfig sampling } with
        | none => .error (.workerAtCapacity w.id w.sessions.capacity)
        | some (slot, sessions) =>
            .ok (slot,
              { w with
                sessions
                index := w.index.insert id slot
                tally := { w.tally with activeSessions := w.tally.activeSessions + 1 } })

/-- Queues the tokens of a text for a session, and gives their number. -/
def appendInput (w : Worker b) (id : SessionId) (text : String) :
    Except Error (Nat × Worker b) :=
  match w.index.find? id with
  | none => .error (.unknownSession id)
  | some slot =>
      match b.tokenize text with
      | .error e => .error e
      | .ok tokens => .ok (tokens.length, w.modifySession slot (Session.enqueue · tokens))

/-- Ends a session: its generation, if it has one, its row and its slot. -/
def endSession (w : Worker b) (id : SessionId) : EndOutcome × Worker b :=
  match w.index.find? id with
  | none => (.alreadyGone, w)
  | some slot =>
      let w := w.finishGeneration slot (.done .sessionEnded)
      (.removed,
        { w with
          index := w.index.erase id
          sessions := match w.sessions.remove slot with
            | some (_, sessions) => sessions
            | none => w.sessions
          context := b.removeSlot w.context slot
          tally := { w.tally with activeSessions := w.tally.activeSessions - 1 } })

/-! ### Generations -/

/-- Starts a generation on a stream that is open already. If it cannot start, the stream ends at
once: with an error, or, where there is nothing to produce, as finished. Of several obstacles the
first in this order is reported: the session is unknown, is generating already, has lost input that
was not reported yet, has no input; the budget is zero. -/
def startGeneration (w : Worker b) (id : SessionId) (budget : Nat) (stream : StreamId) : Worker b :=
  let refuse (w : Worker b) (cause : String) : Worker b :=
    { w with streams := w.streams.finish stream (.error cause) }
  match w.find? id with
  | none => refuse w (Error.unknownSession id).message
  | some (slot, s) =>
      if s.generation.isSome then refuse w s!"{id} already has an active generation"
      else
        match s.inputError with
        | some cause =>
            refuse (w.modifySession slot fun s => { s with inputError := none })
              s!"{id} lost queued input: {cause}"
        | none =>
            if s.pending.isEmpty then refuse w s!"{id} has no input to generate from"
            else if budget = 0 then
              { w with
                streams := w.streams.finish stream (.done .length)
                tally := w.tally.countFinished .length }
            else
              { w.modifySession slot fun s => { s with generation := some { budget, stream } } with
                tally := { w.tally with activeGenerations := w.tally.activeGenerations + 1 } }

/-- Opens a stream and starts a generation on it; gives the number of the stream. -/
def generate (w : Worker b) (id : SessionId) (budget capacity : Nat) : StreamId × Worker b :=
  let (stream, streams) := w.streams.add (.ofCapacity id capacity)
  (stream, { w with streams }.startGeneration id budget stream)

/-- Asks for a session's generation to be cancelled by the next tick; says whether there is one. -/
def cancel (w : Worker b) (id : SessionId) : Bool × Worker b :=
  match w.find? id with
  | none => (false, w)
  | some (slot, s) => (s.generation.isSome, w.modifySession slot fun s => s.cancel.2)

/-! ### Views -/

/-- A session as it is now. -/
def snapshot (w : Worker b) (id : SessionId) : Except Error SessionSnapshot :=
  match w.find? id with
  | none => .error (.unknownSession id)
  | some (slot, s) =>
      .ok
        { session := id
          worker := w.id
          slot
          position := s.position
          pendingTokens := s.pending.length
          residentTokens := b.residentLength w.context slot
          phase := s.phase
          samplerDraws := s.sampler.draws }

/-- The worker as it is now. -/
def status (w : Worker b) : WorkerStatus where
  worker := w.id
  sessions := w.sessions.size
  generating := w.sessions.toList.countP fun entry => entry.2.generation.isSome
  capacity := w.sessions.capacity
  ticks := w.ticks

/-! ### Stopping -/

/-- Ends every generation and releases every session. -/
def shutdown (w : Worker b) : Worker b :=
  let released := w.sessions.slots
  let w := released.foldl (fun w slot => w.finishGeneration slot (.done .shutdown)) w
  let w := w.index.entries.foldl
    (fun w (_, slot) =>
      { w with
        sessions := match w.sessions.remove slot with
          | some (_, sessions) => sessions
          | none => w.sessions
        context := b.removeSlot w.context slot }) w
  { w with
    index := {}
    tally := { w.tally with activeSessions := w.tally.activeSessions - released.length } }

end Worker

/-! ### Commands as values -/

inductive Command where
  | createSession (id : SessionId) (sampling : Sampling)
  | appendInput (id : SessionId) (text : String)
  | generate (id : SessionId) (budget capacity : Nat)
  | cancel (id : SessionId)
  | endSession (id : SessionId)
  | snapshot (id : SessionId)
  | status
  | shutdown
  deriving DecidableEq, Repr

/-- The name of a command in logs. -/
def Command.kind : Command → String
  | createSession _ _ => "create_session"
  | appendInput _ _ => "append_input"
  | generate _ _ _ => "generate"
  | cancel _ => "cancel"
  | endSession _ => "end_session"
  | snapshot _ => "snapshot"
  | status => "status"
  | shutdown => "shutdown"

inductive Ack where
  | created (slot : Slot)
  | queued (count : Nat)
  /-- A generation reports through its stream; this names the stream. -/
  | opened (stream : StreamId)
  | cancelled (wasActive : Bool)
  | ended (outcome : EndOutcome)
  | snapshot (view : SessionSnapshot)
  | status (view : WorkerStatus)
  /-- The worker's loop ends. -/
  | stopping
  | refused (e : Error)
  deriving DecidableEq, Repr

namespace Worker

variable {b : Backend}

/-- Applies a command. A refused one leaves the worker as it was. -/
def handle (w : Worker b) : Command → Ack × Worker b
  | .createSession id sampling =>
      match w.createSession id sampling with
      | .ok (slot, w) => (.created slot, w)
      | .error e => (.refused e, w)
  | .appendInput id text =>
      match w.appendInput id text with
      | .ok (count, w) => (.queued count, w)
      | .error e => (.refused e, w)
  | .generate id budget capacity =>
      let (stream, w) := w.generate id budget capacity
      (.opened stream, w)
  | .cancel id =>
      let (wasActive, w) := w.cancel id
      (.cancelled wasActive, w)
  | .endSession id =>
      let (outcome, w) := w.endSession id
      (.ended outcome, w)
  | .snapshot id =>
      match w.snapshot id with
      | .ok view => (.snapshot view, w)
      | .error e => (.refused e, w)
  | .status => (.status w.status, w)
  | .shutdown => (.stopping, w)

end Worker

end Turnwise
