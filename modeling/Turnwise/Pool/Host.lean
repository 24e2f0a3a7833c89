import Turnwise.Worker.Run

/-!
# Hosts

A worker on a thread of its own, as its clients see it: a queue of bounded length that the thread
may or may not be reading, and an answer that may or may not come in time.

A serving host that waits for commands takes up each at once, and then ticks until there is nothing
left to do. A tick lasts as long as its calls of the model; what is sent in the meantime waits in
the queue until the tick is over. The consumers of its streams keep up, so what is put on a stream
in one tick is taken before the next. A stalled host is alive and never reads its queue. A stopped
host has ended; so has a crashed one, in the middle of a call of the model.

Time is counted in milliseconds. Nothing takes any but calls of the model and waiting for answers.
-/

namespace Turnwise

/-- What a host's thread is doing. -/
inductive HostState where
  | serving
  | stalled
  | stopped
  | crashed
  deriving DecidableEq, Repr

/-- A worker on its thread. -/
structure Host (b : Backend) where
  worker : Worker b
  state : HostState := .serving
  /-- The commands that the thread has not taken up. -/
  queue : List Command := []
  /-- Whether a tick is under way. What it does to the worker is done already. -/
  ticking : Bool := false
  /-- When the last tick was over, or will be. -/
  tickEnd : Nat := 0
  /-- How long its clients wait for an answer. -/
  ackTimeoutMs : Nat
  /-- How long a call of the model takes. -/
  callMs : Nat := 0
  /-- How many requests were put into its queue. -/
  routed : Nat := 0
  /-- The batches in whose call the model brings its thread down. -/
  crashesOn : Batch → Bool := fun _ => false

/-- A span of time in the largest unit that it fills, up to seconds, without trailing zeros. -/
def durationText (milliseconds : Nat) : String :=
  if milliseconds = 0 then "0ns"
  else if milliseconds < 1000 then s!"{milliseconds}ms"
  else
    let fraction := (toString (1000 + milliseconds % 1000)).toList.drop 1
    let digits := (fraction.reverse.dropWhile (· = '0')).reverse
    let tail := if digits.isEmpty then "" else "." ++ String.ofList digits
    s!"{milliseconds / 1000}{tail}s"

namespace Host

variable {b : Backend}

def id (h : Host b) : WorkerId := h.worker.id

/-! ### Working -/

/-- Whether the model brings the thread down when it is handed the next prefill batch. -/
def prefillCrashes (crashesOn : Batch → Bool) (w : Worker b) : Bool :=
  match w.planPrefill with
  | .ok (some plan) => crashesOn plan.batch
  | _ => false

/-- Whether the model brings the thread down when it is handed the next decode batch. -/
def decodeCrashes (crashesOn : Batch → Bool) (w : Worker b) : Bool :=
  match w.planDecode with
  | .ok (some plan) => crashesOn plan.batch
  | _ => false

/-- One tick on the thread, which ends early if the model brings the thread down. -/
def guardedTick (crashesOn : Batch → Bool) (w : Worker b) : Turn b × Bool :=
  let turn := w.beginTick.sweep
  if prefillCrashes crashesOn turn.worker then (turn, true)
  else
    let turn := turn.prefill
    if decodeCrashes crashesOn turn.worker then (turn, true)
    else (turn.decode, false)

/-- Everything that waits on any stream is taken. -/
def takeStreams (w : Worker b) : Worker b :=
  { w with streams := { entries := w.streams.entries.map fun s => s.takeAll.2 } }

/-- One tick from a moment on; says whether there may be more to do at once. A crash closes the
sinks of all streams. -/
def tick (h : Host b) (now : Nat) : Bool × Host b :=
  let (turn, crashed) := guardedTick h.crashesOn h.worker
  let worker := takeStreams turn.worker
  if crashed then
    (false,
      { h with
        worker := { worker with
          streams := { entries := worker.streams.entries.map Stream.dropSink } }
        state := .crashed
        queue := []
        ticking := false })
  else
    let calls := worker.tally.computeCalls - h.worker.tally.computeCalls
    (turn.report.didWork, { h with worker, ticking := true, tickEnd := now + calls * h.callMs })

/-- Ticks from a moment on while ticks do something, and begins none after the deadline, if there is
one. -/
def work (deadline : Option Nat) : Nat → Nat → Host b → Host b
  | 0, _, h => h
  | fuel + 1, now, h =>
      let (again, h) := h.tick now
      if deadline.any (· < h.tickEnd) then h
      else if again then work deadline fuel h.tickEnd h
      else { h with ticking := false }

/-- Lets the thread go on from a moment on, if there still is one. -/
def proceed (h : Host b) (deadline : Option Nat) (now : Nat) : Host b :=
  if h.state = .serving then h.work deadline (h.worker.workLeft + 1) now else h

/-! ### Being sent commands -/

/-- Applies a command. The thread ends after a request to stop. -/
def apply (h : Host b) (command : Command) : Ack × Host b :=
  let (ack, worker) := h.worker.handle command
  if command = .shutdown then
    (ack, { h with worker := worker.shutdown, state := .stopped, queue := [], ticking := false })
  else (ack, { h with worker })

/-- Puts a command into the queue, if there is room. -/
def enqueue (h : Host b) (command : Command) : Except Error Unit × Host b :=
  match h.state with
  | .stopped | .crashed => (.error (.workerUnavailable s!"{h.id} has stopped"), h)
  | .serving | .stalled =>
      if h.queue.length < h.worker.config.commandQueueSize then
        (.ok (), { h with queue := h.queue ++ [command] })
      else (.error (.queueFull s!"{h.id} command queue"), h)

/-- Takes up the command that has waited longest. -/
def takeUp (h : Host b) : Option Ack × Host b :=
  match h.queue with
  | [] => (none, h)
  | command :: rest =>
      let (ack, h) := { h with queue := rest }.apply command
      (some ack, h)

/-- Takes up a number of commands, as far as there are any. -/
def takeUpMany : Nat → Host b → List Ack × Host b
  | 0, h => ([], h)
  | count + 1, h =>
      match h.takeUp with
      | (none, h) => ([], h)
      | (some ack, h) =>
          let (acks, h) := takeUpMany count h
          (ack :: acks, h)

/-- Takes up all that waits at the end of a tick, and goes on from there. -/
def resume (h : Host b) (deadline : Option Nat) : List Ack × Host b :=
  let (acks, h) := takeUpMany h.queue.length h
  (acks, h.proceed deadline h.tickEnd)

/-- What has happened by a deadline, if nothing more is sent. -/
def catchUp (h : Host b) (deadline : Option Nat) : Host b :=
  if h.ticking ∧ ¬ deadline.any (· < h.tickEnd) then (h.resume deadline).2 else h

/-- Sends a command, without waiting for its answer. Gives the answer if the host was waiting for
commands, and so has taken it up. -/
def send (h : Host b) (now : Nat) (command : Command) : Except Error (Option Ack) × Host b :=
  let h := h.catchUp (some now)
  if h.state = .serving ∧ ¬ h.ticking then
    let (ack, h) := h.apply command
    (.ok (some ack), h.proceed (some now) now)
  else
    match h.enqueue command with
    | (.ok (), h) => (.ok none, h)
    | (.error e, h) => (.error e, h)

/-- Sends a command, and counts it if it was put into the queue. -/
def post (h : Host b) (now : Nat) (command : Command) : Except Error (Option Ack) × Host b :=
  match h.send now command with
  | (.ok ack, h) => (.ok ack, { h with routed := h.routed + 1 })
  | (.error e, h) => (.error e, h)

/-- The failure of a client that has waited in vain. -/
def noAnswer (h : Host b) : Error :=
  .timeout s!"{h.id} did not acknowledge within {durationText h.ackTimeoutMs}"

/-- What an answer gives to the one who waits for it. -/
def receive : Ack → Except Error Ack
  | .refused e => .error e
  | ack => .ok ack

/-- Sends a command and waits for its answer. Gives the time at which the waiting ends. -/
def ask (h : Host b) (now : Nat) (command : Command) : Except Error Ack × Nat × Host b :=
  match h.post now command with
  | (.error e, h) => (.error e, now, h)
  | (.ok (some ack), h) => (receive ack, now, h)
  | (.ok none, h) =>
      let deadline := now + h.ackTimeoutMs
      if h.ticking ∧ h.tickEnd ≤ deadline then
        -- All that waits is taken up at the end of the tick, this command last.
        let done := h.tickEnd
        let (acks, h) := h.resume (some done)
        (acks.getLast?.elim (.error h.noAnswer) receive, done, h)
      else (.error h.noAnswer, deadline, h)

/-- Asks the thread to stop, and closes its queue. A thread that reads its queue handles what waits
in it and then ends, even if there was no room for the request. -/
def dismiss (h : Host b) (now : Nat) : Host b :=
  let h := (h.send now .shutdown).2
  if h.state = .serving then
    let h := (takeUpMany h.queue.length h).2
    if h.state = .serving then
      { h with worker := h.worker.shutdown, state := .stopped, ticking := false }
    else h
  else h

/-- Waits for the thread to end after its queue was closed. A thread that reads its queue ends in
order; one that has crashed did not. -/
def join (h : Host b) : Except Error Unit :=
  match h.state with
  | .crashed => .error (.internal s!"{h.id} panicked")
  | _ => .ok ()

/-- The events that were put on a stream. -/
def events (h : Host b) (stream : StreamId) : List StreamEvent :=
  match h.worker.streams.get? stream with
  | some s => s.log
  | none => []

end Host

end Turnwise
