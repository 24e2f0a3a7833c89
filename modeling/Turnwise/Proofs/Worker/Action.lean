import Turnwise.Proofs.Worker.Commands

/-!
# Runs of a worker

Whatever can happen to a worker between two of its ticks is an `Action`: a command, a tick, the end
of its loop, and what the consumers of its streams do on their side. A run is a list of actions, and
there is no restriction on their order.

`Worker.Step w action w'` says what an action can do, with one constructor for each way in which it
changes the worker; `Worker.step_act` is the only place that looks at `Worker.act`. A property of
all runs is a property of a new worker that every step preserves (`run_induction`).
-/

namespace Turnwise

/-- Something that happens to a worker. -/
inductive Action where
  | command (c : Command)
  /-- A request to generate whose consumer drops the handle before the worker gets to it. -/
  | abandoned (id : SessionId) (budget capacity : Nat)
  | tick
  /-- The worker leaves its loop. -/
  | shutdown
  /-- A consumer takes up to a number of events. -/
  | read (stream : StreamId) (count : Nat)
  /-- A consumer drops its handle. -/
  | drop (stream : StreamId)
  deriving DecidableEq, Repr

/-- The session for which an action requests a generation. -/
def Action.generates : Action → Option SessionId
  | .command (.generate id _ _) | .abandoned id _ _ => some id
  | _ => none

namespace Worker

variable {b : Backend} {w w' : Worker b}

/-- The worker after an action. -/
def act (w : Worker b) : Action → Worker b
  | .command c => (w.handle c).2
  | .abandoned id budget capacity =>
      w.generateOn (Stream.ofCapacity id capacity).dropHandle id budget
  | .tick => w.tick.worker
  | .shutdown => w.shutdown
  | .read stream count =>
      { w with streams := w.streams.modify stream fun s => (s.take count).2 }
  | .drop stream => { w with streams := w.streams.modify stream Stream.dropHandle }

/-- The worker after a list of actions. -/
def run (w : Worker b) (actions : List Action) : Worker b := actions.foldl act w

@[simp] theorem run_nil (w : Worker b) : w.run [] = w := rfl

@[simp] theorem run_cons (w : Worker b) (action : Action) (actions : List Action) :
    w.run (action :: actions) = (w.act action).run actions := rfl

theorem run_append (w : Worker b) (actions actions' : List Action) :
    w.run (actions ++ actions') = (w.run actions).run actions' :=
  List.foldl_append

/-- What is true of a worker, and remains true under every action, is true after every run. -/
theorem run_induction {P : Worker b → Prop} (hact : ∀ w action, P w → P (w.act action)) (h : P w)
    (actions : List Action) : P (w.run actions) := by
  induction actions generalizing w with
  | nil => exact h
  | cons action rest ih => exact ih (hact w action h)

/-! ### What an action can do -/

/-- A stream that no worker has touched. Its consumer may have dropped the handle already. -/
inductive FreshStream (id : SessionId) : Stream → Prop
  | opened (capacity : Nat) : FreshStream id (.ofCapacity id capacity)
  | abandoned (capacity : Nat) : FreshStream id (Stream.ofCapacity id capacity).dropHandle

/-- What the consumer of a stream does to it by an action. -/
inductive Consumes (stream : StreamId) : Action → (Stream → Stream) → Prop
  | read (count : Nat) : Consumes stream (.read stream count) fun s => (s.take count).2
  | drop : Consumes stream (.drop stream) Stream.dropHandle

/-- A consumer takes events out of a stream, or stops to listen; what was said and to whom stays. -/
theorem Consumes.get?_modify {id id' : StreamId} {action : Action} {f : Stream → Stream}
    (h : Consumes id action f) {streams : Streams} {stream : Stream}
    (hstream : streams.get? id' = some stream) :
    ∃ stream', (streams.modify id f).get? id' = some stream' ∧
      stream'.session = stream.session ∧ stream'.log = stream.log ∧
      (stream'.handleOpen = true → stream.handleOpen = true) ∧
      (action ≠ .drop id' → stream'.handleOpen = stream.handleOpen) := by
  rw [Streams.get?_modify, hstream]
  split_ifs with heq
  · cases h with
    | read count => exact ⟨_, rfl, rfl, rfl, fun hopen => hopen, fun _ => rfl⟩
    | drop => exact ⟨_, rfl, rfl, rfl, nofun, fun hkept => absurd (heq ▸ rfl) hkept⟩
  · exact ⟨stream, rfl, rfl, rfl, fun hopen => hopen, fun _ => rfl⟩

/-- What an action can do to a worker. -/
inductive Step (w : Worker b) : Action → Worker b → Prop
  /-- Views and refused commands. -/
  | same (action : Action) : Step w action w
  | create {id : SessionId} {sampling : Sampling} {slot : Slot}
      {sessions : SlotArena Session} (hnew : w.index.find? id = none)
      (hinsert : w.sessions.insertWith (newSession id sampling) = some (slot, sessions))
      (tally : Tally) :
      Step w (.command (.createSession id sampling))
        { w with sessions, index := w.index.insert id slot, tally }
  | append {id : SessionId} {text : String} {slot : Slot} {tokens : List Token}
      (hslot : w.index.find? id = some slot) (htokens : b.tokenize text = .ok tokens) :
      Step w (.command (.appendInput id text)) (w.modifySession slot (Session.enqueue · tokens))
  | generate {action : Action} {id : SessionId} {s : Stream} (hs : FreshStream id s)
      (budget : Nat) (haction : action.generates = some id) :
      Step w action (w.generateOn s id budget)
  | cancel {id : SessionId} {slot : Slot} {s : Session} (hfind : w.find? id = some (slot, s)) :
      Step w (.command (.cancel id)) (w.modifySession slot fun s => s.cancel.2)
  | endSession {id : SessionId} {slot : Slot} (hslot : w.index.find? id = some slot)
      (tally : Tally) :
      Step w (.command (.endSession id))
        { (w.finishGeneration slot (.done .sessionEnded)).release slot with
          index := w.index.erase id, tally }
  | tick : Step w .tick w.tick.worker
  | shutdown : Step w .shutdown w.shutdown
  | consume {action : Action} {stream : StreamId} {f : Stream → Stream}
      (hf : Consumes stream action f) :
      Step w action { w with streams := w.streams.modify stream f }

theorem step_handle (w : Worker b) (c : Command) : Step w (.command c) (w.handle c).2 := by
  unfold handle
  cases c with
  | createSession id sampling =>
    dsimp only
    rcases hcreate : w.createSession id sampling with e | ⟨slot, w'⟩
    · exact .same _
    · obtain ⟨hnew, -, sessions, hinsert, rfl⟩ := createSession_eq_ok hcreate
      exact .create hnew hinsert _
  | appendInput id text =>
    dsimp only
    rcases happend : w.appendInput id text with e | ⟨count, w'⟩
    · exact .same _
    · obtain ⟨slot, tokens, hslot, htokens, -, rfl⟩ := appendInput_eq_ok happend
      exact .append hslot htokens
  | generate id budget capacity => exact .generate (.opened capacity) budget rfl
  | cancel id =>
    dsimp only
    rcases cancel_snd w id with heq | ⟨slot, s, hfind, heq⟩
    · rw [heq]
      exact .same _
    · rw [heq]
      exact .cancel hfind
  | endSession id =>
    dsimp only
    rcases hslot : w.index.find? id with _ | slot
    · rw [endSession_of_find?_eq_none hslot]
      exact .same _
    · rw [endSession_of_find?_eq_some hslot]
      exact .endSession hslot _
  | snapshot id =>
    dsimp only
    cases w.snapshot id <;> exact .same _
  | status => exact .same _
  | shutdown => exact .same _

/-- **Every action is one of these steps.** -/
theorem step_act (w : Worker b) (action : Action) : Step w action (w.act action) := by
  cases action with
  | command c => exact step_handle w c
  | abandoned id budget capacity => exact .generate (.abandoned capacity) budget rfl
  | tick => exact .tick
  | shutdown => exact .shutdown
  | read stream count => exact .consume (.read count)
  | drop stream => exact .consume .drop

end Worker

end Turnwise
