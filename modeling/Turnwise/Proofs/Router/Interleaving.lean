import Turnwise.Proofs.Router.Operation
import Turnwise.Proofs.Worker.Treatment

/-!
# A router and a thread side by side

One worker behind its queue. Its thread takes up commands, ticks and is interrupted at will, and the
router may give up waiting for an answer at any time, be it before the command is taken up or after.

A run is a list of moves. A move is a step of the thread while the router does nothing, or an
operation of the router together with what happens during each of its waits: the steps that the
thread takes in the meantime, and whether the router gives up in the end. The operations are those
of any router, made through clients of their own kind (`Link.clients`), which differ from those of a
pool in nothing but who decides how long things take.

Whatever the thread does, an answer means that the thread has taken up all that waited before the
command, and then the command (`Host.await_push`).
-/

namespace Turnwise

/-- What a thread does next, or a consumer of one of its streams. -/
inductive ThreadStep where
  /-- The command that has waited longest is taken up. -/
  | takeUp
  | tick
  /-- A consumer takes up to a number of events. -/
  | read (stream : StreamId) (count : Nat)
  /-- A consumer drops its handle. -/
  | drop (stream : StreamId)
  deriving DecidableEq, Repr

/-- What happens while the router waits for an answer. -/
structure Wait where
  steps : List ThreadStep := []
  /-- Whether the router gives up, even if there is an answer by now. -/
  givesUp : Bool := true
  deriving DecidableEq, Repr

namespace Host

variable {b : Backend}

def step (h : Host b) : ThreadStep → Host b
  | .takeUp => h.takeUp.2
  | .tick => { h with worker := h.worker.act .tick }
  | .read stream count => { h with worker := h.worker.act (.read stream count) }
  | .drop stream => { h with worker := h.worker.act (.drop stream) }

def run (h : Host b) (steps : List ThreadStep) : Host b := steps.foldl step h

/-- The steps of a thread, and the answer to the command that has a number of others ahead of it in
the queue, if it is taken up. -/
def await (h : Host b) : List ThreadStep → Nat → Option Ack × Host b
  | [], _ => (none, h)
  | .takeUp :: steps, 0 => (h.takeUp.1, h.takeUp.2.run steps)
  | .takeUp :: steps, ahead + 1 => h.takeUp.2.await steps ahead
  | step :: steps, ahead => (h.step step).await steps ahead

/-- A host with one more command in its queue. -/
def push (h : Host b) (command : Command) : Host b := { h with queue := h.queue ++ [command] }

end Host

/-- A worker behind its queue, and what is going to happen during waits. -/
structure Link (b : Backend) where
  host : Host b
  /-- The waits to come. During later ones nothing happens, and the router gives up. -/
  waits : List Wait := []
  /-- The commands that were sent without a wait for the outcome and found no room, each with those
  that waited there. -/
  refused : List (Command × List Command) := []

namespace Link

variable {b : Backend}

def ask (command : Command) (link : Link b) : Except Error Ack × Link b :=
  match link.host.enqueue command with
  | (.error e, host) => (.error e, { link with host })
  | (.ok (), host) =>
      let wait := link.waits.headD {}
      let (ack, host) := host.await wait.steps link.host.queue.length
      let link := { link with host, waits := link.waits.tail }
      match ack with
      | some ack => (if wait.givesUp then .error host.noAnswer else Host.receive ack, link)
      | none => (.error host.noAnswer, link)

def post (command : Command) (link : Link b) : Except Error (Option Ack) × Link b :=
  match link.host.enqueue command with
  | (.ok (), host) => (.ok none, { link with host })
  | (.error e, host) => (.error e, { link with host })

def send (command : Command) (link : Link b) : Except Error (Option Ack) × Link b :=
  match link.host.enqueue command with
  | (.ok (), host) => (.ok none, { link with host })
  | (.error e, host) =>
      (.error e, { link with host, refused := (command, host.queue) :: link.refused })

def clients : Clients (Link b) := .over (fun _ => ask) (fun _ => post) (fun _ => send)

end Link

/-- What happens next. -/
inductive Move where
  | operation (operation : Operation) (waits : List Wait)
  | thread (step : ThreadStep)
  deriving DecidableEq, Repr

namespace Front

variable {b : Backend}

/-- A router in front of one worker that has just started. -/
def linked (context : b.Context) (config : Config) : Front (Link b) where
  router := .ofWorkers [⟨0⟩] config
  pool :=
    { host :=
        { worker := .start ⟨0⟩ context config.worker
          ackTimeoutMs := config.engine.ackTimeoutMs } }

def move (f : Front (Link b)) : Move → Front (Link b)
  | .operation operation waits =>
      ({ f with pool := { f.pool with waits } }.perform Link.clients operation).2
  | .thread step => { f with pool := { f.pool with host := f.pool.host.step step } }

def play (f : Front (Link b)) (moves : List Move) : Front (Link b) := moves.foldl move f

end Front

/-! ### What the thread has done when there is an answer -/

namespace Host

variable {b : Backend} {h : Host b} {command : Command}

@[simp] theorem run_nil (h : Host b) : h.run [] = h := rfl

@[simp] theorem run_cons (h : Host b) (step : ThreadStep) (steps : List ThreadStep) :
    h.run (step :: steps) = (h.step step).run steps := rfl

/-- Applying a command other than a request to stop leaves the queue alone. -/
theorem apply_snd (h : Host b) (hcommand : command ≠ .shutdown) :
    (h.apply command).2 = { h with worker := (h.worker.handle command).2 } := by
  unfold apply
  dsimp only
  rw [if_neg hcommand]

theorem takeUp_cons {first : Command} {rest : List Command} (hqueue : h.queue = first :: rest) :
    h.takeUp = (some ({ h with queue := rest }.apply first).1,
      ({ h with queue := rest }.apply first).2) := by
  rw [takeUp, hqueue]

theorem takeUp_nil (hqueue : h.queue = []) : h.takeUp = (none, h) := by
  rw [takeUp, hqueue]

theorem await_cons (h : Host b) {step : ThreadStep} (hstep : step ≠ .takeUp)
    (steps : List ThreadStep) (ahead : Nat) :
    h.await (step :: steps) ahead = (h.step step).await steps ahead := by
  cases step with
  | takeUp => exact absurd rfl hstep
  | tick | read | drop => rw [await] <;> exact nofun

/-- The other steps are actions of the worker that are not commands. -/
theorem step_eq_act {step : ThreadStep} (hstep : step ≠ .takeUp) :
    ∃ action, (∀ command, action ≠ .command command) ∧ action ≠ .shutdown ∧
      ∀ h : Host b, h.step step = { h with worker := h.worker.act action } := by
  cases step with
  | takeUp => exact absurd rfl hstep
  | tick => exact ⟨.tick, nofun, nofun, fun _ => rfl⟩
  | read stream count => exact ⟨.read stream count, nofun, nofun, fun _ => rfl⟩
  | drop stream => exact ⟨.drop stream, nofun, nofun, fun _ => rfl⟩

theorem step_push (h : Host b) {step : ThreadStep} (hstep : step ≠ .takeUp) (command : Command) :
    (h.push command).step step = (h.step step).push command := by
  obtain ⟨action, -, -, hact⟩ := step_eq_act (b := b) hstep
  rw [hact, hact, push, push]

theorem queue_step (h : Host b) {step : ThreadStep} (hstep : step ≠ .takeUp) :
    (h.step step).queue = h.queue := by
  obtain ⟨action, -, -, hact⟩ := step_eq_act (b := b) hstep
  rw [hact]

/-- What comes later does not matter to the command that is taken up now. -/
theorem takeUp_push {first : Command} {rest : List Command} (hqueue : h.queue = first :: rest)
    (hfirst : first ≠ .shutdown) (command : Command) :
    (h.push command).takeUp.2 = h.takeUp.2.push command := by
  have hpush : (h.push command).queue = first :: (rest ++ [command]) := by
    rw [push, hqueue, List.cons_append]
  rw [takeUp_cons hpush, takeUp_cons hqueue, apply_snd _ hfirst, apply_snd _ hfirst]
  rfl

theorem shutdown_notMem_step (hrunning : .shutdown ∉ h.queue) (step : ThreadStep) :
    .shutdown ∉ (h.step step).queue := by
  by_cases hstep : step = .takeUp
  · subst hstep
    cases hqueue : h.queue with
    | nil =>
      rw [Host.step, takeUp_nil hqueue]
      exact hrunning
    | cons first rest =>
      rw [hqueue] at hrunning
      obtain ⟨hfirst, hrest⟩ := not_or.mp (List.mem_cons.not.mp hrunning)
      rw [Host.step, takeUp_cons hqueue, apply_snd _ (Ne.symm hfirst)]
      exact hrest
  · rw [queue_step h hstep]
    exact hrunning

theorem await_snd (h : Host b) (steps : List ThreadStep) (ahead : Nat) :
    (h.await steps ahead).2 = h.run steps := by
  induction steps generalizing h ahead with
  | nil => rfl
  | cons step steps ih =>
    by_cases hstep : step = .takeUp
    · subst hstep
      cases ahead with
      | zero => rfl
      | succ ahead => exact ih _ ahead
    · rw [await_cons h hstep]
      exact ih _ ahead

/-- **Commands are answered in order.** An answer to the last command in the queue comes after all
that waited before it has been taken up. -/
theorem await_push {steps : List ThreadStep} {ack : Ack} (hrunning : .shutdown ∉ h.queue)
    (hack : ((h.push command).await steps h.queue.length).1 = some ack) :
    ∃ before after, (h.run before).queue = [] ∧ ack = ((h.run before).apply command).1 ∧
      (h.push command).run steps = ((h.run before).apply command).2.run after := by
  induction steps generalizing h with
  | nil => cases hack
  | cons step steps ih =>
    have hrunning' := shutdown_notMem_step hrunning step
    by_cases hstep : step = .takeUp
    · subst hstep
      cases hqueue : h.queue with
      -- Nothing waits before the command, so this step takes it up.
      | nil =>
        have hpush : (h.push command).queue = [command] := by rw [push, hqueue, List.nil_append]
        have hbare : { h.push command with queue := [] } = h := by rw [push, ← hqueue]
        rw [hqueue, List.length_nil, await, takeUp_cons hpush, hbare] at hack
        refine ⟨[], steps, hqueue, (Option.some.inj hack).symm, ?_⟩
        rw [run_cons, Host.step, takeUp_cons hpush, hbare, run_nil]
      -- The step takes up `first`, and the command waits on behind one fewer.
      | cons first rest =>
        have hfirst : first ≠ .shutdown := fun heq =>
          hrunning (hqueue ▸ heq ▸ List.mem_cons_self)
        have hlength : (h.step .takeUp).queue.length = rest.length := by
          rw [Host.step, takeUp_cons hqueue, apply_snd _ hfirst]
        have hpush := takeUp_push hqueue hfirst command
        rw [hqueue, List.length_cons, await, hpush, ← hlength] at hack
        obtain ⟨before, after, hempty, hanswer, hhost⟩ := ih hrunning' hack
        refine ⟨.takeUp :: before, after, hempty, hanswer, ?_⟩
        rw [run_cons, Host.step, hpush]
        exact hhost
    -- Any other step leaves the queue alone and changes the same worker with and without the
    -- command.
    · rw [await_cons _ hstep, step_push h hstep, ← queue_step h hstep] at hack
      obtain ⟨before, after, hempty, hanswer, hhost⟩ := ih hrunning' hack
      refine ⟨step :: before, after, hempty, hanswer, ?_⟩
      rw [run_cons, step_push h hstep]
      exact hhost

end Host

end Turnwise
