import Mathlib.Logic.Function.Basic
import Turnwise.Proofs.Router.Orphans

/-!
# A router and many threads

Workers behind their queues, each on a thread of its own, and one router that sends commands to all
of them. The threads share nothing, so what happens while the router waits for an answer is said for
each thread by itself (`Pause`).

Here the workers are seen from one side only. A host serves a set of sessions (`Host.Serves`) if
these are live, and nothing waits in its queue but requests to generate for them. No step of its
thread changes this (`Serves.step`), and a command that is answered changes it in the one way that
its answer tells (`Command.settle`, `Serves.await`).

A command fits the sessions that are live if it is a create for a new session or is for one that is
live. The fleet keeps a record of the commands that did not fit when they were taken up
(`Fleet.misfits`).
-/

namespace Turnwise

/-! ### Commands that find what they need -/

/-- A create is for a session that is not there, any other command for one that is. -/
def Command.Fits (live : SessionId → Prop) : Command → Prop
  | .createSession id _ => ¬ live id
  | .appendInput id _ | .generate id _ _ | .cancel id | .endSession id | .snapshot id => live id
  | .status | .shutdown => True

instance Command.instDecidableFits (live : SessionId → Prop) [DecidablePred live] :
    (command : Command) → Decidable (command.Fits live)
  | .createSession id _ => inferInstanceAs (Decidable (¬ live id))
  | .appendInput id _ | .generate id _ _ | .cancel id | .endSession id | .snapshot id =>
    inferInstanceAs (Decidable (live id))
  | .status | .shutdown => inferInstanceAs (Decidable True)

/-- The sessions that are live after an answer. -/
def Command.settle (command : Command) (live : SessionId → Prop) (ack : Ack) : SessionId → Prop :=
  match command, ack with
  | .createSession id _, .created _ => fun other => other = id ∨ live other
  | .endSession id, _ => fun other => live other ∧ other ≠ id
  | _, _ => live

namespace Worker

variable {b : Backend} {w : Worker b}

/-- The worker has the session. -/
def Knows (w : Worker b) (id : SessionId) : Prop := w.index.find? id ≠ none

instance (w : Worker b) : DecidablePred w.Knows := fun _ => inferInstanceAs (Decidable (_ ≠ _))

/-- The sessions that are live, in the order of their slots. -/
def liveIds (w : Worker b) : List SessionId := w.sessions.toList.map fun entry => entry.2.id

theorem Seated.mem_liveIds (hw : w.Seated) {id : SessionId} : id ∈ w.liveIds ↔ w.Knows id := by
  rw [liveIds, List.mem_map, Knows, Option.ne_none_iff_exists']
  constructor
  · rintro ⟨⟨slot, s⟩, hmem, rfl⟩
    exact ⟨slot, hw.find?_id (SlotArena.mem_toList.mp hmem)⟩
  · rintro ⟨slot, hslot⟩
    obtain ⟨s, hs, rfl⟩ := (hw.index_iff id slot).mp hslot
    exact ⟨(slot, s), SlotArena.mem_toList.mpr hs, rfl⟩

theorem Seated.nodup_liveIds (hw : w.Seated) : w.liveIds.Nodup := by
  refine List.pairwise_map.mpr ?_
  have hslots : w.sessions.toList.Pairwise (·.1 ≠ ·.1) :=
    List.pairwise_map.mp w.sessions.slots_nodup
  refine hslots.imp_of_mem ?_
  rintro ⟨slot, s⟩ ⟨slot', s'⟩ hs hs' hne hid
  have hslot := hw.find?_id (SlotArena.mem_toList.mp hs)
  have hslot' := hw.find?_id (SlotArena.mem_toList.mp hs')
  dsimp only at hid
  rw [hid, hslot'] at hslot
  exact hne (Option.some.inj hslot).symm

/-- Every place holds a live session or is free. -/
theorem Seated.length_liveIds_add_free (hw : w.Seated) :
    w.liveIds.length + w.sessions.free.length = w.sessions.capacity := by
  have hplaces := hw.arena.length_slots_add_free
  rwa [SlotArena.slots, List.length_map, ← List.length_map (fun entry => entry.2.id)] at hplaces

/-- **What a command does to the set of live sessions** can be told from its answer. -/
theorem knows_handle (w : Worker b) (command : Command) :
    (w.handle command).2.Knows = command.settle w.Knows (w.handle command).1 := by
  -- Commands other than a create and an end leave the index of sessions alone.
  have hkept : (∀ id sampling, command ≠ .createSession id sampling) →
      (∀ id, command ≠ .endSession id) → (w.handle command).2.Knows = w.Knows := by
    intro hcreate hend
    funext id
    unfold Knows
    rw [(step_handle w command).find?_index
      (fun sampling heq => hcreate id sampling (Action.command.inj heq))
      (fun heq => hend id (Action.command.inj heq)) nofun]
  cases command with
  | createSession id sampling =>
    unfold handle
    dsimp only
    -- A create adds the session if it succeeds, and its answer tells.
    rcases hcreate : w.createSession id sampling with e | ⟨slot, w'⟩
    · rfl
    · obtain ⟨-, -, sessions, -, rfl⟩ := createSession_eq_ok hcreate
      funext other
      unfold Knows
      dsimp only
      rw [SessionIndex.find?_insert, Command.settle]
      by_cases hother : other = id
      · simp [hother]
      · simp [hother]
  | endSession id =>
    -- An end takes the session out whatever it answers.
    have hsettle : ∀ ack, (Command.endSession id).settle w.Knows ack =
        fun other => w.Knows other ∧ other ≠ id := fun _ => rfl
    rw [hsettle]
    funext other
    unfold Knows
    by_cases hother : other = id
    · subst hother
      rw [w.find?_handle_endSession other]
      simp
    · rw [(step_handle w (.endSession id)).find?_index nofun
        (fun heq => hother (Command.endSession.inj (Action.command.inj heq)).symm) nofun]
      simp [hother]
  | _ => exact hkept nofun nofun

end Worker

/-! ### Fleets -/

namespace Host

variable {b : Backend}

/-- The command that is taken up by a step without fitting the sessions that are live. -/
def misfit (h : Host b) (step : ThreadStep) : List Command :=
  match step, h.queue with
  | .takeUp, command :: _ => if command.Fits h.worker.Knows then [] else [command]
  | _, _ => []

/-- The commands that are taken up in the course of some steps without fitting. -/
def misfits (h : Host b) : List ThreadStep → List Command
  | [] => []
  | step :: steps => h.misfit step ++ (h.step step).misfits steps

end Host

/-- What happens while a router waits for an answer. -/
structure Pause where
  /-- The steps that each thread takes, those of the first worker first. -/
  steps : List (List ThreadStep) := []
  /-- Whether the router gives up, even if there is an answer by now. -/
  givesUp : Bool := true
  deriving DecidableEq, Repr

/-- Workers behind their queues, and what is going to happen during waits. -/
structure Fleet (b : Backend) where
  hosts : List (Host b)
  /-- The waits to come. During later ones nothing happens, and the router gives up. -/
  pauses : List Pause := []
  /-- The commands that did not fit when they were taken up. -/
  misfits : List Command := []

/-- What happens next: an operation of the router, or steps of the threads while the router does
nothing. -/
inductive FleetMove where
  | operation (operation : Operation) (pauses : List Pause)
  | threads (steps : List (List ThreadStep))
  deriving DecidableEq, Repr

namespace Fleet

variable {b : Backend}

/-- Every thread takes steps of its own. -/
def run (fleet : Fleet b) (steps : List (List ThreadStep)) : Fleet b :=
  { fleet with
    hosts := fleet.hosts.mapIdx fun index h => h.run (steps.getD index [])
    misfits := fleet.misfits ++
      (fleet.hosts.mapIdx fun index h => h.misfits (steps.getD index [])).flatten }

def ask (index : Nat) (command : Command) (fleet : Fleet b) : Except Error Ack × Fleet b :=
  match fleet.hosts[index]? with
  | none => (.error (Pool.noSuchWorker index), fleet)
  | some h =>
      match h.enqueue command with
      | (.error e, _) => (.error e, fleet)
      | (.ok (), h') =>
          let pause := fleet.pauses.headD {}
          let ack := (h'.await (pause.steps.getD index []) h.queue.length).1
          let sent : Fleet b :=
            { fleet with hosts := fleet.hosts.set index h', pauses := fleet.pauses.tail }
          (if pause.givesUp then .error h.noAnswer
            else ack.elim (.error h.noAnswer) Host.receive,
            sent.run pause.steps)

def post (index : Nat) (command : Command) (fleet : Fleet b) :
    Except Error (Option Ack) × Fleet b :=
  match fleet.hosts[index]? with
  | none => (.error (Pool.noSuchWorker index), fleet)
  | some h =>
      match h.enqueue command with
      | (.error e, _) => (.error e, fleet)
      | (.ok (), h') => (.ok none, { fleet with hosts := fleet.hosts.set index h' })

def clients : Clients (Fleet b) := .over ask post post

end Fleet

namespace Front

variable {b : Backend}

/-- A router in front of workers that have just started, one on each of some contexts. -/
def fleet (contexts : List b.Context) (config : Config) : Front (Fleet b) :=
  let hosts := contexts.mapIdx fun index context =>
    { worker := .start ⟨index⟩ context config.worker
      ackTimeoutMs := config.engine.ackTimeoutMs }
  { router := .ofWorkers (hosts.map Host.id) config, pool := { hosts } }

/-- An operation, with what is going to happen while the router waits for answers. -/
def operate (f : Front (Fleet b)) (operation : Operation) (pauses : List Pause) :
    Except Error Reply × Front (Fleet b) :=
  { f with pool := { f.pool with pauses } }.perform Fleet.clients operation

def moveFleet (f : Front (Fleet b)) : FleetMove → Front (Fleet b)
  | .operation operation pauses => (f.operate operation pauses).2
  | .threads steps => { f with pool := f.pool.run steps }

def playFleet (f : Front (Fleet b)) (moves : List FleetMove) : Front (Fleet b) :=
  moves.foldl moveFleet f

/-- The answers that the router gives in the course of some moves. -/
def answers (f : Front (Fleet b)) : List FleetMove → List (Except Error Reply)
  | [] => []
  | .operation operation pauses :: rest =>
      (f.operate operation pauses).1 :: (f.moveFleet (.operation operation pauses)).answers rest
  | .threads steps :: rest => (f.moveFleet (.threads steps)).answers rest

end Front

/-! ### Hosts that serve -/

namespace Host

variable {b : Backend} {h : Host b} {config : WorkerConfig} {capacity : Nat}
  {live : SessionId → Prop} {command : Command}

/-- A host with a set of live sessions. Of all commands, only those that nobody waits for are in its
queue. -/
structure Serves (config : WorkerConfig) (capacity : Nat) (live : SessionId → Prop)
    (h : Host b) : Prop where
  steady : h.Steady config
  places : h.worker.sessions.capacity = capacity
  knows : h.worker.Knows = live
  queued : ∀ command ∈ h.queue, ∃ id budget room, command = .generate id budget room ∧ live id

theorem apply_fst (h : Host b) (command : Command) :
    (h.apply command).1 = (h.worker.handle command).1 := by
  unfold apply
  dsimp only
  split_ifs <;> rfl

theorem misfit_takeUp {first : Command} {rest : List Command} (hqueue : h.queue = first :: rest)
    (hfits : first.Fits h.worker.Knows) : h.misfit .takeUp = [] := by
  unfold misfit
  rw [hqueue]
  exact if_pos hfits

theorem misfit_of_ne {step : ThreadStep} (hstep : step ≠ .takeUp) : h.misfit step = [] := by
  unfold misfit
  split
  · exact absurd rfl hstep
  · rfl

namespace Serves

/-- An action that neither creates nor ends a session. -/
theorem act (hh : h.Serves config capacity live) {action : Action}
    (hcreate : ∀ id sampling, action ≠ .command (.createSession id sampling))
    (hend : ∀ id, action ≠ .command (.endSession id)) (hshutdown : action ≠ .shutdown) :
    { h with worker := h.worker.act action }.Serves config capacity live where
  steady := hh.steady.act action
  places := (Worker.step_act h.worker action).length_entries.trans hh.places
  knows := by
    rw [← hh.knows]
    funext id
    unfold Worker.Knows
    rw [(Worker.step_act h.worker action).find?_index (hcreate id) (hend id) hshutdown]
  queued := hh.queued

theorem takeUp (hh : h.Serves config capacity live) {first : Command} {rest : List Command}
    (hqueue : h.queue = first :: rest) :
    first.Fits live ∧ (h.step .takeUp).Serves config capacity live ∧
      (h.step .takeUp).queue = rest := by
  obtain ⟨id, budget, room, rfl, hid⟩ := hh.queued first (hqueue ▸ List.mem_cons_self)
  have hact : Serves config capacity live
      { h with worker := h.worker.act (.command (.generate id budget room)) } :=
    hh.act nofun nofun nofun
  have hstep : h.step .takeUp =
      { h with worker := h.worker.act (.command (.generate id budget room)), queue := rest } := by
    rw [Host.step, takeUp_cons hqueue, apply_snd _ Command.noConfusion]
    rfl
  have hrest : ∀ command ∈ rest, command ∈ h.queue := fun command hmem =>
    hqueue ▸ List.mem_cons_of_mem _ hmem
  rw [hstep]
  exact ⟨hid, ⟨{ hact.steady with running := fun hmem => hh.steady.running (hrest _ hmem) },
    hact.places, hact.knows, fun command hmem => hh.queued command (hrest command hmem)⟩, rfl⟩

/-- **No step of its thread changes what a host serves**, and what it takes up fits. -/
theorem step (hh : h.Serves config capacity live) (step : ThreadStep) :
    (h.step step).Serves config capacity live ∧ h.misfit step = [] := by
  by_cases hstep : step = .takeUp
  · subst hstep
    cases hqueue : h.queue with
    | nil =>
      have hsame : h.step .takeUp = h := by rw [Host.step, takeUp_nil hqueue]
      refine ⟨hsame.symm ▸ hh, ?_⟩
      unfold misfit
      rw [hqueue]
    | cons first rest =>
      obtain ⟨hfits, hserves, -⟩ := hh.takeUp hqueue
      exact ⟨hserves, misfit_takeUp hqueue (hh.knows ▸ hfits)⟩
  · obtain ⟨action, hcommand, hshutdown, hact⟩ := step_eq_act (b := b) hstep
    rw [hact]
    exact ⟨hh.act (fun _ _ => hcommand _) (fun _ => hcommand _) hshutdown, misfit_of_ne hstep⟩

theorem run (hh : h.Serves config capacity live) (steps : List ThreadStep) :
    (h.run steps).Serves config capacity live ∧ h.misfits steps = [] := by
  induction steps generalizing h with
  | nil => exact ⟨hh, rfl⟩
  | cons step steps ih =>
    obtain ⟨hstep, hfits⟩ := hh.step step
    obtain ⟨hrun, hrest⟩ := ih hstep
    rw [misfits, hfits, hrest]
    exact ⟨hrun, rfl⟩

/-- A command that reaches an empty queue changes what is served as its answer tells. -/
theorem apply (hh : h.Serves config capacity live) (hempty : h.queue = [])
    (hcommand : command ≠ .shutdown) :
    (h.apply command).2.Serves config capacity (command.settle live (h.apply command).1) where
  steady := hh.steady.apply hcommand
  places := by
    rw [apply_snd h hcommand]
    exact (Worker.step_act h.worker (.command command)).length_entries.trans hh.places
  knows := by
    rw [apply_snd h hcommand, apply_fst, ← hh.knows]
    exact h.worker.knows_handle command
  queued := by
    rw [apply_snd h hcommand]
    show ∀ first ∈ h.queue, _
    rw [hempty]
    exact nofun

theorem push_generate (hh : h.Serves config capacity live) {id : SessionId} (hid : live id)
    (budget room : Nat) : (h.push (.generate id budget room)).Serves config capacity live where
  steady := hh.steady.push Command.noConfusion
  places := hh.places
  knows := hh.knows
  queued command hmem := by
    rcases List.mem_append.mp hmem with hmem | hmem
    · exact hh.queued command hmem
    · exact ⟨id, budget, room, List.mem_singleton.mp hmem, hid⟩

/-- A command that fits when it is sent fits when it is taken up. -/
theorem misfits_push (hh : h.Serves config capacity live) (hfits : command.Fits live)
    (hcommand : command ≠ .shutdown) (steps : List ThreadStep) :
    (h.push command).misfits steps = [] := by
  induction steps generalizing h with
  | nil => rfl
  | cons step steps ih =>
    by_cases hstep : step = .takeUp
    · subst hstep
      cases hqueue : h.queue with
      | nil =>
        -- The command is the first in the queue, and the last.
        have hpush : (h.push command).queue = [command] := by rw [push, hqueue, List.nil_append]
        have hbare : { h.push command with queue := [] } = h := by rw [push, ← hqueue]
        have hfirst : (h.push command).misfit .takeUp = [] :=
          misfit_takeUp hpush (hh.knows ▸ hfits)
        have htaken : (h.push command).step .takeUp = (h.apply command).2 := by
          rw [Host.step, takeUp_cons hpush, hbare]
        rw [misfits, hfirst, htaken, ((hh.apply hqueue hcommand).run steps).2]
        rfl
      | cons first rest =>
        obtain ⟨hfirst, hserves, -⟩ := hh.takeUp hqueue
        have hpush : (h.push command).queue = first :: (rest ++ [command]) := by
          rw [push, hqueue, List.cons_append]
        have hrunning : first ≠ .shutdown := fun heq =>
          hh.steady.running (hqueue ▸ heq ▸ List.mem_cons_self)
        have htaken : (h.push command).step .takeUp = (h.step .takeUp).push command :=
          takeUp_push hqueue hrunning command
        rw [misfits, misfit_takeUp hpush (hh.knows ▸ hfirst), htaken, ih hserves]
        rfl
    · rw [misfits, misfit_of_ne hstep, step_push h hstep, ih (hh.step step).1]
      rfl

/-- **An answer comes from a host that has worked off its queue**, and tells what it serves from
then on. -/
theorem await (hh : h.Serves config capacity live) (hcommand : command ≠ .shutdown)
    {steps : List ThreadStep} {ack : Ack}
    (hack : ((h.push command).await steps h.queue.length).1 = some ack) :
    ∃ host : Host b, host.Serves config capacity live ∧
      ack = (host.apply command).1 ∧
      ((h.push command).run steps).Serves config capacity (command.settle live ack) := by
  obtain ⟨before, after, hempty, rfl, heq⟩ := await_push hh.steady.running hack
  have hbefore := (hh.run before).1
  rw [heq]
  exact ⟨h.run before, hbefore, rfl, ((hbefore.apply hempty hcommand).run after).1⟩

end Serves

end Host

/-! ### Fleets that serve -/

namespace Fleet

variable {b : Backend} {fleet : Fleet b} {config : WorkerConfig} {capacity index : Nat}
  {live live' : Nat → SessionId → Prop} {command : Command}

/-- Every worker serves its sessions, and no command has failed to fit. -/
structure Serves (config : WorkerConfig) (capacity : Nat) (live : Nat → SessionId → Prop)
    (fleet : Fleet b) : Prop where
  hosts : ∀ (index : Nat) (h : Host b), fleet.hosts[index]? = some h →
    h.Serves config capacity (live index)
  fitting : fleet.misfits = []

theorem length_run (fleet : Fleet b) (steps : List (List ThreadStep)) :
    (fleet.run steps).hosts.length = fleet.hosts.length :=
  List.length_mapIdx

/-- Threads go on each by itself. -/
theorem serves_run (hfitting : fleet.misfits = []) (steps : List (List ThreadStep))
    (hrun : ∀ (index : Nat) (h : Host b), fleet.hosts[index]? = some h →
      (h.run (steps.getD index [])).Serves config capacity (live index) ∧
        h.misfits (steps.getD index []) = []) :
    (fleet.run steps).Serves config capacity live where
  hosts index h hh := by
    rw [run, List.getElem?_mapIdx] at hh
    obtain ⟨h₀, hh₀, rfl⟩ := Option.map_eq_some_iff.mp hh
    exact (hrun index h₀ hh₀).1
  fitting := by
    rw [run, hfitting, List.nil_append, List.flatten_eq_nil_iff]
    intro commands hmem
    obtain ⟨index, hindex, rfl⟩ := List.mem_mapIdx.mp hmem
    exact (hrun index _ (List.getElem?_eq_getElem hindex)).2

theorem Serves.run (hf : fleet.Serves config capacity live) (steps : List (List ThreadStep)) :
    (fleet.run steps).Serves config capacity live :=
  serves_run hf.fitting steps fun index h hh => (hf.hosts index h hh).run _

theorem length_ask (fleet : Fleet b) (index : Nat) (command : Command) :
    (fleet.ask index command).2.hosts.length = fleet.hosts.length := by
  unfold ask
  split
  · rfl
  · split
    · rfl
    · exact (length_run ..).trans List.length_set

theorem length_post (fleet : Fleet b) (index : Nat) (command : Command) :
    (fleet.post index command).2.hosts.length = fleet.hosts.length := by
  unfold post
  split
  · rfl
  · split
    · rfl
    · exact List.length_set

/-- **Three ways in which a request can go**: the router gives up, there is no room in the queue, or
the worker answers. An answer changes what this worker serves as it tells; nothing else changes. -/
theorem Serves.ask (hf : fleet.Serves config capacity live) (hindex : index < fleet.hosts.length)
    (hfits : command.Fits (live index)) (hcommand : command ≠ .shutdown) :
    (∃ detail, (fleet.ask index command).1 = .error (.timeout detail)) ∨
      (∃ detail, fleet.ask index command = (.error (.queueFull detail), fleet)) ∨
      ∃ host : Host b, host.Serves config capacity (live index) ∧
        (fleet.ask index command).1 = Host.receive (host.apply command).1 ∧
        (fleet.ask index command).2.Serves config capacity (Function.update live index
          (command.settle (live index) (host.apply command).1)) := by
  have hh : fleet.hosts[index]? = some fleet.hosts[index] := List.getElem?_eq_getElem hindex
  generalize fleet.hosts[index] = h at hh
  have hserves := hf.hosts index h hh
  unfold Fleet.ask
  rw [hh]
  dsimp only
  rw [Host.enqueue_eq hserves.steady.serving]
  -- Without room the command is not sent; with room the router may still give up waiting, or wait
  -- until the thread has taken the command up.
  by_cases hroom : h.queue.length < h.worker.config.commandQueueSize
  · rw [if_pos hroom]
    dsimp only
    generalize fleet.pauses.headD {} = pause
    by_cases hgives : pause.givesUp = true
    · rw [if_pos hgives]
      exact .inl ⟨_, rfl⟩
    · rw [if_neg hgives]
      cases hack : ((h.push command).await (pause.steps.getD index []) h.queue.length).1 with
      | none => exact .inl ⟨_, rfl⟩
      | some ack =>
        -- The thread has come to the command: this worker has handled it, and the others did what
        -- they did in the meantime.
        obtain ⟨host, hhost, rfl, hafter⟩ := hserves.await hcommand hack
        refine .inr (.inr ⟨host, hhost, rfl, serves_run ?_ _ fun other h' hh' => ?_⟩)
        · exact hf.fitting
        rw [List.getElem?_set] at hh'
        split_ifs at hh' with heq
        · obtain rfl := Option.some.inj hh'
          subst heq
          rw [Function.update_self]
          exact ⟨hafter, hserves.misfits_push hfits hcommand _⟩
        · rw [Function.update_of_ne (Ne.symm heq)]
          exact (hf.hosts other h' hh').run _
  · rw [if_neg hroom]
    exact .inr (.inl ⟨_, rfl⟩)

/-- A request to generate is put into the queue, if there is room. -/
theorem Serves.post (hf : fleet.Serves config capacity live) (hindex : index < fleet.hosts.length)
    {id : SessionId} (hlive : live index id) (budget room : Nat) :
    (∃ detail, fleet.post index (.generate id budget room) =
        (.error (.queueFull detail), fleet)) ∨
      (fleet.post index (.generate id budget room)).1 = .ok none ∧
        (fleet.post index (.generate id budget room)).2.Serves config capacity live := by
  have hh : fleet.hosts[index]? = some fleet.hosts[index] := List.getElem?_eq_getElem hindex
  generalize fleet.hosts[index] = h at hh
  have hserves := hf.hosts index h hh
  unfold Fleet.post
  rw [hh]
  dsimp only
  rw [Host.enqueue_eq hserves.steady.serving]
  by_cases hroom : h.queue.length < h.worker.config.commandQueueSize
  · rw [if_pos hroom]
    refine .inr ⟨rfl, fun other h' hh' => ?_, hf.fitting⟩
    change (fleet.hosts.set index _)[other]? = some h' at hh'
    rw [List.getElem?_set] at hh'
    split_ifs at hh' with heq
    · obtain rfl := Option.some.inj hh'
      exact heq ▸ hserves.push_generate hlive budget room
    · exact hf.hosts other h' hh'
  · rw [if_neg hroom]
    exact .inl ⟨_, rfl⟩

end Fleet

end Turnwise
