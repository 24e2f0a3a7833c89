import Mathlib.Data.Finset.Card
import Turnwise.Proofs.ByteModel
import Turnwise.Proofs.Worker.Treatment

/-!
# Fairness of decoding

A session that waits for a token gets it soon, whatever happens to the other sessions. The window is
any list of actions, with commands, consumers and ticks in any order; `Worker.decodeStages` are the
states of the worker in which the ticks of the window plan their decode batches.

The argument counts turns. As long as the session is passed over, every batch is full, and nobody is
served twice: who was served is behind the session in the order of service and stays there until the
session has had its turn (`Rotation.passed_over`). So passing the session over in all the ticks of a
window takes as many other slots as there are places in its batches.
-/

namespace Turnwise.Worker

variable {b : Backend} {w : Worker b} {id : SessionId} {slot : Slot}

/-- The worker at the decode stages of the ticks in a list of actions. -/
def decodeStages (w : Worker b) : List Action → List (Worker b)
  | [] => []
  | .tick :: rest => w.decodeStage :: w.tick.worker.decodeStages rest
  | action :: rest => (w.act action).decodeStages rest

theorem decodeStages_cons_of_ne {action : Action} (h : action ≠ .tick) (rest : List Action) :
    w.decodeStages (action :: rest) = (w.act action).decodeStages rest := by
  cases action with
  | tick => exact absurd rfl h
  | _ => rfl

/-- Every tick has a decode stage. -/
theorem decodeStages_ne_nil {window : List Action} (h : .tick ∈ window) :
    w.decodeStages window ≠ [] := by
  induction window generalizing w with
  | nil => exact absurd h List.not_mem_nil
  | cons action rest ih =>
    by_cases htick : action = .tick
    · rw [htick]
      exact List.cons_ne_nil _ _
    · rw [decodeStages_cons_of_ne htick]
      exact ih ((List.mem_cons.mp h).resolve_left (Ne.symm htick))

/-- The session of this name is in the slot, and its decode input is all that it has pending. -/
def awaitsTurn (w : Worker b) (id : SessionId) (slot : Slot) : Bool :=
  (w.sessions.get? slot).any fun s => s.id == id && s.decodeReady

theorem awaitsTurn_iff :
    w.awaitsTurn id slot = true ↔
      ∃ s, w.sessions.get? slot = some s ∧ s.id = id ∧ s.decodeReady = true := by
  rw [awaitsTurn, Option.any_eq_true]
  simp only [Bool.and_eq_true, beq_iff_eq]

/-- The slots whose sessions the next decode batch serves. -/
def turns (w : Worker b) : List Slot := w.decodeServed.map Prod.fst

theorem turns_subset : w.turns ⊆ w.decodeSlots := by
  rw [turns, decodeServed_slots]
  exact fun slot hslot => (w.decodeCursor.order_perm _).subset (List.mem_of_mem_take hslot)

/-- A session whose slot has a turn is in the batch. -/
theorem mem_owners (hwaits : w.awaitsTurn id slot = true) (hturn : slot ∈ w.turns) :
    ∃ plan, w.planDecode = .ok (some plan) ∧ id ∈ plan.batch.owners := by
  obtain ⟨s, hs, rfl, -⟩ := awaitsTurn_iff.mp hwaits
  have hready : w.decodeSlots ≠ [] := List.ne_nil_of_mem (turns_subset hturn)
  obtain ⟨⟨slot, s'⟩, hserved, rfl⟩ := List.mem_map.mp hturn
  obtain rfl := Option.some.inj (hs.symm.trans (mem_decodeServed hserved).1)
  refine ⟨w.decodePlan, by rw [planDecode_eq, if_neg hready], ?_⟩
  exact List.mem_map_of_mem (f := fun entry => entry.2.id) hserved

theorem cursor_decodePlan (w : Worker b) :
    w.decodePlan.cursor = w.turns.foldl Rotation.resumeAfter w.decodeCursor := by
  rw [decodePlan, turns, List.foldl_map]

/-- One decode stage that passes over a slot: its batch is full, and the cursor has not gone past
the slot. -/
theorem stage_of_passed_over (hw : w.Seated) (hbound : 1 ≤ w.config.batching.maxDecodeSequences)
    (hwaits : slot ∈ w.decodeStage.decodeSlots) (hpassed : slot ∉ w.decodeStage.turns) :
    w.decodeStage.turns.length = w.config.batching.maxDecodeSequences ∧
      (∀ served ∈ w.decodeStage.turns, w.decodeCursor.Before served slot) ∧
      ∀ other, w.tick.worker.decodeCursor.Before other slot →
        w.decodeCursor.Before other slot ∧ other ∉ w.decodeStage.turns := by
  obtain ⟨hconfig, hcursor⟩ := w.course_decodeStage
  have hturns : w.decodeStage.turns = (w.decodeCursor.order w.decodeStage.decodeSlots).take
      w.config.batching.maxDecodeSequences := by
    rw [turns, decodeServed_slots, hcursor, hconfig]
  rw [hw.course_tick.2, cursor_decodePlan, hcursor, hturns]
  rw [hturns] at hpassed
  exact w.decodeCursor.passed_over (slotsWhere_nodup _) hwaits hbound hpassed

/-- **Passing a slot over in a whole window takes many others.** The turns of the window are turns
of different slots, all of them before this one in the order of service, and the batches are
full. -/
theorem turns_of_passed_over (hw : w.Seated)
    (hbound : 1 ≤ w.config.batching.maxDecodeSequences) {window : List Action}
    (hwaits : ∀ stage ∈ w.decodeStages window, slot ∈ stage.decodeSlots)
    (hpassed : ∀ stage ∈ w.decodeStages window, slot ∉ stage.turns) :
    ((w.decodeStages window).flatMap turns).length =
        window.count .tick * w.config.batching.maxDecodeSequences ∧
      ((w.decodeStages window).flatMap turns).Nodup ∧
      ∀ served ∈ (w.decodeStages window).flatMap turns, w.decodeCursor.Before served slot := by
  -- By induction on the window, from each tick to the rest of it.
  induction window generalizing w with
  | nil => exact ⟨by simp [decodeStages], List.nodup_nil, nofun⟩
  | cons action rest ih =>
    by_cases htick : action = .tick
    · obtain rfl := htick
      rw [decodeStages, List.forall_mem_cons] at hwaits hpassed
      have hconfig := hw.course_tick.1
      -- The tick passes the slot over, so its batch is full of slots before this one, and the
      -- cursor moves past them.
      obtain ⟨hfull, hbefore, hnext⟩ := stage_of_passed_over hw hbound hwaits.1 hpassed.1
      obtain ⟨hlength, hnodup, hlater⟩ := ih (w := w.tick.worker) (Step.tick.seated hw)
        (by rwa [hconfig]) hwaits.2 hpassed.2
      rw [decodeStages, List.flatMap_cons, List.count_cons_self]
      refine ⟨?_, List.nodup_append.mpr ⟨decodeServed_nodup, hnodup, ?_⟩, fun served hserved => ?_⟩
      · rw [List.length_append, hfull, hlength, hconfig, Nat.succ_mul, Nat.add_comm]
      -- Who is served later is before the slot even then, and those who were served now are not.
      · intro served hserved other hother heq
        exact (hnext other (hlater other hother)).2 (heq ▸ hserved)
      · rcases List.mem_append.mp hserved with hnow | hthen
        · exact hbefore served hnow
        · exact (hnext served (hlater served hthen)).1
    -- Between ticks the cursor stands still.
    · rw [decodeStages_cons_of_ne htick] at hwaits hpassed ⊢
      have hcourse := (step_act w action).keepsCourse htick
      have hrest := ih ((step_act w action).seated hw) (by rwa [hcourse.config]) hwaits hpassed
      rwa [hcourse.config, hcourse.decodeCursor, ← List.count_cons_of_ne htick] at hrest

/-- **Decoding is fair, also while sessions come and go.** Suppose that in a window of ticks, with
any actions between them, a session waits for a token at every decode stage, and that the batches of
the window have as many places as slots wait in it at one time or another. Then the session is in
one of the batches. A session does not leave its slot while it lives; that the slot is the same at
all stages says that so is the session, and not a later one of the same name. -/
theorem decode_fair_run (worker : WorkerId) (context : b.Context) (config : WorkerConfig)
    (hbound : 1 ≤ config.batching.maxDecodeSequences) (actions window : List Action)
    (hticks : .tick ∈ window) (id : SessionId) (slot : Slot) :
    let stages := ((start worker context config).run actions).decodeStages window
    (∀ stage ∈ stages, stage.awaitsTurn id slot = true) →
      (stages.flatMap decodeSlots).toFinset.card ≤
        window.count .tick * config.batching.maxDecodeSequences →
      ∃ stage ∈ stages, ∃ plan,
        stage.planDecode = .ok (some plan) ∧ id ∈ plan.batch.owners := by
  intro stages hwaits hcard
  have hw : ((start worker context config).run actions).Seated := seated_run ..
  have hconfig : ((start worker context config).run actions).config = config :=
    (seated_start worker context config).config_run actions
  by_contra hnone
  have hready : ∀ stage ∈ stages, slot ∈ stage.decodeSlots := by
    intro stage hstage
    obtain ⟨s, hs, -, hready⟩ := awaitsTurn_iff.mp (hwaits stage hstage)
    exact mem_slotsWhere.mpr ⟨s, hs, hready⟩
  have hpassed : ∀ stage ∈ stages, slot ∉ stage.turns := fun stage hstage hturn =>
    hnone ⟨stage, hstage, mem_owners (hwaits stage hstage) hturn⟩
  obtain ⟨hlength, hnodup, hbefore⟩ :=
    turns_of_passed_over hw (by rwa [hconfig]) hready hpassed
  rw [hconfig] at hlength
  -- All who were served have waited, and so has the slot itself, which was not served.
  let seen := slot :: stages.flatMap turns
  have hseen : seen.Nodup := List.nodup_cons.mpr
    ⟨fun hmem => Rotation.not_before_self _ slot (hbefore slot hmem), hnodup⟩
  have hwaited : seen.toFinset ⊆ (stages.flatMap decodeSlots).toFinset := by
    intro other hother
    rw [List.mem_toFinset] at hother ⊢
    rcases List.mem_cons.mp hother with rfl | hserved
    · obtain ⟨stage, hstage⟩ := List.exists_mem_of_ne_nil stages (decodeStages_ne_nil hticks)
      exact List.mem_flatMap.mpr ⟨stage, hstage, hready stage hstage⟩
    · obtain ⟨stage, hstage, hturn⟩ := List.mem_flatMap.mp hserved
      exact List.mem_flatMap.mpr ⟨stage, hstage, turns_subset hturn⟩
  have hmany := Finset.card_le_card hwaited
  rw [List.toFinset_card_of_nodup hseen, List.length_cons] at hmany
  change (stages.flatMap turns).length = _ at hlength
  omega

/-- Commands that leave three sessions waiting for tokens. -/
def threeWaiting : List Action :=
  [.command (.createSession ⟨1⟩ {}), .command (.createSession ⟨2⟩ {}),
    .command (.createSession ⟨3⟩ {}), .command (.appendInput ⟨1⟩ "a"),
    .command (.appendInput ⟨2⟩ "b"), .command (.appendInput ⟨3⟩ "c"),
    .command (.generate ⟨1⟩ 5 8), .command (.generate ⟨2⟩ 5 8), .command (.generate ⟨3⟩ 5 8)]

/-- Three ticks, and between them the first session ends and another one waits in its slot. -/
def replacedBetweenTicks : List Action :=
  [.tick, .command (.endSession ⟨1⟩), .command (.createSession ⟨4⟩ {}), .tick,
    .command (.appendInput ⟨4⟩ "d"), .command (.generate ⟨4⟩ 5 8), .command (.cancel ⟨2⟩), .tick]

/-- Three slots wait at one time or another and a batch has one place, so three ticks are enough for
the last session, whoever is in the other two slots. -/
theorem decode_fair_run_replaced :
    ∃ stage ∈ ((start ⟨0⟩ (ByteModel.Context.mk [[], [], []])
        { batching := { maxDecodeSequences := 1 } } : Worker (ByteModel.backend {})).run
          threeWaiting).decodeStages replacedBetweenTicks,
      ∃ plan, stage.planDecode = .ok (some plan) ∧ ⟨3⟩ ∈ plan.batch.owners := by
  have hfair := decode_fair_run (b := ByteModel.backend {}) ⟨0⟩
    (ByteModel.Context.mk [[], [], []]) { batching := { maxDecodeSequences := 1 } } (by decide)
    threeWaiting replacedBetweenTicks (by decide) ⟨3⟩ ⟨2⟩
  refine hfair (List.all_eq_true.mp ?_) ?_
  · decide +kernel
  · decide +kernel

end Turnwise.Worker
