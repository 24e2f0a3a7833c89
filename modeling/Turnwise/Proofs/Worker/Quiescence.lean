import Mathlib.Algebra.Order.BigOperators.Group.Finset
import Turnwise.Proofs.Worker.Treatment
import Turnwise.Worker.Run

/-!
# Quiescence

A worker that gets no more commands comes to rest. `Worker.workLeft` is the measure: the tokens that
prefill may still write and those that generations may still produce. No stage of a tick makes it
larger for any session. A turn of decoding queues a token for the one that it writes, but it spends
a token of the budget; a failed call takes tokens or a whole generation away.

That a tick makes it smaller needs that nothing with work left is stuck. A generation with an empty
queue or without budget would be served by neither stage, so every generation must be
`Session.Schedulable`. Then a tick with work left ends a generation in the sweep, or it writes a
share, or, if there is nothing to prefill, some generation is ready to decode (`workLeft_tick_lt`).
-/

namespace Turnwise

/-! ### Work of a session -/

namespace Session

variable {s s' : Session} {g : Generation}

/-- The tokens of a session that prefill may write and those that its generation may produce. -/
def work (s : Session) : Nat := s.prefillReady + (s.generation.map Generation.budget).getD 0

/-- A generation has something to write and something to produce. -/
def Schedulable (s : Session) : Prop :=
  ∀ g, s.generation = some g → s.pending ≠ [] ∧ 0 < g.budget

theorem work_of_generation (hg : s.generation = some g) : s.work = s.prefillReady + g.budget := by
  rw [work, hg, Option.map_some, Option.getD_some]

theorem work_of_idle (h : s.generation = none) : s.work = s.prefillReady := by
  rw [work, h, Option.map_none, Option.getD_none, Nat.add_zero]

theorem work_idle (s : Session) : s.idle.work = s.prefillReady := work_of_idle rfl

theorem work_idle_le (s : Session) : s.idle.work ≤ s.work := by
  rw [work_idle]
  exact Nat.le_add_right ..

theorem Schedulable.work_idle_lt (h : s.Schedulable) (hg : s.generation = some g) :
    s.idle.work < s.work := by
  have hbudget := (h g hg).2
  rw [work_idle, work_of_generation hg]
  omega

theorem Schedulable.work_eq_zero_iff (h : s.Schedulable) :
    s.work = 0 ↔ s.generation = none ∧ s.prefillReady = 0 := by
  cases hg : s.generation with
  | none =>
    rw [work_of_idle hg]
    simp
  | some g =>
    have hbudget := (h g hg).2
    rw [work_of_generation hg]
    simp only [reduceCtorEq, false_and, iff_false]
    omega

theorem prefillReady_commitPrefill (s : Session) (count : Nat) :
    (s.commitPrefill count).prefillReady = s.prefillReady - count := by
  simp only [prefillReady, commitPrefill, List.length_drop]
  omega

theorem prefillReady_discardPending (s : Session) (count : Nat) :
    (s.discardPending count).prefillReady = s.prefillReady - count :=
  s.prefillReady_commitPrefill count

end Session

/-- The actions that ask a worker for nothing new: its ticks, and what its consumers do. -/
def Action.asksNothing : Action → Bool
  | .tick | .read _ _ | .drop _ => true
  | _ => false

theorem Generation.budget_advance (b : Backend) (g : Generation) (token : Token)
    (stream : Stream) : (g.advance b token stream).2.1.budget = g.budget - 1 := by
  obtain ⟨decoder, hspend⟩ := g.exists_spend_of_advance b token stream
  rw [hspend]
  rfl

/-! ### What the stages leave of it -/

/-- Each token of a share is one less to write, whether it was written or lost. -/
theorem AfterPrefill.work_add_le {s s' : Session} {count : Nat} (h : AfterPrefill s count s')
    (hcount : count ≤ s.prefillReady) : s'.work + count ≤ s.work := by
  cases h with
  | written =>
    have hready := s.prefillReady_commitPrefill count
    show (s.commitPrefill count).prefillReady + _ + count ≤ s.prefillReady + _
    have hbudget : (s.commitPrefill count).generation = s.generation := rfl
    rw [hbudget]
    omega
  | lost cause =>
    have hready := s.prefillReady_discardPending count
    unfold Session.lose
    cases hg : s.generation with
    | some g =>
      rw [Session.work_of_generation hg]
      dsimp only
      rw [Session.work_idle]
      omega
    | none =>
      have hidle : Session.work { s.discardPending count with inputError := some cause } =
          (s.discardPending count).prefillReady := Session.work_of_idle hg
      rw [Session.work_of_idle hg]
      dsimp only at hidle ⊢
      omega

/-- A turn of decoding leaves one token where it found one, and spends one of the budget. -/
theorem AfterDecode.work_lt {b : Backend} {s s' : Session} (h : AfterDecode b s s')
    (hready : s.decodeReady = true) : s'.work < s.work := by
  obtain ⟨g, hg, hbudget⟩ := Session.active_of_decodeReady hready
  have hinput := Session.pending_of_decodeReady hready
  have hwork := Session.work_of_generation hg
  have hnone : s.prefillReady = 0 := by rw [Session.prefillReady, hinput]; rfl
  cases h with
  | failed =>
    rw [Session.work_idle]
    omega
  | @served g' hg' stream logits =>
    obtain rfl := Option.some.inj (hg.symm.trans hg')
    rcases hsample : s.sampler.sample logits with e | ⟨token, sampler⟩
    · rw [Session.accept_of_error hsample, Session.commitDecode_of_pending hinput,
        Session.work_idle]
      change 0 < s.work
      omega
    · have hspent := g.budget_advance b token stream
      rcases hadvance : g.advance b token stream with ⟨_ | event, g', stream'⟩
      · rw [hadvance] at hspent
        rw [Session.accept_of_none hinput hsample hadvance]
        change 0 + g'.budget < s.work
        change g'.budget = g.budget - 1 at hspent
        omega
      · rw [Session.accept_of_some hsample hadvance, Session.commitDecode_of_pending hinput,
          Session.work_idle]
        change 0 < s.work
        omega

/-! ### Generations are schedulable -/

theorem Session.Schedulable.idle {s : Session} : s.idle.Schedulable := nofun

theorem Session.Touched.schedulable {s s' : Session} (h : s.Touched s') (hs : s.Schedulable) :
    s'.Schedulable := by
  cases h with
  | same => exact hs
  | queued tokens =>
    intro g hg
    obtain ⟨hpending, hbudget⟩ := hs g hg
    exact ⟨List.append_ne_nil_of_left_ne_nil hpending _, hbudget⟩
  | told hidle => exact fun g hg => nomatch hidle.symm.trans hg
  | @started g hidle herror hpending hbudget =>
    intro g' hg'
    obtain rfl := Option.some.inj hg'
    exact ⟨hpending, hbudget⟩
  | cancelled =>
    unfold Session.cancel
    split
    · rename_i g hg
      intro g' hg'
      obtain rfl := Option.some.inj hg'
      exact hs g hg
    · exact hs

/-- The last pending token is never prefilled, so a generation keeps its decode input. -/
theorem AfterPrefill.schedulable {s s' : Session} {count : Nat} (h : AfterPrefill s count s')
    (hcount : count ≤ s.prefillReady) (hs : s.Schedulable) : s'.Schedulable := by
  cases h with
  | written =>
    intro g hg
    obtain ⟨hpending, hbudget⟩ := hs g hg
    have hpos := List.length_pos_iff.mpr hpending
    refine ⟨?_, hbudget⟩
    show s.pending.drop count ≠ []
    unfold Session.prefillReady at hcount
    rw [Ne, List.drop_eq_nil_iff]
    omega
  | lost cause =>
    unfold Session.lose
    split
    · exact .idle
    · rename_i hg
      exact fun g hg' => nomatch hg.symm.trans hg'

theorem AfterDecode.schedulable {b : Backend} {s s' : Session} (h : AfterDecode b s s')
    (hready : s.decodeReady = true) : s'.Schedulable := by
  cases h with
  | failed => exact .idle
  | @served g hg stream logits =>
    rcases Session.accept_fst (b := b) (g := g) (Session.pending_of_decodeReady hready) stream
        logits with ⟨e, -, heq⟩ | ⟨token, sampler, generation, -, heq, hbudget⟩
    · rw [heq]
      exact nofun
    · rw [heq]
      exact fun g' hg' => ⟨List.cons_ne_nil _ _, hbudget g' hg'⟩

/-! ### Work of a worker -/

/-- A sum over the values of an arena, counted up one by one, is a sum over its places. -/
theorem SlotArena.foldl_toList {α : Type} (arena : SlotArena α) (f : α → Nat) :
    arena.toList.foldl (fun sum entry => sum + f entry.2) 0 =
      ∑ i ∈ Finset.range arena.entries.length, ((arena.get? ⟨i⟩).map f).getD 0 := by
  have htotal : arena.toList.foldl (fun sum entry => sum + f entry.2) 0 = arena.total f := by
    rw [total, List.sum_eq_foldl, List.foldl_map]
  exact htotal.trans (arena.total_eq_sum f)

namespace Worker

variable {b : Backend} {w w' w'' : Worker b} {t : Turn b} {slot : Slot}

theorem sessionRule_schedulable (b : Backend) : SessionRule b Session.Schedulable where
  created _ _ _ := nofun
  touched htouched h := htouched.schedulable h
  idle _ := .idle
  prefilled hcount hafter h := hafter.schedulable hcount h
  decoded hready hafter _ := hafter.schedulable hready

/-- The work in a slot. -/
def workAt (w : Worker b) (slot : Slot) : Nat := ((w.sessions.get? slot).map Session.work).getD 0

theorem workAt_of_get? {s : Session} (hs : w.sessions.get? slot = some s) :
    w.workAt slot = s.work := by
  rw [workAt, hs, Option.map_some, Option.getD_some]

theorem workLeft_eq_sum (w : Worker b) :
    w.workLeft = ∑ i ∈ Finset.range w.sessions.entries.length, w.workAt ⟨i⟩ :=
  w.sessions.foldl_toList Session.work

theorem exists_of_workAt_pos (h : 0 < w.workAt slot) :
    ∃ s, w.sessions.get? slot = some s ∧ 0 < s.work := by
  cases hs : w.sessions.get? slot with
  | none =>
    rw [workAt, hs] at h
    exact absurd h (Nat.lt_irrefl 0)
  | some s => exact ⟨s, rfl, workAt_of_get? hs ▸ h⟩

/-- Nobody has more to do than before. -/
structure Eases (w w' : Worker b) : Prop where
  places : w'.sessions.entries.length = w.sessions.entries.length
  workAt_le : ∀ slot, w'.workAt slot ≤ w.workAt slot

namespace Eases

theorem trans (h : Eases w w') (h' : Eases w' w'') : Eases w w'' where
  places := h'.places.trans h.places
  workAt_le slot := (h'.workAt_le slot).trans (h.workAt_le slot)

theorem of_sessions (hplaces : w'.sessions.entries.length = w.sessions.entries.length)
    (h : ∀ slot s', w'.sessions.get? slot = some s' →
      ∃ s, w.sessions.get? slot = some s ∧ s'.work ≤ s.work) : Eases w w' where
  places := hplaces
  workAt_le slot := by
    cases hs' : w'.sessions.get? slot with
    | none =>
      rw [workAt, hs']
      exact Nat.zero_le _
    | some s' =>
      obtain ⟨s, hs, hle⟩ := h slot s' hs'
      rwa [workAt_of_get? hs', workAt_of_get? hs]

theorem workLeft_le (h : Eases w w') : w'.workLeft ≤ w.workLeft := by
  rw [workLeft_eq_sum, workLeft_eq_sum, h.places]
  exact Finset.sum_le_sum fun i _ => h.workAt_le ⟨i⟩

/-- If somebody has less to do, there is less to do. -/
theorem workLeft_lt (h : Eases w w') (hlt : w'.workAt slot < w.workAt slot) :
    w'.workLeft < w.workLeft := by
  obtain ⟨s, hs, -⟩ := exists_of_workAt_pos (Nat.zero_lt_of_lt hlt)
  have hplace : slot.index ∈ Finset.range w.sessions.entries.length :=
    Finset.mem_range.mpr (SlotArena.lt_length_of_get?_eq_some hs)
  rw [workLeft_eq_sum, workLeft_eq_sum, h.places]
  exact Finset.sum_lt_sum (fun i _ => h.workAt_le ⟨i⟩) ⟨slot.index, hplace, hlt⟩

end Eases

/-! ### The stages -/

theorem eases_sweep (ht : t.worker.HoldersDistinct) : Eases t.worker t.sweep.worker := by
  refine Eases.of_sessions t.actsOn_sweep.places fun slot s' hs' => ?_
  obtain ⟨s, hs, rfl | rfl⟩ := Turn.before_sweep ht hs'
  · exact ⟨s', hs, Nat.le_refl _⟩
  · exact ⟨s, hs, s.work_idle_le⟩

theorem eases_prefill (t : Turn b) : Eases t.worker t.prefill.worker := by
  obtain ⟨context, hacts⟩ := t.actsOn_prefill
  refine Eases.of_sessions hacts.places fun slot s' hs' => ?_
  obtain ⟨s, hs, rfl | ⟨count, hcount, hafter⟩⟩ := Turn.before_prefill hs'
  · exact ⟨s', hs, Nat.le_refl _⟩
  · exact ⟨s, hs, (Nat.le_add_right ..).trans (hafter.work_add_le hcount)⟩

theorem eases_decode (ht : t.worker.Seated) (hsound : t.worker.StreamsSound) :
    Eases t.worker t.decode.worker := by
  obtain ⟨context, hacts⟩ := Turn.actsOn_decode ht
  refine Eases.of_sessions hacts.places fun slot s' hs' => ?_
  obtain ⟨s, hs, rfl | ⟨hready, hafter⟩⟩ := Turn.before_decode ht hsound hs'
  · exact ⟨s', hs, Nat.le_refl _⟩
  · exact ⟨s, hs, (hafter.work_lt hready).le⟩

/-- If there is input to write and a place in the batch, somebody gets a share that is not empty. -/
theorem exists_share (hready : w.prefillSlots ≠ [])
    (hbound : 1 ≤ w.config.batching.maxPrefillTokens) :
    ∃ share ∈ w.prefillShares, 0 < share.count := by
  have hperm := w.prefillCursor.order_perm w.prefillSlots
  obtain ⟨slot, rest, horder⟩ := List.exists_cons_of_ne_nil
    (fun h => hready (h ▸ hperm).nil_eq.symm :  w.prefillCursor.order w.prefillSlots ≠ [])
  have hslot : slot ∈ w.prefillCursor.order w.prefillSlots := by
    rw [horder]
    exact List.mem_cons_self
  obtain ⟨s, hs, hpos⟩ := exists_of_mem_order hslot
  have hpos : 0 < s.prefillReady := of_decide_eq_true hpos
  have hserved : w.occupants (w.prefillCursor.order w.prefillSlots) =
      (slot, s) :: w.occupants rest := by
    rw [horder, occupants, List.filterMap_cons_some (by rw [hs]; rfl)]
    rfl
  have hfirst : w.config.batching.maxPrefillTokens ≠ 0 := by omega
  refine ⟨⟨slot, s, min s.prefillReady w.config.batching.maxPrefillTokens⟩, ?_, ?_⟩
  · rw [prefillShares, hserved, Share.allot, if_neg hfirst]
    exact List.mem_cons_self
  · show 0 < min _ _
    omega

/-- If somebody waits for a token and there is a place in the batch, somebody is served. -/
theorem exists_served (hready : w.decodeSlots ≠ [])
    (hbound : 1 ≤ w.config.batching.maxDecodeSequences) :
    ∃ slot s, (slot, s) ∈ w.decodeServed := by
  have hlength := congrArg List.length w.decodeServed_slots
  have hperm := (w.decodeCursor.order_perm w.decodeSlots).length_eq
  have hpos := List.length_pos_iff.mpr hready
  rw [List.length_map, List.length_take, hperm] at hlength
  obtain ⟨⟨slot, s⟩, rest, heq⟩ := List.exists_cons_of_length_pos
    (by omega : 0 < w.decodeServed.length)
  exact ⟨slot, s, heq ▸ List.mem_cons_self⟩

/-! ### Ticks -/

/-- What keeps a worker going: sessions are in their places, streams in order, and no generation is
stuck. -/
structure Orderly (w : Worker b) : Prop where
  seated : w.Seated
  streams : w.StreamsSound
  schedulable : w.EverySession Session.Schedulable

theorem orderly_run (id : WorkerId) (context : b.Context) (config : WorkerConfig)
    (actions : List Action) : ((start id context config).run actions).Orderly where
  seated := seated_run ..
  streams := streamsSound_run ..
  schedulable := (sessionRule_schedulable b).run id context config actions

namespace Orderly

theorem act (hw : w.Orderly) (action : Action) : (w.act action).Orderly where
  seated := (step_act w action).seated hw.seated
  streams := (step_act w action).streamsSound hw.seated hw.streams
  schedulable := (sessionRule_schedulable b).act hw.seated hw.streams hw.schedulable action

theorem beginTick (hw : w.Orderly) : w.beginTick.worker.Orderly :=
  ⟨hw.seated.beginTick, hw.streams.beginTick, hw.schedulable⟩

theorem sweep (ht : t.worker.Orderly) : t.sweep.worker.Orderly where
  seated := stepInvariant_seated.sweep ht.seated
  streams := stepInvariant_streamsSound.sweep ht.streams
  schedulable := (sessionRule_schedulable b).sweep ht.streams.distinct ht.schedulable

theorem prefill (ht : t.worker.Orderly) : t.prefill.worker.Orderly where
  seated := stepInvariant_seated.prefill ht.seated
  streams := stepInvariant_streamsSound.prefill ht.streams
  schedulable := (sessionRule_schedulable b).prefill ht.schedulable

/-- A generation that survives the sweep waits for prefill or for its turn. -/
theorem ready_of_swept {s s' : Session} {streams streams' : Streams} (hs : s.Schedulable)
    (hswept : Swept streams streams' s s') (hpos : 0 < s.work) :
    s'.work < s.work ∨ 0 < s'.prefillReady ∨ s'.decodeReady = true := by
  cases hswept with
  | ended hend =>
    cases hg : s.generation with
    | none => exact absurd (by rw [hg]; rfl) hend
    | some g => exact Or.inl (hs.work_idle_lt hg)
  | kept hkeep =>
    right
    by_cases hready : 0 < s.prefillReady
    · exact Or.inl hready
    · right
      cases hg : s.generation with
      | none =>
        rw [Session.work_of_idle hg] at hpos
        exact absurd hpos hready
      | some g =>
        obtain ⟨hpending, hbudget⟩ := hs g hg
        -- The sweep would have ended a generation that is to be cancelled.
        have hcancel : g.cancelRequested = false := by
          rw [hg, Option.bind_some, Turn.sweepEvent?] at hkeep
          split_ifs at hkeep with hcancel
          exact Bool.eq_false_iff.mpr hcancel
        have hone : s.pending.length = 1 := by
          have hlength := List.length_pos_iff.mpr hpending
          unfold Session.prefillReady at hready
          omega
        simp [Session.decodeReady, Session.isProducing, hone, hg, hcancel, hbudget]

/-- **A tick does some of the work**, if there is any. -/
theorem workLeft_tick_lt (hw : w.Orderly) (hprefill : 1 ≤ w.config.batching.maxPrefillTokens)
    (hdecode : 1 ≤ w.config.batching.maxDecodeSequences) (hpos : 0 < w.workLeft) :
    w.tick.worker.workLeft < w.workLeft := by
  set swept := w.beginTick.sweep with hswept
  have hsweep : Eases w swept.worker :=
    { eases_sweep (t := w.beginTick) hw.beginTick.streams.distinct with }
  have hprefilled : swept.worker.Orderly := hw.beginTick.sweep
  have hconfig : swept.worker.config = w.config := w.beginTick.actsOn_sweep.config
  have hrest := eases_decode hprefilled.prefill.seated hprefilled.prefill.streams
  by_cases hslots : swept.worker.prefillSlots = []
  · by_cases hslots' : swept.worker.decodeSlots = []
    -- Nothing is ready after the sweep, so the sweep has ended whatever was left to do.
    · obtain ⟨i, -, hwork⟩ := Finset.exists_ne_zero_of_sum_ne_zero
        (by rw [← workLeft_eq_sum]; omega : ∑ i ∈ Finset.range _, w.workAt ⟨i⟩ ≠ 0)
      obtain ⟨s, hs, hspos⟩ := exists_of_workAt_pos (Nat.pos_of_ne_zero hwork)
      obtain ⟨s', hs', hcase⟩ := w.beginTick.sweep_at hw.beginTick.streams.distinct hs
      have hlt : swept.worker.workAt ⟨i⟩ < w.workAt ⟨i⟩ := by
        rw [workAt_of_get? hs', workAt_of_get? hs]
        rcases ready_of_swept (hw.schedulable _ s hs) hcase hspos with hlt | hready | hready
        · exact hlt
        · have hmem : (⟨i⟩ : Slot) ∈ swept.worker.prefillSlots :=
            mem_slotsWhere.mpr ⟨s', hs', decide_eq_true hready⟩
          rw [hslots] at hmem
          exact absurd hmem List.not_mem_nil
        · have hmem : (⟨i⟩ : Slot) ∈ swept.worker.decodeSlots :=
            mem_slotsWhere.mpr ⟨s', hs', hready⟩
          rw [hslots'] at hmem
          exact absurd hmem List.not_mem_nil
      exact lt_of_le_of_lt ((eases_prefill swept).trans hrest).workLeft_le (hsweep.workLeft_lt hlt)
    -- There is nothing to prefill, so somebody gets a turn.
    · have hsame : swept.prefill = swept := by rw [Turn.prefill, planPrefill_eq, if_pos hslots]
      obtain ⟨slot, s, hserved⟩ := exists_served hslots' (by rw [hconfig]; exact hdecode)
      obtain ⟨hs, hready⟩ := mem_decodeServed hserved
      obtain ⟨s', hs', hafter⟩ :=
        Turn.decode_of_served hprefilled.seated hprefilled.streams hserved
      have hlt : swept.decode.worker.workAt slot < swept.worker.workAt slot := by
        rw [workAt_of_get? hs', workAt_of_get? hs]
        exact hafter.work_lt hready
      have hturn : w.tick = swept.decode := by rw [tick, ← hswept, hsame]
      rw [hturn]
      rw [hsame] at hrest
      exact lt_of_lt_of_le (hrest.workLeft_lt hlt) hsweep.workLeft_le
  -- There is input to write, and the first share is not empty.
  · obtain ⟨share, hshare, hcount⟩ := exists_share hslots (by rw [hconfig]; exact hprefill)
    obtain ⟨hs, hle⟩ := mem_prefillShares hshare
    obtain ⟨s', hs', hafter⟩ := swept.prefill_of_share hshare
    have hlt : swept.prefill.worker.workAt share.slot < swept.worker.workAt share.slot := by
      have hwork := hafter.work_add_le hle
      rw [workAt_of_get? hs', workAt_of_get? hs]
      omega
    exact lt_of_le_of_lt hrest.workLeft_le
      (lt_of_lt_of_le ((eases_prefill swept).workLeft_lt hlt) hsweep.workLeft_le)

/-- Without work left every session is idle and has nothing to prefill. -/
theorem idle_of_workLeft (hw : w.Orderly) (hzero : w.workLeft = 0) :
    w.EverySession fun s => s.generation = none ∧ s.prefillReady = 0 := by
  intro slot s hs
  have hplace : slot.index ∈ Finset.range w.sessions.entries.length :=
    Finset.mem_range.mpr (SlotArena.lt_length_of_get?_eq_some hs)
  rw [workLeft_eq_sum] at hzero
  have hslot := Finset.sum_eq_zero_iff.mp hzero slot.index hplace
  rw [workAt_of_get? hs] at hslot
  exact (hw.schedulable slot s hs).work_eq_zero_iff.mp hslot

end Orderly

/-- Nobody is there for a stage to serve. -/
theorem slotsWhere_eq_nil {p : Session → Bool} (h : w.EverySession fun s => p s = false) :
    w.slotsWhere p = [] := by
  refine List.eq_nil_iff_forall_not_mem.mpr fun slot hslot => ?_
  obtain ⟨s, hs, hp⟩ := mem_slotsWhere.mp hslot
  exact Bool.false_ne_true ((h slot s hs).symm.trans hp)

/-- **A tick with nothing to do** does nothing but count itself. -/
theorem tick_of_idle (h : w.EverySession fun s => s.generation = none ∧ s.prefillReady = 0) :
    w.tick = w.beginTick := by
  have hsweep : w.beginTick.sweep = w.beginTick :=
    Turn.sweep_of_kept fun slot s hs => by rw [(h slot s hs).1, Option.bind_none]
  have hprefill : w.beginTick.worker.prefillSlots = [] :=
    slotsWhere_eq_nil fun slot s hs => by simp [(h slot s hs).2]
  have hdecode : w.beginTick.worker.decodeSlots = [] :=
    slotsWhere_eq_nil fun slot s hs => by
      simp [Session.decodeReady, Session.isProducing, (h slot s hs).1]
  rw [tick, hsweep, Turn.prefill, planPrefill_eq, if_pos hprefill]
  dsimp only
  rw [Turn.decode, planDecode_eq, if_pos hdecode]

/-! ### Runs without commands -/

theorem sessions_act_of_asksNothing {action : Action} (haction : action.asksNothing = true)
    (htick : action ≠ .tick) : (w.act action).sessions = w.sessions := by
  cases action with
  | tick => exact absurd rfl htick
  | read => rfl
  | drop => rfl
  | _ => cases haction

/-- The work left goes down with every tick until there is none. -/
theorem Orderly.workLeft_run (hw : w.Orderly)
    (hprefill : 1 ≤ w.config.batching.maxPrefillTokens)
    (hdecode : 1 ≤ w.config.batching.maxDecodeSequences) {actions : List Action}
    (hactions : ∀ action ∈ actions, action.asksNothing = true) :
    (w.run actions).workLeft ≤ w.workLeft - actions.count .tick := by
  induction actions generalizing w with
  | nil => exact Nat.le_refl _
  | cons action rest ih =>
    have hconfig := hw.seated.config_act action
    have hrest := ih (hw.act action) (by rwa [hconfig]) (by rwa [hconfig])
      fun action haction => hactions action (List.mem_cons_of_mem _ haction)
    rw [run_cons]
    by_cases htick : action = .tick
    · rw [htick] at hrest ⊢
      have hstep : w.tick.worker.workLeft ≤ w.workLeft - 1 := by
        rcases Nat.eq_zero_or_pos w.workLeft with hzero | hpos
        · rw [tick_of_idle (hw.idle_of_workLeft hzero)]
          exact (hzero ▸ Nat.zero_le _ : w.workLeft ≤ w.workLeft - 1)
        · have hlt := hw.workLeft_tick_lt hprefill hdecode hpos
          omega
      rw [List.count_cons_self]
      change _ ≤ w.tick.worker.workLeft - _ at hrest
      omega
    · have hsame : (w.act action).workLeft = w.workLeft := by
        rw [workLeft, sessions_act_of_asksNothing (hactions action List.mem_cons_self) htick]
        rfl
      rw [List.count_cons_of_ne htick, ← hsame]
      exact hrest

/-- **A worker that gets no more commands comes to rest.** On any backend, after any run, and
whatever its consumers do in the meantime: after as many ticks as there was work left, no session
has a generation or input to prefill, and every tick from then on reports nothing and does nothing
but count itself. -/
theorem quiescent_run (id : WorkerId) (context : b.Context) (config : WorkerConfig)
    (hprefill : 1 ≤ config.batching.maxPrefillTokens)
    (hdecode : 1 ≤ config.batching.maxDecodeSequences) (actions later : List Action)
    (hlater : ∀ action ∈ later, action.asksNothing = true)
    (hticks : ((start id context config).run actions).workLeft ≤ later.count .tick) :
    let w := ((start id context config).run actions).run later
    w.EverySession (fun s => s.generation = none ∧ s.prefillReady = 0) ∧
      w.tick = { worker := { w with ticks := w.ticks + 1 }, report := {} } := by
  intro w
  have hconfig := (seated_start id context config).config_run actions
  have hbefore : ((start id context config).run actions).Orderly := orderly_run ..
  have hleft : w.workLeft ≤ _ := hbefore.workLeft_run (by rwa [hconfig]) (by rwa [hconfig]) hlater
  have hrest : w.EverySession fun s => s.generation = none ∧ s.prefillReady = 0 := by
    have hw : w.Orderly := run_induction (fun _ action h => h.act action) hbefore later
    exact hw.idle_of_workLeft (by omega)
  exact ⟨hrest, tick_of_idle hrest⟩

/-- Commands that leave a worker two letters to prefill and two to produce. -/
def twoAndTwo : List Action :=
  [.command (.createSession ⟨1⟩ {}), .command (.appendInput ⟨1⟩ "abc"),
    .command (.generate ⟨1⟩ 2 4)]

theorem quiescent_run_letters :
    ((start ⟨0⟩ (ByteModel.Context.mk [[]]) {} : Worker (ByteModel.backend {})).run
        twoAndTwo).workLeft = 4 ∧
      let w := ((start ⟨0⟩ (ByteModel.Context.mk [[]]) {} : Worker (ByteModel.backend {})).run
        twoAndTwo).run [.tick, .read 0 1, .tick, .tick, .drop 0, .tick]
      w.EverySession (fun s => s.generation = none ∧ s.prefillReady = 0) ∧
        w.tick = { worker := { w with ticks := w.ticks + 1 }, report := {} } := by
  have hticks : List.count Action.tick [.tick, .read 0 1, .tick, .tick, .drop 0, .tick] = 4 := by
    decide
  have hwork : ((start ⟨0⟩ (ByteModel.Context.mk [[]]) {} : Worker (ByteModel.backend {})).run
      twoAndTwo).workLeft = 4 := by
    decide +kernel
  have hrest := quiescent_run (b := ByteModel.backend {}) ⟨0⟩ (ByteModel.Context.mk [[]]) {}
    (by decide) (by decide) twoAndTwo [.tick, .read 0 1, .tick, .tick, .drop 0, .tick] (by decide)
    (by rw [hwork, hticks])
  exact ⟨hwork, hrest⟩

end Worker

end Turnwise
