import Turnwise.Proofs.Worker.Change

/-!
# Sessions, slots and rows agree

A worker keeps the same facts in several places: the index and the arena both say where a session
is, the session and the context both say how much of it was written, and the context has rows for
slots that nobody occupies. Every operation changes some of these and not the others.
`Worker.Consistent` collects what must hold between two actions, and `Worker.consistent_run` proves
it of every run over the byte model, whatever fails on the way.

Inside a tick the facts do not hold: a batch is written in one go, and only then one session after
the other counts its tokens. So the proof goes through the stages as a session sees them
(`Swept`, `Prefilled`, `Decoded`), not through the steps of a stage.

Positions and lengths are natural numbers here, so no bound on the length of a conversation is
needed.
-/

namespace Turnwise

namespace Worker

/-! ### Properties of every session -/

/-- Every live session has a property, together with its row. -/
def Every {params : ByteModel.Params} (P : Session → List Token → Prop)
    (w : Worker (ByteModel.backend params)) : Prop :=
  ∀ slot s, w.sessions.get? slot = some s → P s (w.row slot)

/-- A property of sessions and their rows that new sessions have and that nothing takes away. -/
structure SessionInvariant (params : ByteModel.Params) (P : Session → List Token → Prop) :
    Prop where
  created : ∀ id sampling slot, P (newSession id sampling slot) []
  change : ∀ {s s' row effects}, s.Change s' effects → P s row → P s' row
  swept : ∀ {streams streams' s s' row}, Swept streams streams' s s' → P s row → P s' row
  prefilled : ∀ {failed streams streams' s s' row row' effects},
    Prefilled failed streams streams' s row s' row' effects → P s row → P s' row'
  decoded : ∀ {failed streams streams' s s' row row' effects},
    Decoded params failed streams streams' s row s' row' effects → P s row → P s' row'

section Stages

variable {params : ByteModel.Params} {P : Session → List Token → Prop}
  {t : Turn (ByteModel.backend params)} {slot : Slot}

theorem row_sweep (t : Turn (ByteModel.backend params)) (slot : Slot) :
    t.sweep.worker.row slot = t.worker.row slot := by
  unfold row
  rw [t.actsOn_sweep.context]

namespace SessionInvariant

variable (hP : SessionInvariant params P)

include hP

theorem sweep (ht : t.worker.StreamsSound) (h : t.worker.Every P) : t.sweep.worker.Every P := by
  intro slot s' hs'
  obtain ⟨s, hs, -⟩ := t.actsOn_sweep.get?_of_get? hs'
  obtain ⟨s'', hs'', hswept⟩ := t.sweep_at ht.distinct hs
  obtain rfl := Option.some.inj (hs'.symm.trans hs'')
  rw [row_sweep]
  exact hP.swept hswept (h slot s hs)

theorem prefill (ht : t.worker.Seated) (ht' : t.worker.StreamsSound) (h : t.worker.Every P) :
    t.prefill.worker.Every P := by
  intro slot s' hs'
  cases hs : t.worker.sessions.get? slot with
  | none => exact nomatch ((get?_prefill_eq_none_iff t slot).mpr hs).symm.trans hs'
  | some s =>
    obtain ⟨s'', hs'', hprefilled⟩ := t.prefill_at ht ht'.distinct hs
    obtain rfl := Option.some.inj (hs'.symm.trans hs'')
    exact hP.prefilled hprefilled (h slot s hs)

theorem decode (ht : t.worker.Seated) (ht' : t.worker.StreamsSound) (h : t.worker.Every P) :
    t.decode.worker.Every P := by
  intro slot s' hs'
  cases hs : t.worker.sessions.get? slot with
  | none => exact nomatch ((get?_decode_eq_none_iff t slot).mpr hs).symm.trans hs'
  | some s =>
    obtain ⟨s'', hs'', hdecoded⟩ := t.decode_at ht ht' hs
    obtain rfl := Option.some.inj (hs'.symm.trans hs'')
    exact hP.decoded hdecoded (h slot s hs)

end SessionInvariant

end Stages

end Worker

/-! ### Positions and generations -/

/-- A session agrees with its row, and a generation has something to write and something to
produce. -/
structure Session.Sound (s : Session) (row : List Token) : Prop where
  position : s.position = row.length
  active : ∀ g, s.generation = some g →
    s.pending ≠ [] ∧ 0 < g.budget ∧ s.inputError = none

namespace Session

variable {s s' : Session} {row row' : List Token} {effects : List Effect}

theorem Sound.idle (h : s.Sound row) : s.idle.Sound row := ⟨h.position, nofun⟩

theorem Change.sound (hchange : s.Change s' effects) (h : s.Sound row) : s'.Sound row := by
  cases hchange with
  | none => exact h
  | queued =>
    refine ⟨h.position, fun g hg => ?_⟩
    obtain ⟨hpending, hrest⟩ := h.active g hg
    exact ⟨List.append_ne_nil_of_left_ne_nil hpending _, hrest⟩
  | told hidle => exact ⟨h.position, fun g hg => nomatch hidle.symm.trans hg⟩
  | started hidle herror hpending hbudget =>
    refine ⟨h.position, fun g hg => ⟨hpending, ?_, herror⟩⟩
    exact Option.some.inj hg ▸ hbudget
  | cancelled =>
    unfold cancel
    split
    · rename_i g hg
      refine ⟨h.position, fun g' hg' => ?_⟩
      obtain rfl := Option.some.inj hg'
      exact h.active g hg
    · exact h

end Session

theorem Swept.sound {streams streams' : Streams} {s s' : Session} {row : List Token}
    (hswept : Swept streams streams' s s') (h : s.Sound row) : s'.Sound row := by
  cases hswept with
  | kept => exact h
  | ended => exact h.idle

/-- The last pending token is never prefilled, so a generation keeps its decode input. -/
theorem Prefilled.sound {failed : Prop} {streams streams' : Streams} {s s' : Session}
    {row row' : List Token} {effects : List Effect}
    (hprefilled : Prefilled failed streams streams' s row s' row' effects) (h : s.Sound row) :
    s'.Sound row' := by
  cases hprefilled with
  | skipped => exact h
  | @written count hcount =>
    -- One token less than the queue holds is ready, so the queue does not run empty.
    unfold Session.prefillReady at hcount
    constructor
    · show s.position + count = (row ++ s.pending.take count).length
      rw [List.length_append, List.length_take, h.position]
      omega
    · intro g hg
      obtain ⟨hpending, hrest⟩ := h.active g hg
      refine ⟨?_, hrest⟩
      show s.pending.drop count ≠ []
      have hpos := List.length_pos_iff.mpr hpending
      rw [Ne, List.drop_eq_nil_iff]
      omega
  | lost hfailed cause hcount =>
    unfold Session.lose
    split
    · exact ⟨h.position, nofun⟩
    · rename_i hg
      exact ⟨h.position, fun g hg' => nomatch hg.symm.trans hg'⟩

theorem Decoded.sound {params : ByteModel.Params} {failed : Prop} {streams streams' : Streams}
    {s s' : Session} {row row' : List Token} {effects : List Effect}
    (hdecoded : Decoded params failed streams streams' s row s' row' effects) (h : s.Sound row) :
    s'.Sound row' := by
  cases hdecoded with
  | waiting => exact h
  | @served hready g hg stream hstream hstream' =>
    have herror := (h.active g hg).2.2
    have hposition : s.position + 1 = (row ++ [s.input]).length := by
      rw [List.length_append, List.length_singleton, h.position]
    rcases Session.accept_fst (b := ByteModel.backend params) (g := g)
        (Session.pending_of_decodeReady hready) stream
        (ByteModel.logitsFor params (row ++ [s.input])) with
      ⟨e, -, heq⟩ | ⟨token, sampler, generation, -, heq, hbudget⟩
    · rw [heq]
      exact ⟨hposition, nofun⟩
    · rw [heq]
      exact ⟨hposition, fun g' hg' => ⟨List.cons_ne_nil _ _, hbudget g' hg', herror⟩⟩
  | failed => exact h.idle

namespace Worker

variable {params : ByteModel.Params} {w w' : Worker (ByteModel.backend params)}
  {t : Turn (ByteModel.backend params)}

theorem sessionInvariant_sound : SessionInvariant params Session.Sound where
  created _ _ _ := ⟨rfl, nofun⟩
  change hchange h := hchange.sound h
  swept hswept h := hswept.sound h
  prefilled hprefilled h := hprefilled.sound h
  decoded hdecoded h := hdecoded.sound h

/-! ### The whole worker -/

/-- Index, arena, context and sessions agree. -/
structure Consistent (w : Worker (ByteModel.backend params)) : Prop where
  seated : w.Seated
  streams : w.StreamsSound
  occupied : w.Every Session.Sound
  vacant : ∀ slot, w.sessions.get? slot = none → w.row slot = []

/-- A new worker on a context with a number of rows, as the byte model makes them. -/
def fresh (params : ByteModel.Params) (id : WorkerId) (rows : Nat) (config : WorkerConfig) :
    Worker (ByteModel.backend params) :=
  start id (ByteModel.Context.mk (List.replicate rows [])) config

theorem get?_fresh (params : ByteModel.Params) (id : WorkerId) (rows : Nat)
    (config : WorkerConfig) (slot : Slot) :
    (fresh params id rows config).sessions.get? slot = none :=
  SlotArena.get?_ofCapacity _ slot

theorem row_fresh (params : ByteModel.Params) (id : WorkerId) (rows : Nat)
    (config : WorkerConfig) (slot : Slot) : (fresh params id rows config).row slot = [] := by
  show ((List.replicate rows [])[slot.index]?).getD [] = []
  rw [List.getElem?_replicate]
  split <;> rfl

theorem every_fresh (P : Session → List Token → Prop) (params : ByteModel.Params) (id : WorkerId)
    (rows : Nat) (config : WorkerConfig) : (fresh params id rows config).Every P :=
  fun slot _ hs => nomatch (get?_fresh params id rows config slot).symm.trans hs

theorem consistent_fresh (params : ByteModel.Params) (id : WorkerId) (rows : Nat)
    (config : WorkerConfig) : (fresh params id rows config).Consistent where
  seated := seated_start ..
  streams := streamsSound_start ..
  occupied := every_fresh Session.Sound params id rows config
  vacant _ _ := row_fresh ..

namespace Consistent

theorem beginTick (hw : w.Consistent) : w.beginTick.worker.Consistent :=
  ⟨hw.seated.beginTick, hw.streams.beginTick, hw.occupied, hw.vacant⟩

theorem sweep (ht : t.worker.Consistent) : t.sweep.worker.Consistent where
  seated := stepInvariant_seated.sweep ht.seated
  streams := stepInvariant_streamsSound.sweep ht.streams
  occupied := sessionInvariant_sound.sweep ht.streams ht.occupied
  vacant slot hvacant := by
    have hbefore := (t.actsOn_sweep.get?_eq_none_iff slot).mp hvacant
    rw [row_sweep, ht.vacant slot hbefore]

theorem prefill (ht : t.worker.Consistent) : t.prefill.worker.Consistent where
  seated := stepInvariant_seated.prefill ht.seated
  streams := stepInvariant_streamsSound.prefill ht.streams
  occupied := sessionInvariant_sound.prefill ht.seated ht.streams ht.occupied
  vacant slot hvacant := by
    have hbefore := (get?_prefill_eq_none_iff t slot).mp hvacant
    rw [t.row_prefill_of_vacant hbefore, ht.vacant slot hbefore]

theorem decode (ht : t.worker.Consistent) : t.decode.worker.Consistent where
  seated := stepInvariant_seated.decode ht.seated
  streams := stepInvariant_streamsSound.decode ht.streams
  occupied := sessionInvariant_sound.decode ht.seated ht.streams ht.occupied
  vacant slot hvacant := by
    have hbefore := (get?_decode_eq_none_iff t slot).mp hvacant
    rw [t.row_decode_of_vacant hbefore, ht.vacant slot hbefore]

theorem tick (hw : w.Consistent) : w.tick.worker.Consistent := by
  have hdecode := hw.beginTick.sweep.prefill.decode
  rwa [← Worker.tick] at hdecode

end Consistent

/-- **What no session can lose, no action takes from any session.** -/
theorem SessionInvariant.act {P : Session → List Token → Prop} (hP : SessionInvariant params P)
    (hw : w.Consistent) (h : w.Every P) (action : Action) : (w.act action).Every P := by
  by_cases htick : action = .tick
  · have hsweep := hw.beginTick.sweep
    have hprefill := hsweep.prefill
    have hdecode := hP.decode hprefill.seated hprefill.streams <|
      hP.prefill hsweep.seated hsweep.streams <| hP.sweep hw.beginTick.streams h
    rw [← Worker.tick] at hdecode
    rwa [htick]
  · intro slot s' hs'
    obtain ⟨hrow, ⟨s, hs, hchange⟩ | ⟨id, sampling, hvacant, rfl, -⟩⟩ :=
      act_at hw.seated htick slot s' hs'
    · rw [hrow]
      exact hP.change hchange (h slot s hs)
    -- A new session has gone to a vacant slot, and there the row is empty.
    · rw [hrow, hw.vacant slot hvacant]
      exact hP.created id sampling slot

theorem Consistent.act (hw : w.Consistent) (action : Action) : (w.act action).Consistent := by
  by_cases htick : action = .tick
  · rw [htick]
    exact hw.tick
  · have hstep := step_act w action
    refine ⟨hstep.seated hw.seated, hstep.streamsSound hw.seated hw.streams,
      sessionInvariant_sound.act hw hw.occupied action, fun slot hvacant => ?_⟩
    rcases hstep.vacated hw.seated htick slot hvacant with hrow | ⟨hbefore, hrow⟩
    · exact hrow
    · rw [hrow, hw.vacant slot hbefore]

theorem consistent_run_fresh (params : ByteModel.Params) (id : WorkerId) (rows : Nat)
    (config : WorkerConfig) (actions : List Action) :
    ((fresh params id rows config).run actions).Consistent :=
  run_induction (fun _ action hw => hw.act action) (consistent_fresh params id rows config) actions

/-- **Index, arena, context and sessions agree after every run.** Whatever the byte model is told to
refuse, and whatever is asked of the worker in whatever order:

* the index leads from a name to a slot exactly if the session in that slot has this name and this
  slot, so no two sessions share a slot;
* the position of a session is the length of its row;
* a session that generates has a pending token, a budget, and no loss to be told;
* the row of a vacant slot is empty, so a new session begins at position zero over an empty row. -/
theorem consistent_run (params : ByteModel.Params) (id : WorkerId) (rows : Nat)
    (config : WorkerConfig) (actions : List Action) :
    let w := (fresh params id rows config).run actions
    (∀ name slot, w.index.find? name = some slot ↔
      ∃ s, w.sessions.get? slot = some s ∧ s.id = name ∧ s.slot = slot) ∧
    (∀ name name' slot, w.index.find? name = some slot → w.index.find? name' = some slot →
      name = name') ∧
    (∀ slot s, w.sessions.get? slot = some s →
      s.position = (w.row slot).length ∧
      ∀ g, s.generation = some g → s.pending ≠ [] ∧ 0 < g.budget ∧ s.inputError = none) ∧
    (∀ slot, w.sessions.get? slot = none → w.row slot = []) ∧
    (∀ name sampling slot w', w.createSession name sampling = .ok (slot, w') →
      ∃ s, w'.sessions.get? slot = some s ∧ s.id = name ∧ s.position = 0 ∧ w'.row slot = []) := by
  have hw := consistent_run_fresh params id rows config actions
  intro w
  refine ⟨fun name slot => ?_, fun name name' slot h h' => ?_, fun slot s hs => ?_, hw.vacant,
    fun name sampling slot w' h => ?_⟩
  · rw [hw.seated.index_iff]
    constructor
    · rintro ⟨s, hs, hname⟩
      exact ⟨s, hs, hname, hw.seated.slot_eq slot s hs⟩
    · rintro ⟨s, hs, hname, -⟩
      exact ⟨s, hs, hname⟩
  · obtain ⟨s, hs, rfl⟩ := (hw.seated.index_iff name slot).mp h
    obtain ⟨s', hs', rfl⟩ := (hw.seated.index_iff name' slot).mp h'
    rw [Option.some.inj (hs.symm.trans hs')]
  · exact ⟨(hw.occupied slot s hs).position, (hw.occupied slot s hs).active⟩
  · obtain ⟨-, -, sessions, hinsert, rfl⟩ := createSession_eq_ok h
    obtain ⟨hvacant, hget⟩ := hw.seated.arena.get?_insertWith hinsert
    exact ⟨newSession name sampling slot, by rw [hget, if_pos rfl], rfl, rfl,
      hw.vacant slot hvacant⟩

end Worker

end Turnwise
