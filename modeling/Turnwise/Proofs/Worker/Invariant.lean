import Turnwise.Proofs.Worker.Action

/-!
# Invariants of a worker

A tick is made of few kinds of steps: it ends generations, it changes what a session has pending,
and it accounts for sampled tokens. A property that survives each of them survives a tick, whatever
the plans of the tick were and whatever the backend answered (`StepInvariant.tick`).

The first such property is that sessions are where the index says they are (`Worker.Seated`). It
holds of every worker in every run (`seated_run`), for all backends.
-/

namespace Turnwise

namespace Worker

variable {b : Backend} {P : Worker b → Prop} {w w' : Worker b}

/-- A property that survives every step of a tick. -/
structure StepInvariant (P : Worker b → Prop) : Prop where
  /-- Context, cursors and counts do not matter. -/
  congr : ∀ {w w' : Worker b}, P w → w'.sessions = w.sessions → w'.index = w.index →
    w'.streams = w.streams → P w'
  finish : ∀ {w} slot {event : StreamEvent}, event.isTerminal = true → P w →
    P (w.finishGeneration slot event)
  quiet : ∀ {w} slot {f}, Session.Quiet f → P w → P (w.modifySession slot f)
  advance : ∀ {w} slot token, P w → P (Turn.advance w slot token).2

/-- What each step of a stage preserves, the stage preserves. -/
theorem foldl_preserves {κ : Type} {step : Turn b → κ → Turn b}
    (hstep : ∀ t key, P t.worker → P (step t key).worker) (keys : List κ) {t : Turn b}
    (ht : P t.worker) : P (keys.foldl step t).worker := by
  induction keys generalizing t with
  | nil => exact ht
  | cons key rest ih => exact ih (hstep t key ht)

namespace StepInvariant

variable (hP : StepInvariant P)

include hP

theorem sweepSlot {t : Turn b} (slot : Slot) (ht : P t.worker) : P (t.sweepSlot slot).worker := by
  cases hs : t.worker.sessions.get? slot with
  | none =>
    unfold Turn.sweepSlot
    rwa [hs]
  | some s =>
    rw [Turn.sweepSlot_worker hs]
    split
    · exact ht
    · rename_i event hevent
      obtain ⟨g, -, hg⟩ := Option.bind_eq_some_iff.mp hevent
      refine hP.finish slot ?_ ht
      -- The sweep gives no reasons but these two.
      unfold Turn.sweepEvent? at hg
      split_ifs at hg <;> exact Option.some.inj hg ▸ rfl

theorem sweep {t : Turn b} (ht : P t.worker) : P t.sweep.worker :=
  foldl_preserves (fun _ => hP.sweepSlot) _ ht

theorem commitShare {t : Turn b} (share : Slot × Nat) (ht : P t.worker) :
    P (t.commitShare share).worker := by
  unfold Turn.commitShare
  split
  · exact ht
  · exact hP.quiet _ (Session.quiet_commitPrefill _) ht

theorem dropShare (cause : String) {t : Turn b} (share : Slot × Nat) (ht : P t.worker) :
    P (Turn.dropShare cause t share).worker := by
  cases hs : t.worker.sessions.get? share.1 with
  | none =>
    unfold Turn.dropShare
    rwa [hs]
  | some s =>
    have hdiscard := hP.quiet share.1 (Session.quiet_discardPending share.2) ht
    rw [Turn.dropShare_worker hs]
    split
    · exact hP.finish _ rfl hdiscard
    · exact hP.quiet _ (Session.quiet_inputError _) hdiscard

theorem runPrefill {t : Turn b} (plan : PrefillPlan) (ht : P t.worker) :
    P (t.runPrefill plan).worker := by
  unfold Turn.runPrefill
  dsimp only
  split
  · refine hP.congr (foldl_preserves (fun _ => hP.commitShare) _ ?_) rfl rfl rfl
    exact hP.congr ht rfl rfl rfl
  · refine foldl_preserves (fun _ => hP.dropShare _) _ ?_
    exact hP.congr ht rfl rfl rfl

theorem prefill {t : Turn b} (ht : P t.worker) : P t.prefill.worker := by
  unfold Turn.prefill
  split
  · exact hP.runPrefill _ ht
  · exact ht

theorem failOwner (cause : String) {t : Turn b} (owner : SessionId) (ht : P t.worker) :
    P (Turn.failOwner cause t owner).worker := by
  unfold Turn.failOwner
  split
  · exact ht
  · exact hP.finish _ rfl ht

theorem acceptRow {t : Turn b} (row : SessionId × Logits) (ht : P t.worker) :
    P (t.acceptRow row).worker := by
  obtain ⟨owner, logits⟩ := row
  cases hfind : t.worker.find? owner with
  | none =>
    unfold Turn.acceptRow
    rwa [hfind]
  | some entry =>
    obtain ⟨slot, s⟩ := entry
    have hcommit := hP.quiet slot Session.quiet_commitDecode ht
    rw [Turn.acceptRow_worker hfind]
    split
    · exact hP.finish slot rfl hcommit
    · rename_i token sampler _
      have hqueued : P (Turn.queueSampled t.worker slot token sampler) :=
        hP.congr (hP.quiet slot (Session.quiet_queue sampler token) hcommit) rfl rfl rfl
      have hadvanced := hP.advance slot token hqueued
      split
      · rename_i heq
        rwa [heq] at hadvanced
      · rename_i event w heq
        rw [heq] at hadvanced
        refine hP.finish slot ?_ hadvanced
        exact isTerminal_advance (by rw [heq])

theorem runDecode {t : Turn b} (plan : DecodePlan) (ht : P t.worker) :
    P (t.runDecode plan).worker := by
  unfold Turn.runDecode
  dsimp only
  split
  · refine foldl_preserves (fun _ => hP.acceptRow) _ ?_
    exact hP.congr ht rfl rfl rfl
  · refine foldl_preserves (fun _ => hP.failOwner _) _ ?_
    exact hP.congr ht rfl rfl rfl

theorem decode {t : Turn b} (ht : P t.worker) : P t.decode.worker := by
  unfold Turn.decode
  split
  · exact hP.runDecode _ ht
  · exact ht

/-- **What every step preserves, a tick preserves**, whatever it has planned and whatever the
backend answers. -/
theorem tick (hw : P w) : P w.tick.worker := by
  have hbegin : P w.beginTick.worker := hP.congr hw rfl rfl rfl
  have hdecode := hP.decode (hP.prefill (hP.sweep hbegin))
  rwa [← Worker.tick] at hdecode

/-- A worker that shuts down first ends its generations. -/
theorem quiesce (hw : P w) : P w.quiesce := by
  have hfold : ∀ (slots : List Slot) (w : Worker b), P w →
      P (slots.foldl (fun w slot => w.finishGeneration slot (.done .shutdown)) w) := by
    intro slots
    induction slots with
    | nil => exact fun _ hw => hw
    | cons slot rest ih => exact fun _ hw => ih _ (hP.finish slot rfl hw)
  exact hfold _ w hw

end StepInvariant

/-! ### Sessions are where the index says -/

theorem Seated.congr (hw : w.Seated) (hsessions : w'.sessions = w.sessions)
    (hindex : w'.index = w.index) : w'.Seated where
  arena := by rw [hsessions]; exact hw.arena
  index_iff := by rw [hsessions, hindex]; exact hw.index_iff
  slot_eq := by rw [hsessions]; exact hw.slot_eq

theorem Seated.beginTick (hw : w.Seated) : w.beginTick.worker.Seated :=
  hw.congr rfl rfl

/-- A worker starts without sessions. -/
theorem get?_start (id : WorkerId) (context : b.Context) (config : WorkerConfig) (slot : Slot) :
    (start id context config).sessions.get? slot = none :=
  SlotArena.get?_ofCapacity _ slot

theorem seated_start (id : WorkerId) (context : b.Context) (config : WorkerConfig) :
    (start id context config).Seated where
  arena := SlotArena.wellFormed_ofCapacity _
  index_iff id slot := by
    rw [get?_start]
    constructor
    · intro h
      cases h
    · rintro ⟨s, h, -⟩
      cases h
  slot_eq slot s hs := by
    rw [get?_start] at hs
    cases hs

theorem stepInvariant_seated : StepInvariant (Seated : Worker b → Prop) where
  congr hw hsessions hindex _ := hw.congr hsessions hindex
  finish slot event _ hw := (actsOn_finishGeneration _ slot event).seated hw
  quiet slot _ hf hw := (actsOn_quiet hf _ slot).seated hw
  advance slot token hw := (actsOn_advance _ slot token).seated hw

/-- A new session goes to a vacant slot, and nobody else is there. -/
theorem Seated.create (hw : w.Seated) {id : SessionId} {sampling : Sampling} {slot : Slot}
    {sessions : SlotArena Session} (hnew : w.index.find? id = none)
    (hinsert : w.sessions.insertWith (newSession id sampling) = some (slot, sessions))
    (tally : Tally) :
    Seated { w with sessions, index := w.index.insert id slot, tally } := by
  obtain ⟨hvacant, hget⟩ := hw.arena.get?_insertWith hinsert
  refine ⟨hw.arena.insertWith hinsert, fun id' slot' => ?_, fun slot' s hs => ?_⟩
  · show (w.index.insert id slot).find? id' = some slot' ↔
      ∃ s, sessions.get? slot' = some s ∧ s.id = id'
    rw [hget, SessionIndex.find?_insert]
    by_cases hid : id' = id
    -- The name is new, so no other session can have it.
    · obtain rfl := hid
      rw [if_pos rfl]
      constructor
      · intro h
        obtain rfl := Option.some.inj h
        exact ⟨_, if_pos rfl, rfl⟩
      · rintro ⟨s, hs, rfl⟩
        split_ifs at hs with hslot
        · rw [hslot]
        · rw [hw.find?_id hs] at hnew
          cases hnew
    -- The slot was vacant, so no other name led to it.
    · rw [if_neg hid, hw.index_iff]
      by_cases hslot : slot' = slot
      · rw [hslot, if_pos rfl, hvacant]
        constructor
        · exact fun ⟨_, h, _⟩ => nomatch h
        · rintro ⟨s, hs, rfl⟩
          exact absurd (Option.some.inj hs ▸ rfl) hid
      · rw [if_neg hslot]
  · rw [hget] at hs
    split_ifs at hs with hslot
    · obtain rfl := Option.some.inj hs
      exact hslot.symm
    · exact hw.slot_eq slot' s hs

/-- A session that ends leaves the index and its slot at once. -/
theorem Seated.release (hw : w.Seated) {id : SessionId} {slot : Slot}
    (hslot : w.index.find? id = some slot) (tally : Tally) :
    Seated { w.release slot with index := w.index.erase id, tally } := by
  obtain ⟨s, hs, hid⟩ := (hw.index_iff id slot).mp hslot
  refine ⟨hw.arena.erase slot, fun id' slot' => ?_, fun slot' s' hs' => ?_⟩
  · show (w.index.erase id).find? id' = some slot' ↔
      ∃ s, (w.sessions.erase slot).get? slot' = some s ∧ s.id = id'
    rw [SessionIndex.find?_erase, SlotArena.get?_erase]
    by_cases hslot' : slot' = slot
    · rw [if_pos hslot', hslot']
      constructor
      · intro h
        split_ifs at h with hid'
        exact absurd ((hw.id_eq hs h).symm.trans hid) hid'
      · exact fun ⟨_, h, _⟩ => nomatch h
    · rw [if_neg hslot']
      split_ifs with hid'
      -- The name led to the vacated slot and to no other.
      · constructor
        · exact nofun
        · rintro ⟨s', hs', hid''⟩
          have hfind := hw.find?_id hs'
          rw [hid'', hid', hslot] at hfind
          exact absurd (Option.some.inj hfind).symm hslot'
      · exact hw.index_iff id' slot'
  · change (w.sessions.erase slot).get? slot' = some s' at hs'
    rw [SlotArena.get?_erase] at hs'
    split_ifs at hs'
    exact hw.slot_eq slot' s' hs'

theorem Seated.generateOn (hw : w.Seated) (s : Stream) (id : SessionId) (budget : Nat) :
    (w.generateOn s id budget).Seated := by
  rcases w.generateOn_cases s id budget with
    ⟨event, tally, -, heq⟩ | ⟨slot, s', event, -, -, -, heq⟩ |
      ⟨slot, s', tally, -, -, -, -, -, heq⟩
  · rw [heq]
    exact hw.congr rfl rfl
  · rw [heq]
    exact (hw.modifySession slot (Session.quiet_inputError none).seat).congr rfl rfl
  · have hseat : ∀ s' : Session,
        { s' with generation := some { budget, stream := (w.streams.add s).1 } }.seat = s'.seat :=
      fun _ => rfl
    rw [heq]
    exact (hw.modifySession slot hseat).congr rfl rfl

/-- A request to generate changes no session but the one that it is for, and that one only if it is
idle. -/
theorem Seated.get?_generateOn (hw : w.Seated) {slot : Slot} {s : Session}
    (hs : w.sessions.get? slot = some s) (stream : Stream) (id : SessionId) (budget : Nat)
    (hspared : id ≠ s.id ∨ s.generation ≠ none) :
    (w.generateOn stream id budget).sessions.get? slot = some s := by
  have hother : ∀ {slot' s'}, w.find? id = some (slot', s') → s'.generation = none →
      slot ≠ slot' := by
    rintro slot' s' hfind hidle rfl
    obtain ⟨hslot, hs'⟩ := find?_eq_some_iff.mp hfind
    obtain rfl := Option.some.inj (hs.symm.trans hs')
    exact hspared.elim (fun hne => hne (hw.id_eq hs hslot).symm) fun hactive => hactive hidle
  rcases w.generateOn_cases stream id budget with
    ⟨event, tally, -, heq⟩ | ⟨slot', s', event, hfind, hidle, -, heq⟩ |
      ⟨slot', s', tally, hfind, hidle, -, -, -, heq⟩
  · rw [heq]
    exact hs
  · rw [heq]
    exact (SlotArena.get?_modify_of_ne (hother hfind hidle) _).trans hs
  · rw [heq]
    exact (SlotArena.get?_modify_of_ne (hother hfind hidle) _).trans hs

/-- After a shutdown nobody is left. -/
theorem Seated.get?_shutdown (hw : w.Seated) (slot : Slot) :
    w.shutdown.sessions.get? slot = none := by
  rw [shutdown_eq]
  show ((w.quiesce.releaseAll _).sessions.get? slot) = none
  rw [get?_releaseAll]
  split_ifs with hmem
  · rfl
  · by_contra hsome
    obtain ⟨s', hs'⟩ := Option.ne_none_iff_exists'.mp hsome
    obtain ⟨s, hs, -⟩ := (actsOn_quiesce w).get?_of_get? hs'
    -- Whoever was there is in the index, and its slot is one of those that were vacated.
    exact hmem (List.mem_map.mpr ⟨(s.id, slot), SessionIndex.mem_entries (hw.find?_id hs), rfl⟩)

theorem Seated.shutdown (hw : w.Seated) : w.shutdown.Seated := by
  have hvacant := hw.get?_shutdown
  refine ⟨?_, fun id slot => ?_, fun slot s hs => ?_⟩
  · rw [shutdown_eq]
    exact wellFormed_releaseAll (stepInvariant_seated.quiesce hw).arena _
  · have hindex : w.shutdown.index = {} := by rw [shutdown_eq]
    rw [hvacant, hindex]
    exact ⟨nofun, fun ⟨_, h, _⟩ => nomatch h⟩
  · rw [hvacant] at hs
    cases hs

theorem Step.seated {action : Action} (h : Step w action w') (hw : w.Seated) : w'.Seated := by
  cases h with
  | same => exact hw
  | create hnew hinsert tally => exact hw.create hnew hinsert tally
  | append => exact hw.modifySession _ fun _ => rfl
  | generate => exact hw.generateOn ..
  | cancel => exact hw.modifySession _ Session.quiet_cancel.seat
  | @endSession id slot hslot tally =>
    have hfinish := actsOn_finishGeneration w slot (.done .sessionEnded)
    rw [← hfinish.index] at hslot ⊢
    exact (hfinish.seated hw).release hslot tally
  | tick => exact stepInvariant_seated.tick hw
  | shutdown => exact hw.shutdown
  | consume => exact hw.congr rfl rfl

/-- **In every run sessions are where the index says**, on any backend. -/
theorem seated_run (id : WorkerId) (context : b.Context) (config : WorkerConfig)
    (actions : List Action) : ((start id context config).run actions).Seated :=
  run_induction (fun w action hw => (step_act w action).seated hw) (seated_start id context config)
    actions

end Worker

end Turnwise
