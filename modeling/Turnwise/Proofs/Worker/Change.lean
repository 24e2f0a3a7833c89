import Turnwise.Proofs.Worker.Stages

/-!
# An action, as one session sees it

Between two ticks a session changes only by commands that name it, and in few ways
(`Session.Change`); its row does not change at all. `Worker.act_at` says so for every session that
is live after an action: either the session was live before and has changed in one of these ways, or
it is new. `Worker.tick_at` does the same for a tick, by its three stages.

The slots that are vacant after an action other than a tick are the subject of
`Worker.Step.vacated`: their rows are those of before, or empty.
-/

namespace Turnwise

/-- What an action other than a tick does to a session, with the effects on it. -/
inductive Session.Change (s : Session) : Session → List Effect → Prop
  | none : Change s s []
  | queued {tokens : List Token} (htokens : ∀ token ∈ tokens, token < ByteModel.vocabularySize) :
      Change s (s.enqueue tokens) [.queued tokens]
  /-- The session is told that input was lost. -/
  | told (hidle : s.generation = .none) : Change s { s with inputError := .none } []
  | started {g : Generation} (hidle : s.generation = .none) (herror : s.inputError = .none)
      (hpending : s.pending ≠ []) (hbudget : 0 < g.budget) :
      Change s { s with generation := some g } []
  | cancelled : Change s s.cancel.2 []

theorem Session.Change.id_eq {s s' : Session} {effects : List Effect} (h : s.Change s' effects) :
    s'.id = s.id := by
  cases h with
  | cancelled =>
    unfold Session.cancel
    split <;> rfl
  | _ => rfl

namespace Worker

variable {params : ByteModel.Params} {w w' : Worker (ByteModel.backend params)} {slot : Slot}
  {s s' : Session}

/-- What has become of the session that is in a slot after an action. -/
def Settled (w : Worker (ByteModel.backend params)) (effects : List (SessionId × Effect))
    (w' : Worker (ByteModel.backend params)) : Prop :=
  ∀ slot s', w'.sessions.get? slot = some s' →
    w'.row slot = w.row slot ∧
    ((∃ s, w.sessions.get? slot = some s ∧ s.Change s' (effectsOn s.id effects)) ∨
      ∃ id sampling, w.sessions.get? slot = none ∧ s' = newSession id sampling slot ∧
        effectsOn id effects = [.created])

/-! ### Commands -/

theorem settled_refl (w : Worker (ByteModel.backend params)) : Settled w [] w :=
  fun _ s hs => ⟨rfl, Or.inl ⟨s, hs, .none⟩⟩

/-- A change of streams and counts is none of the sessions. -/
theorem Settled.congr {w'' : Worker (ByteModel.backend params)}
    {effects : List (SessionId × Effect)} (h : Settled w effects w')
    (hsessions : w''.sessions = w'.sessions) (hcontext : w''.context = w'.context) :
    Settled w effects w'' := by
  intro slot s' hs'
  obtain ⟨hrow, h⟩ := h slot s' (hsessions ▸ hs')
  refine ⟨?_, h⟩
  unfold row at hrow ⊢
  rw [hcontext, hrow]

/-- A command that changes the session in one slot, and has effects on no other. -/
theorem settled_modifySession (slot : Slot) {f : Session → Session}
    {effects : List (SessionId × Effect)}
    (hchange : ∀ s, w.sessions.get? slot = some s → s.Change (f s) (effectsOn s.id effects))
    (hothers : ∀ slot' s, slot' ≠ slot → w.sessions.get? slot' = some s →
      effectsOn s.id effects = []) :
    Settled w effects (w.modifySession slot f) := by
  intro slot' s' hs'
  refine ⟨rfl, Or.inl ?_⟩
  rw [modifySession, SlotArena.get?_modify] at hs'
  split_ifs at hs' with heq
  · obtain ⟨s, hs, rfl⟩ := Option.map_eq_some_iff.mp hs'
    rw [heq] at hs ⊢
    exact ⟨s, hs, hchange s hs⟩
  · refine ⟨s', hs', ?_⟩
    rw [hothers slot' s' heq hs']
    exact .none

/-- Effects on one name are effects on one slot. -/
theorem Seated.effectsOn_eq_nil (hw : w.Seated) {id : SessionId}
    (hslot : w.index.find? id = some slot) (effect : Effect) {slot' : Slot} (hne : slot' ≠ slot)
    (hs : w.sessions.get? slot' = some s) : effectsOn s.id [(id, effect)] = [] := by
  rw [effectsOn_singleton, if_neg]
  rintro rfl
  rw [hw.find?_id hs] at hslot
  exact hne (Option.some.inj hslot)

theorem settled_createSession (hw : w.Seated) (id : SessionId) (sampling : Sampling) :
    Settled w (w.effects (.command (.createSession id sampling)))
      (w.act (.command (.createSession id sampling))) := by
  simp only [act, handle, effects]
  rcases hcreate : w.createSession id sampling with e | ⟨slot, w'⟩
  · exact settled_refl w
  · obtain ⟨hnew, -, sessions, hinsert, rfl⟩ := createSession_eq_ok hcreate
    obtain ⟨hvacant, hget⟩ := hw.arena.get?_insertWith hinsert
    intro slot' s' hs'
    refine ⟨rfl, ?_⟩
    change sessions.get? slot' = some s' at hs'
    rw [hget] at hs'
    split_ifs at hs' with heq
    -- The new session itself.
    · refine Or.inr ⟨id, sampling, by rw [heq, hvacant], ?_, ?_⟩
      · rw [heq]
        exact (Option.some.inj hs').symm
      · exact effectsOn_map_pair id [.created]
    -- Any other session has another name, because the name was free.
    · refine Or.inl ⟨s', hs', ?_⟩
      rw [effectsOn_singleton, if_neg]
      · exact .none
      · rintro rfl
        rw [hw.find?_id hs'] at hnew
        cases hnew

theorem settled_appendInput (hw : w.Seated) (id : SessionId) (text : String) :
    Settled w (w.effects (.command (.appendInput id text)))
      (w.act (.command (.appendInput id text))) := by
  simp only [act, handle, effects]
  rcases happend : w.appendInput id text with e | ⟨count, w'⟩
  · exact settled_refl w
  · obtain ⟨slot, tokens, hslot, htokens, -, rfl⟩ := appendInput_eq_ok happend
    rw [htokens]
    dsimp only
    refine settled_modifySession slot (fun s hs => ?_) fun slot' s hne hs =>
      hw.effectsOn_eq_nil hslot _ hne hs
    obtain rfl := hw.id_eq hs hslot
    rw [effectsOn_singleton, if_pos rfl]
    refine .queued fun token htoken => ?_
    rw [← Except.ok.inj htokens] at htoken
    exact ByteModel.lt_of_mem_tokenize htoken

theorem settled_generateOn (w : Worker (ByteModel.backend params)) (stream : Stream)
    (id : SessionId) (budget : Nat) : Settled w [] (w.generateOn stream id budget) := by
  rcases w.generateOn_cases stream id budget with
    ⟨event, tally, -, heq⟩ | ⟨slot, s, event, hfind, hg, -, heq⟩ |
      ⟨slot, s, tally, hfind, hg, herror, hpending, hbudget, heq⟩
  · rw [heq]
    exact (settled_refl w).congr rfl rfl
  · rw [heq]
    have hs := (find?_eq_some_iff.mp hfind).2
    refine Settled.congr (settled_modifySession slot
      (f := fun s => { s with inputError := none }) (fun s' hs' => ?_) fun _ _ _ _ => rfl) rfl rfl
    obtain rfl := Option.some.inj (hs.symm.trans hs')
    exact .told hg
  · rw [heq]
    have hs := (find?_eq_some_iff.mp hfind).2
    refine Settled.congr (settled_modifySession slot
      (f := fun s => { s with generation := some { budget, stream := (w.streams.add stream).1 } })
      (fun s' hs' => ?_) fun _ _ _ _ => rfl) rfl rfl
    obtain rfl := Option.some.inj (hs.symm.trans hs')
    exact .started hg herror hpending hbudget

theorem settled_cancel (w : Worker (ByteModel.backend params)) (id : SessionId) :
    Settled w [] (w.cancel id).2 := by
  rcases w.cancel_snd id with heq | ⟨slot, s, -, heq⟩
  · rw [heq]
    exact settled_refl w
  · rw [heq]
    exact settled_modifySession slot (fun _ _ => .cancelled) fun _ _ _ _ => rfl

theorem row_release (w : Worker (ByteModel.backend params)) (slot slot' : Slot) :
    (w.release slot).row slot' = if slot' = slot then [] else w.row slot' :=
  ByteModel.row_removeSlot w.context slot slot'

theorem settled_endSession (w : Worker (ByteModel.backend params)) (id : SessionId) :
    Settled w [] (w.endSession id).2 := by
  rcases hslot : w.index.find? id with _ | slot
  · rw [endSession_of_find?_eq_none hslot]
    exact settled_refl w
  · have hacts := actsOn_finishGeneration w slot (.done .sessionEnded)
    rw [endSession_of_find?_eq_some hslot]
    have hreleased :
        Settled w [] ((w.finishGeneration slot (.done .sessionEnded)).release slot) := by
      intro slot' s' hs'
      rw [get?_release_finishGeneration] at hs'
      split_ifs at hs' with hne
      rw [row_release, if_neg hne]
      refine ⟨?_, Or.inl ⟨s', hs', .none⟩⟩
      unfold row
      rw [hacts.context]
    exact hreleased.congr rfl rfl

/-- **What an action other than a tick does to the sessions.** -/
theorem act_at (hw : w.Seated) {action : Action} (htick : action ≠ .tick) :
    Settled w (w.effects action) (w.act action) := by
  cases action with
  | command c =>
    cases c with
    | createSession id sampling => exact settled_createSession hw id sampling
    | appendInput id text => exact settled_appendInput hw id text
    | generate id budget capacity => exact w.settled_generateOn _ id budget
    | cancel id => exact w.settled_cancel id
    | endSession id => exact w.settled_endSession id
    | snapshot id =>
      simp only [act, handle, effects]
      cases w.snapshot id <;> exact settled_refl w
    | status => exact settled_refl w
    | shutdown => exact settled_refl w
  | abandoned id budget capacity => exact w.settled_generateOn _ id budget
  | tick => exact absurd rfl htick
  | shutdown =>
    intro slot s' hs'
    rw [act, hw.get?_shutdown] at hs'
    cases hs'
  | read stream count => exact (settled_refl w).congr rfl rfl
  | drop stream => exact (settled_refl w).congr rfl rfl

/-! ### Vacant slots -/

/-- A slot that is vacant was vacant and has kept its row, or has just lost it. -/
def Vacated (w w' : Worker (ByteModel.backend params)) : Prop :=
  ∀ slot, w'.sessions.get? slot = none →
    w'.row slot = [] ∨ (w.sessions.get? slot = none ∧ w'.row slot = w.row slot)

/-- Steps that leave the context alone and remove nobody. -/
theorem vacated_of_seat (hcontext : w'.context = w.context)
    (hseat : ∀ slot, w'.sessions.get? slot = none → w.sessions.get? slot = none) :
    Vacated w w' := by
  intro slot hvacant
  refine Or.inr ⟨hseat slot hvacant, ?_⟩
  unfold row
  rw [hcontext]

theorem row_releaseAll (w : Worker (ByteModel.backend params)) (slots : List Slot) (slot : Slot) :
    (w.releaseAll slots).row slot = if slot ∈ slots then [] else w.row slot := by
  induction slots generalizing w with
  | nil => rfl
  | cons first rest ih =>
    show ((w.release first).releaseAll rest).row slot = _
    rw [ih, row_release]
    by_cases hfirst : slot = first <;> by_cases hrest : slot ∈ rest <;> simp [hfirst, hrest]

theorem Step.vacated {action : Action} (h : Step w action w') (hw : w.Seated)
    (htick : action ≠ .tick) : Vacated w w' := by
  cases h with
  | same => exact vacated_of_seat rfl fun _ h => h
  | create hnew hinsert tally =>
    refine vacated_of_seat rfl fun slot' hvacant => ?_
    rw [(hw.arena.get?_insertWith hinsert).2] at hvacant
    split_ifs at hvacant
    exact hvacant
  | append => exact vacated_of_seat rfl fun _ => SlotArena.get?_modify_eq_none_iff.mp
  | @generate _ id s hs budget =>
    rcases w.generateOn_cases s id budget with
      ⟨event, tally, -, heq⟩ | ⟨slot, s', event, -, -, -, heq⟩ |
        ⟨slot, s', tally, -, -, -, -, -, heq⟩
    · rw [heq]
      exact vacated_of_seat rfl fun _ h => h
    · rw [heq]
      exact vacated_of_seat rfl fun _ => SlotArena.get?_modify_eq_none_iff.mp
    · rw [heq]
      exact vacated_of_seat rfl fun _ => SlotArena.get?_modify_eq_none_iff.mp
  | cancel => exact vacated_of_seat rfl fun _ => SlotArena.get?_modify_eq_none_iff.mp
  | @endSession id slot hslot tally =>
    have hacts := actsOn_finishGeneration w slot (.done .sessionEnded)
    intro slot' hvacant
    show ((w.finishGeneration slot _).release slot).row slot' = [] ∨
      _ ∧ ((w.finishGeneration slot _).release slot).row slot' = _
    rw [row_release]
    by_cases heq : slot' = slot
    · exact Or.inl (if_pos heq)
    · rw [if_neg heq]
      refine Or.inr ⟨?_, ?_⟩
      · change ((w.finishGeneration slot _).release slot).sessions.get? slot' = none at hvacant
        rwa [get?_release_finishGeneration, if_neg heq] at hvacant
      · unfold row
        rw [hacts.context]
  | tick => exact absurd rfl htick
  | shutdown =>
    intro slot _
    rw [shutdown_eq]
    show (w.quiesce.releaseAll _).row slot = [] ∨ _ ∧ (w.quiesce.releaseAll _).row slot = _
    rw [row_releaseAll]
    split_ifs with hmem
    · exact Or.inl rfl
    -- A slot that the shutdown did not vacate is not in the index, so it was vacant before.
    · refine Or.inr ⟨?_, ?_⟩
      · by_contra hlive
        obtain ⟨s, hs⟩ := Option.ne_none_iff_exists'.mp hlive
        exact hmem (List.mem_map.mpr
          ⟨(s.id, slot), SessionIndex.mem_entries (hw.find?_id hs), rfl⟩)
      · unfold row
        rw [(actsOn_quiesce w).context]
  | consume => exact vacated_of_seat rfl fun _ h => h

/-! ### Ticks -/

theorem stepInvariant_vacant (slot : Slot) (vacant : Prop) :
    StepInvariant fun w : Worker (ByteModel.backend params) =>
      w.sessions.get? slot = none ↔ vacant where
  congr h hsessions _ _ := by rwa [hsessions]
  finish slot' event _ h := ((actsOn_finishGeneration _ slot' event).get?_eq_none_iff slot).trans h
  quiet slot' _ hf h := ((actsOn_quiet hf _ slot').get?_eq_none_iff slot).trans h
  advance slot' token h := ((actsOn_advance _ slot' token).get?_eq_none_iff slot).trans h

theorem get?_prefill_eq_none_iff (t : Turn (ByteModel.backend params)) (slot : Slot) :
    t.prefill.worker.sessions.get? slot = none ↔ t.worker.sessions.get? slot = none :=
  (stepInvariant_vacant slot _).prefill Iff.rfl

theorem get?_decode_eq_none_iff (t : Turn (ByteModel.backend params)) (slot : Slot) :
    t.decode.worker.sessions.get? slot = none ↔ t.worker.sessions.get? slot = none :=
  (stepInvariant_vacant slot _).decode Iff.rfl

/-- A tick neither creates nor removes sessions. -/
theorem get?_tick_eq_none_iff (w : Worker (ByteModel.backend params)) (slot : Slot) :
    w.tick.worker.sessions.get? slot = none ↔ w.sessions.get? slot = none :=
  (stepInvariant_vacant slot _).tick Iff.rfl

/-- A tick as one session sees it. The stages begin with the sessions, the rows and the streams as
the stage before has left them. -/
theorem tick_at (hw : w.Seated) (hsound : w.StreamsSound)
    (hs : w.sessions.get? slot = some s) :
    ∃ s₁ s₂ s₃,
      w.tick.worker.sessions.get? slot = some s₃ ∧
      Swept w.streams w.beginTick.sweep.worker.streams s s₁ ∧
      Prefilled w.beginTick.sweep.worker.PrefillFails w.beginTick.sweep.worker.streams
        w.beginTick.sweep.prefill.worker.streams s₁ (w.row slot) s₂
        (w.beginTick.sweep.prefill.worker.row slot)
        (effectsOn s₁.id w.beginTick.sweep.worker.prefillEffects) ∧
      Decoded params w.beginTick.sweep.prefill.worker.DecodeFails
        w.beginTick.sweep.prefill.worker.streams w.tick.worker.streams s₂
        (w.beginTick.sweep.prefill.worker.row slot) s₃ (w.tick.worker.row slot)
        (effectsOn s₂.id w.beginTick.sweep.prefill.worker.decodeEffects) := by
  -- Each stage needs the invariants of the stage before.
  have hbegin := hw.beginTick
  have hbegin' := hsound.beginTick
  have hacts := w.beginTick.actsOn_sweep
  have hsweep := hacts.seated hbegin
  have hsweep' := stepInvariant_streamsSound.sweep hbegin'
  obtain ⟨s₁, hs₁, hswept⟩ := w.beginTick.sweep_at hbegin'.distinct hs
  obtain ⟨s₂, hs₂, hprefilled⟩ := w.beginTick.sweep.prefill_at hsweep hsweep'.distinct hs₁
  have hrow : w.beginTick.sweep.worker.row slot = w.row slot := by
    unfold row
    rw [hacts.context]
    rfl
  rw [hrow] at hprefilled
  obtain ⟨s₃, hs₃, hdecoded⟩ := w.beginTick.sweep.prefill.decode_at
    (stepInvariant_seated.prefill hsweep) (stepInvariant_streamsSound.prefill hsweep') hs₂
  rw [tick]
  exact ⟨s₁, s₂, s₃, hs₃, hswept, hprefilled, hdecoded⟩

end Worker

end Turnwise
