import Turnwise.Proofs.Worker.Stages

/-!
# The stages of a tick on any backend

A backend may fail, may write before it fails, and may return any number of rows. For the sessions
in a batch this decides between two outcomes and no more: a share is written or lost
(`AfterPrefill`), and a session that is served gets its turn or loses its generation
(`AfterDecode`). Sessions outside of the batch are left alone, and so is everything else of the
worker but its context and the cursor of the stage (`Turn.actsOn_prefill`, `Turn.actsOn_decode`).

Between ticks sessions change by commands, and only in the ways of `Session.Touched`. So a property
of single sessions holds in every run if new sessions have it and no treatment takes it away
(`SessionRule.run`).
-/

namespace Turnwise

/-! ### What can happen to a session -/

/-- What becomes of a session if a prefill batch has the first `count` of its tokens. -/
inductive AfterPrefill (s : Session) (count : Nat) : Session → Prop
  | written : AfterPrefill s count (s.commitPrefill count)
  | lost (cause : String) : AfterPrefill s count (s.lose cause count)

/-- What becomes of a session that a decode batch serves. -/
inductive AfterDecode (b : Backend) (s : Session) : Session → Prop
  | served {g : Generation} (hg : s.generation = some g) (stream : Stream) (logits : Logits) :
      AfterDecode b s (s.accept b g stream logits).1
  | failed : AfterDecode b s s.idle

/-- What an action other than a tick makes of a session that stays live. -/
inductive Session.Touched (s : Session) : Session → Prop
  | same : Touched s s
  | queued (tokens : List Token) : Touched s (s.enqueue tokens)
  /-- The session is told that input was lost. -/
  | told (hidle : s.generation = none) : Touched s { s with inputError := none }
  | started {g : Generation} (hidle : s.generation = none) (herror : s.inputError = none)
      (hpending : s.pending ≠ []) (hbudget : 0 < g.budget) :
      Touched s { s with generation := some g }
  | cancelled : Touched s s.cancel.2

namespace Turn

open Worker

variable {b : Backend} (t : Turn b)

/-! ### Prefill -/

/-- A session that has a share has it written or loses it. -/
theorem prefill_of_share {share : Share} (h : share ∈ t.worker.prefillShares) :
    ∃ s', t.prefill.worker.sessions.get? share.slot = some s' ∧
      AfterPrefill share.session share.count s' := by
  rcases t.prefill_share h with ⟨logits, -, hs', -⟩ | ⟨e, -, hs', -⟩
  · exact ⟨_, hs', .written⟩
  · exact ⟨_, hs', .lost e.message⟩

variable {t} {slot : Slot} {s' : Session}

/-- What the sweep has made of a session that is live after it. -/
theorem before_sweep (ht : t.worker.HoldersDistinct)
    (hs' : t.sweep.worker.sessions.get? slot = some s') :
    ∃ s, t.worker.sessions.get? slot = some s ∧ (s' = s ∨ s' = s.idle) := by
  obtain ⟨s, hs, -⟩ := t.actsOn_sweep.get?_of_get? hs'
  obtain ⟨s'', hs'', hswept⟩ := t.sweep_at ht hs
  obtain rfl := Option.some.inj (hs'.symm.trans hs'')
  refine ⟨s, hs, ?_⟩
  cases hswept with
  | kept => exact .inl rfl
  | ended => exact .inr rfl

/-- What the prefill stage has made of a session that is live after it. -/
theorem before_prefill (hs' : t.prefill.worker.sessions.get? slot = some s') :
    ∃ s, t.worker.sessions.get? slot = some s ∧
      (s' = s ∨ ∃ count ≤ s.prefillReady, AfterPrefill s count s') := by
  by_cases hslot : slot ∈ t.worker.prefillShares.map Share.slot
  · obtain ⟨share, hshare, rfl⟩ := List.mem_map.mp hslot
    obtain ⟨hs, hcount⟩ := mem_prefillShares hshare
    obtain ⟨s'', hs'', hafter⟩ := t.prefill_of_share hshare
    obtain rfl := Option.some.inj (hs'.symm.trans hs'')
    exact ⟨share.session, hs, .inr ⟨share.count, hcount, hafter⟩⟩
  · obtain ⟨context, hacts⟩ := t.actsOn_prefill
    rw [hacts.session slot hslot] at hs'
    exact ⟨s', hs', .inl rfl⟩

/-! ### Decode -/

/-- A session that is served gets its turn, or its generation ends. -/
theorem decode_of_served (ht : t.worker.Seated) (hsound : t.worker.StreamsSound) {s : Session}
    (h : (slot, s) ∈ t.worker.decodeServed) :
    ∃ s', t.decode.worker.sessions.get? slot = some s' ∧ AfterDecode b s s' := by
  obtain ⟨hs, hready⟩ := mem_decodeServed h
  obtain ⟨g, hg, -⟩ := Session.active_of_decodeReady hready
  obtain ⟨stream, hstream, -⟩ := hsound.flowing slot g.stream
    (holder_eq_some_iff.mpr ⟨s, g, hs, hg, rfl⟩)
  rcases decode_turn ht hsound.distinct h hg hstream with
    ⟨logits, row, -, -, hs', -⟩ | ⟨e, -, hs', -⟩
  · exact ⟨_, hs', .served hg stream row⟩
  · exact ⟨_, hs', .failed⟩

/-- What the decode stage has made of a session that is live after it. -/
theorem before_decode (ht : t.worker.Seated) (hsound : t.worker.StreamsSound)
    (hs' : t.decode.worker.sessions.get? slot = some s') :
    ∃ s, t.worker.sessions.get? slot = some s ∧
      (s' = s ∨ s.decodeReady = true ∧ AfterDecode b s s') := by
  by_cases hslot : slot ∈ t.worker.decodeServed.map Prod.fst
  · obtain ⟨⟨slot, s⟩, hserved, rfl⟩ := List.mem_map.mp hslot
    obtain ⟨hs, hready⟩ := mem_decodeServed hserved
    obtain ⟨s'', hs'', hafter⟩ := decode_of_served ht hsound hserved
    obtain rfl := Option.some.inj (hs'.symm.trans hs'')
    exact ⟨s, hs, .inr ⟨hready, hafter⟩⟩
  · obtain ⟨context, hacts⟩ := actsOn_decode ht
    rw [hacts.session slot hslot] at hs'
    exact ⟨s', hs', .inl rfl⟩

end Turn

namespace Worker

variable {b : Backend} {w w' : Worker b} {slot : Slot} {s s' : Session}

/-! ### Between ticks -/

theorem touched_modifySession {f : Session → Session} (slot : Slot)
    (hf : ∀ s, w.sessions.get? slot = some s → s.Touched (f s)) {slot' : Slot}
    (hs' : (w.modifySession slot f).sessions.get? slot' = some s') :
    ∃ s, w.sessions.get? slot' = some s ∧ s.Touched s' := by
  rw [modifySession, SlotArena.get?_modify] at hs'
  split_ifs at hs' with heq
  · obtain ⟨s, hs, rfl⟩ := Option.map_eq_some_iff.mp hs'
    exact ⟨s, hs, hf s (heq ▸ hs)⟩
  · exact ⟨s', hs', .same⟩

theorem touched_generateOn {stream : Stream} {id : SessionId} {budget : Nat}
    (hs' : (w.generateOn stream id budget).sessions.get? slot = some s') :
    ∃ s, w.sessions.get? slot = some s ∧ s.Touched s' := by
  rcases w.generateOn_cases stream id budget with
    ⟨event, tally, -, heq⟩ | ⟨slot', s, event, hfind, hidle, -, heq⟩ |
      ⟨slot', s, tally, hfind, hidle, herror, hpending, hbudget, heq⟩
  · rw [heq] at hs'
    exact ⟨s', hs', .same⟩
  · rw [heq] at hs'
    refine touched_modifySession slot' (fun s'' hs'' => ?_) hs'
    obtain rfl := Option.some.inj ((find?_eq_some_iff.mp hfind).2.symm.trans hs'')
    exact .told hidle
  · rw [heq] at hs'
    refine touched_modifySession slot' (fun s'' hs'' => ?_) hs'
    obtain rfl := Option.some.inj ((find?_eq_some_iff.mp hfind).2.symm.trans hs'')
    exact .started hidle herror hpending hbudget

/-- **A session that is live after an action other than a tick** was live before it, or is new. -/
theorem Step.touched {action : Action} (h : Step w action w') (hw : w.Seated)
    (haction : action ≠ .tick) (hs' : w'.sessions.get? slot = some s') :
    (∃ s, w.sessions.get? slot = some s ∧ s.Touched s') ∨
      ∃ id sampling, w.sessions.get? slot = none ∧ s' = newSession id sampling slot := by
  cases h with
  | same => exact Or.inl ⟨s', hs', .same⟩
  | @create id sampling slot' sessions hnew hinsert tally =>
    obtain ⟨hvacant, hget⟩ := hw.arena.get?_insertWith hinsert
    change sessions.get? slot = some s' at hs'
    rw [hget] at hs'
    split_ifs at hs' with heq
    · exact Or.inr ⟨id, sampling, by rw [heq, hvacant], by rw [heq, ← Option.some.inj hs']⟩
    · exact Or.inl ⟨s', hs', .same⟩
  | append => exact Or.inl (touched_modifySession _ (fun _ _ => .queued _) hs')
  | generate => exact Or.inl (touched_generateOn hs')
  | cancel => exact Or.inl (touched_modifySession _ (fun _ _ => .cancelled) hs')
  | @endSession id slot' hslot tally =>
    change ((w.finishGeneration slot' _).release slot').sessions.get? slot = some s' at hs'
    rw [get?_release_finishGeneration] at hs'
    split_ifs at hs'
    exact Or.inl ⟨s', hs', .same⟩
  | tick => exact absurd rfl haction
  | shutdown => exact nomatch (hw.get?_shutdown slot).symm.trans hs'
  | consume => exact Or.inl ⟨s', hs', .same⟩

/-- Name, configuration, cursors and the count of ticks are as they were. -/
structure KeepsCourse (w w' : Worker b) : Prop where
  id : w'.id = w.id
  config : w'.config = w.config
  prefillCursor : w'.prefillCursor = w.prefillCursor
  decodeCursor : w'.decodeCursor = w.decodeCursor
  ticks : w'.ticks = w.ticks

theorem KeepsCourse.trans {w'' : Worker b} (h : KeepsCourse w w') (h' : KeepsCourse w' w'') :
    KeepsCourse w w'' where
  id := h'.id.trans h.id
  config := h'.config.trans h.config
  prefillCursor := h'.prefillCursor.trans h.prefillCursor
  decodeCursor := h'.decodeCursor.trans h.decodeCursor
  ticks := h'.ticks.trans h.ticks

theorem ActsOn.keepsCourse {slots : List Slot} (h : ActsOn slots w w') : KeepsCourse w w' :=
  ⟨h.id, h.config, h.prefillCursor, h.decodeCursor, h.ticks⟩

theorem keepsCourse_releaseAll (w : Worker b) (slots : List Slot) :
    KeepsCourse w (w.releaseAll slots) := by
  induction slots generalizing w with
  | nil => exact ⟨rfl, rfl, rfl, rfl, rfl⟩
  | cons slot rest ih =>
    have hrelease : KeepsCourse w (w.release slot) := ⟨rfl, rfl, rfl, rfl, rfl⟩
    exact hrelease.trans (ih (w.release slot))

/-- Only ticks move the cursors. -/
theorem Step.keepsCourse {action : Action} (h : Step w action w') (haction : action ≠ .tick) :
    KeepsCourse w w' := by
  cases h with
  | @generate action id stream hs budget =>
    rcases w.generateOn_cases stream id budget with
      ⟨event, tally, -, heq⟩ | ⟨slot', s, event, -, -, -, heq⟩ |
        ⟨slot', s, tally, -, -, -, -, -, heq⟩ <;> rw [heq] <;> exact ⟨rfl, rfl, rfl, rfl, rfl⟩
  | @endSession id slot' hslot tally =>
    have hfinish := (actsOn_finishGeneration w slot' (.done .sessionEnded)).keepsCourse
    exact { hfinish with }
  | tick => exact absurd rfl haction
  | shutdown =>
    have hquiesce := (actsOn_quiesce w).keepsCourse
    have hrelease := keepsCourse_releaseAll w.quiesce (w.index.entries.map Prod.snd)
    rw [shutdown_eq]
    exact { hquiesce.trans hrelease with }
  | _ => exact ⟨rfl, rfl, rfl, rfl, rfl⟩

/-- A worker at the prefill stage of its next tick. -/
def prefillStage (w : Worker b) : Worker b := w.beginTick.sweep.worker

/-- A worker at the decode stage of its next tick. -/
def decodeStage (w : Worker b) : Worker b := w.beginTick.sweep.prefill.worker

/-- Writing input samples nothing. -/
theorem sampledOn_prefillEffects (w : Worker b) (stream : StreamId) (name : SessionId) :
    sampledOn stream (effectsOn name w.prefillEffects) = [] := by
  refine sampledOn_eq_nil fun token hmem => ?_
  have hwritten := mem_of_mem_effectsOn hmem
  unfold prefillEffects gather at hwritten
  split at hwritten
  · obtain ⟨share, -, hmem⟩ := List.mem_flatMap.mp hwritten
    exact nomatch List.mem_singleton.mp hmem
  · obtain ⟨share, -, hmem⟩ := List.mem_flatMap.mp hwritten
    exact nomatch List.mem_singleton.mp hmem

/-- The decode stage samples only for streams that are held. -/
theorem sampledOn_decodeEffects {stream : StreamId}
    (hfree : ∀ slot, w.holder slot ≠ some stream) (name : SessionId) :
    sampledOn stream (effectsOn name w.decodeEffects) = [] := by
  refine sampledOn_eq_nil fun token hmem => ?_
  have hturn := mem_of_mem_effectsOn hmem
  unfold decodeEffects gather at hturn
  split at hturn
  · obtain ⟨⟨⟨slot, s⟩, row⟩, hserved, hmem⟩ := List.mem_flatMap.mp hturn
    obtain ⟨hs, hready⟩ := mem_decodeServed (List.of_mem_zip hserved).1
    obtain ⟨effect, hmem, heq⟩ := List.mem_map.mp hmem
    obtain ⟨-, rfl⟩ := Prod.mk.inj heq
    unfold Session.turnEffects at hmem
    rcases List.mem_cons.mp hmem with hwritten | hsampled
    · cases hwritten
    · split at hsampled
      · refine hfree slot ?_
        rw [holder, hs]
        exact (Effect.sampled.inj (List.mem_singleton.mp hsampled)).1.symm
      · exact List.not_mem_nil hsampled
  · exact List.not_mem_nil hturn

/-- What a tick samples, it samples in its decode stage. -/
theorem sampledOn_tickEffects (w : Worker b) (stream : StreamId) (name : SessionId) :
    sampledOn stream (effectsOn name w.tickEffects) =
      sampledOn stream (effectsOn name w.decodeStage.decodeEffects) := by
  rw [tickEffects, effectsOn_append, sampledOn_append, sampledOn_prefillEffects, List.nil_append,
    decodeStage]

/-- Nothing is sampled for a stream that nobody holds. -/
theorem sampledOn_effects_of_unheld {stream : StreamId}
    (hfree : ∀ slot, w.holder slot ≠ some stream) (action : Action) (name : SessionId) :
    sampledOn stream (effectsOn name (w.effects action)) = [] := by
  by_cases htick : action = .tick
  · have hdecode : ∀ slot, w.decodeStage.holder slot ≠ some stream := fun slot =>
      (stepInvariant_holder_ne slot stream).prefill
        ((stepInvariant_holder_ne slot stream).sweep (hfree slot))
    rw [htick, effects, sampledOn_tickEffects, sampledOn_decodeEffects hdecode]
  · exact w.sampledOn_effects htick stream name

/-- What comes before the decode stage leaves its cursor alone. -/
theorem course_decodeStage (w : Worker b) :
    w.decodeStage.config = w.config ∧ w.decodeStage.decodeCursor = w.decodeCursor := by
  have hsweep := w.beginTick.actsOn_sweep
  obtain ⟨context, hprefill⟩ := w.beginTick.sweep.actsOn_prefill
  exact ⟨hprefill.config.trans hsweep.config, hprefill.decodeCursor.trans hsweep.decodeCursor⟩

theorem Seated.prefillStage (hw : w.Seated) : w.prefillStage.Seated :=
  stepInvariant_seated.sweep hw.beginTick

theorem StreamsSound.prefillStage (hsound : w.StreamsSound) : w.prefillStage.StreamsSound :=
  stepInvariant_streamsSound.sweep hsound.beginTick

theorem Seated.decodeStage (hw : w.Seated) : w.decodeStage.Seated :=
  stepInvariant_seated.prefill hw.prefillStage

theorem StreamsSound.decodeStage (hsound : w.StreamsSound) : w.decodeStage.StreamsSound :=
  stepInvariant_streamsSound.prefill hsound.prefillStage

theorem Seated.course_tick (hw : w.Seated) :
    w.tick.worker.config = w.config ∧
      w.tick.worker.decodeCursor = w.decodeStage.decodePlan.cursor := by
  have hstage : w.beginTick.sweep.prefill.worker = w.decodeStage := rfl
  have hseated : w.beginTick.sweep.prefill.worker.Seated := hw.decodeStage
  obtain ⟨context, hdecode⟩ := Turn.actsOn_decode hseated
  rw [hstage] at hdecode
  rw [tick]
  exact ⟨hdecode.config.trans w.course_decodeStage.1, hdecode.decodeCursor⟩

theorem Seated.config_act (hw : w.Seated) (action : Action) :
    (w.act action).config = w.config := by
  by_cases haction : action = .tick
  · rw [haction, act]
    exact hw.course_tick.1
  · exact ((step_act w action).keepsCourse haction).config

theorem Seated.config_run (hw : w.Seated) (actions : List Action) :
    (w.run actions).config = w.config := by
  have hboth := run_induction (P := fun w' : Worker b => w'.Seated ∧ w'.config = w.config)
    (fun w' action h => ⟨(step_act w' action).seated h.1, (h.1.config_act action).trans h.2⟩)
    ⟨hw, rfl⟩ actions
  exact hboth.2

/-! ### The index of sessions -/

theorem stepInvariant_index (index : SessionIndex) :
    StepInvariant fun w : Worker b => w.index = index where
  congr h _ hindex _ := hindex.trans h
  finish {w} slot event _ h := (actsOn_finishGeneration w slot event).index.trans h
  quiet _ _ _ h := h
  advance {w} slot token h := (actsOn_advance w slot token).index.trans h

/-- Whether a session is live changes by its creation, its end and the end of the worker only. -/
theorem Step.find?_index {action : Action} {id : SessionId} (h : Step w action w')
    (hcreate : ∀ sampling, action ≠ .command (.createSession id sampling))
    (hend : action ≠ .command (.endSession id)) (hshutdown : action ≠ .shutdown) :
    w'.index.find? id = w.index.find? id := by
  cases h with
  | same | append | cancel | consume => rfl
  | @create id' sampling =>
    have hother : id ≠ id' := by
      rintro rfl
      exact hcreate sampling rfl
    rw [SessionIndex.find?_insert, if_neg hother]
  | generate hs budget => rw [index_generateOn]
  | @endSession id' =>
    have hother : id ≠ id' := by
      rintro rfl
      exact hend rfl
    rw [SessionIndex.find?_erase, if_neg hother]
  | tick => rw [(stepInvariant_index w.index).tick rfl]
  | shutdown => exact absurd rfl hshutdown

/-- A live session stays live, and in its slot, until it or the worker is ended. -/
theorem Step.find?_index_of_live {action : Action} {id : SessionId} (h : Step w action w')
    (hslot : w.index.find? id = some slot) (hend : action ≠ .command (.endSession id))
    (hshutdown : action ≠ .shutdown) : w'.index.find? id = some slot := by
  by_cases hcreate : ∃ sampling, action = .command (.createSession id sampling)
  · obtain ⟨sampling, rfl⟩ := hcreate
    cases h with
    | same | consume => exact hslot
    | create hnew => exact nomatch hnew.symm.trans hslot
    | generate hs budget => rwa [index_generateOn]
  · rw [not_exists] at hcreate
    rwa [h.find?_index hcreate hend hshutdown]

theorem find?_handle_endSession (w : Worker b) (id : SessionId) :
    (w.handle (.endSession id)).2.index.find? id = none := by
  show (w.endSession id).2.index.find? id = none
  cases hslot : w.index.find? id with
  | none => rw [endSession_of_find?_eq_none hslot, hslot]
  | some slot =>
    rw [endSession_of_find?_eq_some hslot]
    dsimp only
    rw [SessionIndex.find?_erase, if_pos rfl]

/-! ### The size of the arena -/

/-- The arena keeps its size. -/
theorem stepInvariant_places (count : Nat) :
    StepInvariant fun w : Worker b => w.sessions.entries.length = count where
  congr h hsessions _ _ := by rwa [hsessions]
  finish slot event _ h := (actsOn_finishGeneration _ slot event).places.trans h
  quiet slot _ hf h := (actsOn_quiet hf _ slot).places.trans h
  advance slot token h := (actsOn_advance _ slot token).places.trans h

theorem Step.length_entries {action : Action} (h : Step w action w') :
    w'.sessions.entries.length = w.sessions.entries.length := by
  cases h with
  | same => rfl
  | create hnew hinsert tally => exact SlotArena.length_entries_insertWith hinsert
  | append => exact SlotArena.length_entries_modify ..
  | generate => exact w.length_entries_generateOn ..
  | cancel => exact SlotArena.length_entries_modify ..
  | @endSession id slot hslot tally =>
    exact (SlotArena.length_entries_erase ..).trans
      (actsOn_finishGeneration w slot (.done .sessionEnded)).places
  | tick => exact (stepInvariant_places _).tick rfl
  | shutdown =>
    rw [shutdown_eq]
    exact (length_entries_releaseAll ..).trans (actsOn_quiesce w).places
  | consume => rfl

/-! ### Properties of single sessions -/

/-- Every live session has a property. -/
def EverySession (w : Worker b) (P : Session → Prop) : Prop :=
  ∀ slot s, w.sessions.get? slot = some s → P s

/-- A property of sessions that new sessions have and that no treatment takes away. -/
structure SessionRule (b : Backend) (P : Session → Prop) : Prop where
  created : ∀ id sampling slot, P (newSession id sampling slot)
  touched : ∀ {s s'}, s.Touched s' → P s → P s'
  idle : ∀ {s}, P s → P s.idle
  prefilled : ∀ {s s' count}, count ≤ s.prefillReady → AfterPrefill s count s' → P s → P s'
  decoded : ∀ {s s'}, s.decodeReady = true → AfterDecode b s s' → P s → P s'

namespace SessionRule

variable {P : Session → Prop} {t : Turn b}

theorem sweep (hP : SessionRule b P) (ht : t.worker.HoldersDistinct)
    (h : t.worker.EverySession P) : t.sweep.worker.EverySession P := by
  intro slot s' hs'
  obtain ⟨s, hs, rfl | rfl⟩ := Turn.before_sweep ht hs'
  · exact h slot s' hs
  · exact hP.idle (h slot s hs)

theorem prefill (hP : SessionRule b P) (h : t.worker.EverySession P) :
    t.prefill.worker.EverySession P := by
  intro slot s' hs'
  obtain ⟨s, hs, rfl | ⟨count, hcount, hafter⟩⟩ := Turn.before_prefill hs'
  · exact h slot s' hs
  · exact hP.prefilled hcount hafter (h slot s hs)

theorem decode (hP : SessionRule b P) (ht : t.worker.Seated) (hsound : t.worker.StreamsSound)
    (h : t.worker.EverySession P) : t.decode.worker.EverySession P := by
  intro slot s' hs'
  obtain ⟨s, hs, rfl | ⟨hready, hafter⟩⟩ := Turn.before_decode ht hsound hs'
  · exact h slot s' hs
  · exact hP.decoded hready hafter (h slot s hs)

theorem tick (hP : SessionRule b P) (hw : w.Seated) (hsound : w.StreamsSound)
    (h : w.EverySession P) : w.tick.worker.EverySession P := by
  have hsweep := hP.sweep (t := w.beginTick) hsound.beginTick.distinct h
  have hprefill := hP.prefill hsweep
  exact hP.decode hw.decodeStage hsound.decodeStage hprefill

theorem act (hP : SessionRule b P) (hw : w.Seated) (hsound : w.StreamsSound)
    (h : w.EverySession P) (action : Action) : (w.act action).EverySession P := by
  by_cases haction : action = .tick
  · rw [haction]
    exact hP.tick hw hsound h
  · intro slot s' hs'
    rcases (step_act w action).touched hw haction hs' with
      ⟨s, hs, htouched⟩ | ⟨id, sampling, -, rfl⟩
    · exact hP.touched htouched (h slot s hs)
    · exact hP.created id sampling slot

/-- **What no treatment takes away holds of every session in every run.** -/
theorem run (hP : SessionRule b P) (id : WorkerId) (context : b.Context) (config : WorkerConfig)
    (actions : List Action) : ((start id context config).run actions).EverySession P := by
  have hall := run_induction
    (P := fun w : Worker b => w.Seated ∧ w.StreamsSound ∧ w.EverySession P)
    (fun w action ⟨hw, hsound, h⟩ => ⟨(step_act w action).seated hw,
      (step_act w action).streamsSound hw hsound, hP.act hw hsound h action⟩)
    ⟨seated_start id context config, streamsSound_start id context config, fun slot s hs => by
      rw [get?_start] at hs
      cases hs⟩
    actions
  exact hall.2.2

end SessionRule

end Worker

end Turnwise
