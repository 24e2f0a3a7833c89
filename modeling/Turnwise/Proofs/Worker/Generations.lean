import Turnwise.Proofs.Worker.Treatment

/-!
# A run, as a generation sees it

A generation and its stream go through the stages of a tick together. The sweep may end the
generation (`Turn.runs_sweep`), a failed prefill call may (`Turn.runs_prefill`), and in the decode
stage it may get a turn, or end because the call failed (`Turn.runs_decode`). Otherwise it is passed
over, and its stream with it. Between ticks a command may end it, and the consumer may act on the
stream (`Worker.Step.runs`).

* `Generation.Goes` says what one action can make of a generation, its stream, and the tokens that
  are sampled for it; `Worker.Runs.act` says that every action is so described, on any backend.
* `Worker.Runs.before` looks back: a generation that runs has run before, or has just begun.
* `Worker.Step.unheld` is about the other streams: nobody writes to them any more.
-/

namespace Turnwise

/-! ### What can become of a generation -/

/-- Ends that come from outside. The others come with a token of the generation. -/
def StreamEvent.isInterruption : StreamEvent → Bool
  | .chunk _ | .done .length | .done .endOfGeneration => false
  | _ => true

/-- What one action makes of a generation and its stream, and which tokens it samples on the way. -/
inductive Generation.Goes (b : Backend) (g : Generation) (stream : Stream) :
    Option Generation → Stream → List Token → Prop
  /-- No text comes out. A request to cancel may be noted, and the consumer may do its part. -/
  | passed {cancelRequested : Bool} {stream' : Stream} (hsession : stream'.session = stream.session)
      (hlog : stream'.log = stream.log) :
      Goes b g stream (some { g with cancelRequested }) stream' []
  | ended {event : StreamEvent} (hevent : event.isInterruption = true) :
      Goes b g stream none (g.close b event stream) []
  /-- A token after which the generation goes on. -/
  | advanced {token : Token} {g' : Generation} {stream' : Stream}
      (hadvance : g.advance b token stream = (none, g', stream')) :
      Goes b g stream (some g') stream' [token]
  | finished {token : Token} {event : StreamEvent} {g' : Generation} {stream' : Stream}
      (hadvance : g.advance b token stream = (some event, g', stream')) :
      Goes b g stream none (g'.close b event stream') [token]

section Goes

variable {b : Backend} {g : Generation} {stream : Stream}

theorem Generation.extends_advance (b : Backend) (g : Generation) (token : Token)
    (stream : Stream) : stream.Extends (g.advance b token stream).2.2 := by
  unfold advance
  split
  · exact .refl stream
  · dsimp only
    split
    · exact .refl stream
    · exact .refl stream
    · rename_i text _
      have hoffer := stream.extends_offer text
      rcases hdelivery : stream.offer text with ⟨_ | _ | _, stream'⟩ <;>
        rw [hdelivery] at hoffer <;> exact hoffer

/-- A stream is one session's for good. -/
theorem Generation.Goes.session_eq {g? : Option Generation} {stream' : Stream}
    {tokens : List Token} (h : g.Goes b stream g? stream' tokens) :
    stream'.session = stream.session := by
  cases h with
  | passed hsession _ => exact hsession
  | ended => exact (g.extends_close b _ stream).session
  | @advanced token g' _ hadvance =>
    have hextends := g.extends_advance b token stream
    rw [hadvance] at hextends
    exact hextends.session
  | @finished token event g' stream' hadvance =>
    have hextends := g.extends_advance b token stream
    rw [hadvance] at hextends
    exact (g'.extends_close b event stream').session.trans hextends.session

theorem Generation.Goes.stream_eq {g' : Generation} {stream' : Stream} {tokens : List Token}
    (h : g.Goes b stream (some g') stream' tokens) : g'.stream = g.stream := by
  cases h with
  | passed => rfl
  | @advanced token _ _ hadvance => rw [← Worker.stream_advance b g token stream, hadvance]

end Goes

namespace Worker

variable {b : Backend} {w w' : Worker b} {slot : Slot} {s : Session} {g : Generation}
  {stream : Stream}

/-! ### Running generations -/

/-- The session in a slot runs a generation. -/
structure Runs (w : Worker b) (slot : Slot) (s : Session) (g : Generation) (stream : Stream) :
    Prop where
  session : w.sessions.get? slot = some s
  generation : s.generation = some g
  stream : w.streams.get? g.stream = some stream

theorem Runs.holder (h : w.Runs slot s g stream) : w.holder slot = some g.stream :=
  holder_eq_some_iff.mpr ⟨s, g, h.session, h.generation, rfl⟩

theorem Runs.flowing (h : w.Runs slot s g stream) (hsound : w.StreamsSound) : stream.Flowing := by
  obtain ⟨stream', hstream', hflow⟩ := hsound.flowing slot g.stream h.holder
  obtain rfl := Option.some.inj (h.stream.symm.trans hstream')
  exact hflow

theorem StreamsSound.exists_runs (hsound : w.StreamsSound) {id : StreamId}
    (hheld : w.holder slot = some id) : ∃ s g stream, w.Runs slot s g stream ∧ g.stream = id := by
  obtain ⟨s, g, hs, hg, rfl⟩ := holder_eq_some_iff.mp hheld
  obtain ⟨stream, hstream, -⟩ := hsound.flowing slot g.stream hheld
  exact ⟨s, g, stream, ⟨hs, hg, hstream⟩, rfl⟩

theorem Runs.unique {s' : Session} {g' : Generation} {stream' : Stream}
    (h : w.Runs slot s g stream) (h' : w.Runs slot s' g' stream') :
    s' = s ∧ g' = g ∧ stream' = stream := by
  obtain rfl := Option.some.inj (h.session.symm.trans h'.session)
  obtain rfl := Option.some.inj (h.generation.symm.trans h'.generation)
  exact ⟨rfl, rfl, (Option.some.inj (h.stream.symm.trans h'.stream)).symm⟩

/-- What is left of a generation after an action: it goes on in its slot, or its stream is there
without it. -/
def Leaves (w' : Worker b) (slot : Slot) (name : SessionId) (id : StreamId) (stream' : Stream) :
    Option Generation → Prop
  | some g' => g'.stream = id ∧ ∃ s', w'.Runs slot s' g' stream' ∧ s'.id = name
  | none => w'.streams.get? id = some stream' ∧ ∀ slot', w'.holder slot' ≠ some id

/-- A stream that its holder lets go of is nobody's. -/
theorem ActsOn.unheld {slots : List Slot} (h : ActsOn slots w w') (hdistinct : w.HoldersDistinct)
    {id : StreamId} (hheld : w.holder slot = some id) (hidle : w'.holder slot = none)
    (slot' : Slot) : w'.holder slot' ≠ some id := by
  by_cases heq : slot' = slot
  · rw [heq, hidle]
    exact nofun
  · exact h.holder_ne fun hheld' => heq (hdistinct slot' slot id hheld' hheld)

theorem holder_eq_none_of_generation (hs : w.sessions.get? slot = some s)
    (hg : s.generation = none) : w.holder slot = none := by
  rw [Worker.holder, hs, Option.bind_some, hg, Option.map_none]

/-- What is left without a holder is left as it is by the rest of a tick. -/
theorem Leaves.of_stepInvariant {name : SessionId} {id : StreamId} {stream' : Stream}
    (h : w.Leaves slot name id stream' none)
    (hstage : ∀ {P : Worker b → Prop}, StepInvariant P → P w → P w') :
    w'.Leaves slot name id stream' none := by
  obtain ⟨hstream, hfree⟩ := h
  obtain ⟨hfree', hstream'⟩ := hstage (stepInvariant_unheld id (some stream')) ⟨hfree, hstream⟩
  exact ⟨hstream', hfree'⟩

end Worker

namespace Turn

open Worker

variable {b : Backend} (t : Turn b) {slot : Slot} {s : Session} {g : Generation} {stream : Stream}

/-! ### Sweep -/

/-- The step of the sweep that is about a generation finds it and its stream as they were. -/
theorem sweep_step (ht : t.worker.HoldersDistinct) (hs : t.worker.sessions.get? slot = some s)
    (hg : s.generation = some g) (hstream : t.worker.streams.get? g.stream = some stream) :
    ∃ t' : Turn b, t'.worker.sessions.get? slot = some s ∧
      t'.worker.streams.get? g.stream = some stream ∧
      sweepEvent? t'.worker.streams g = sweepEvent? t.worker.streams g ∧
      t.sweep.worker.sessions.get? slot = (t'.sweepSlot slot).worker.sessions.get? slot ∧
      t.sweep.worker.streams.get? g.stream =
        (t'.sweepSlot slot).worker.streams.get? g.stream := by
  have hnodup : (t.worker.sessions.slots.map fun slot => slot).Nodup := by
    rw [List.map_id']
    exact SlotArena.slots_nodup
  obtain ⟨t', ⟨others, hbefore⟩, hbefore', hafter, hstreams⟩ :=
    foldl_at hnodup t (fun t' _ slot _ => actsOn_sweepSlot t' slot)
      (SlotArena.mem_slots.mpr ⟨s, hs⟩)
  obtain ⟨hstream', hstream''⟩ :=
    hstreams ht g.stream (holder_eq_some_iff.mpr ⟨s, g, hs, hg, rfl⟩)
  exact ⟨t', hbefore'.trans hs, hstream'.trans hstream,
    sweepEvent?_congr (hbefore.isClosed g.stream), hafter, hstream''⟩

theorem sweep_kept (ht : t.worker.HoldersDistinct) (hs : t.worker.sessions.get? slot = some s)
    (hg : s.generation = some g) (hstream : t.worker.streams.get? g.stream = some stream)
    (hkeep : sweepEvent? t.worker.streams g = none) :
    t.sweep.worker.sessions.get? slot = some s ∧
      t.sweep.worker.streams.get? g.stream = some stream := by
  obtain ⟨t', hs', hstream', hevent, hsession, hstreams⟩ := t.sweep_step ht hs hg hstream
  rw [hkeep] at hevent
  have hsame : (t'.sweepSlot slot).worker = t'.worker := by
    rw [sweepSlot_worker hs', hg, Option.bind_some, hevent]
  rw [hsession, hstreams, hsame]
  exact ⟨hs', hstream'⟩

theorem sweep_ended (ht : t.worker.HoldersDistinct) (hs : t.worker.sessions.get? slot = some s)
    (hg : s.generation = some g) (hstream : t.worker.streams.get? g.stream = some stream)
    {event : StreamEvent} (hend : sweepEvent? t.worker.streams g = some event) :
    t.sweep.worker.sessions.get? slot = some s.idle ∧
      t.sweep.worker.streams.get? g.stream = some (g.close b event stream) := by
  obtain ⟨t', hs', hstream', hevent, hsession, hstreams⟩ := t.sweep_step ht hs hg hstream
  rw [hend] at hevent
  have hfinish : (t'.sweepSlot slot).worker = t'.worker.finishGeneration slot event := by
    rw [sweepSlot_worker hs', hg, Option.bind_some, hevent]
  rw [hsession, hstreams, hfinish, stream_finishGeneration hs' hg, hstream']
  exact ⟨get?_finishGeneration hs' event, rfl⟩

/-- The sweep passes over a generation, or ends it. -/
theorem runs_sweep (ht : t.worker.HoldersDistinct) (h : t.worker.Runs slot s g stream) :
    t.sweep.worker.Runs slot s g stream ∨
      ∃ event, event.isInterruption = true ∧
        t.sweep.worker.Leaves slot s.id g.stream (g.close b event stream) none := by
  rcases hevent : sweepEvent? t.worker.streams g with _ | event
  · obtain ⟨hs, hstream⟩ := t.sweep_kept ht h.session h.generation h.stream hevent
    exact .inl ⟨hs, h.generation, hstream⟩
  · obtain ⟨hs, hstream⟩ := t.sweep_ended ht h.session h.generation h.stream hevent
    have hidle := holder_eq_none_of_generation hs rfl
    refine .inr ⟨event, ?_, hstream, t.actsOn_sweep.unheld ht h.holder hidle⟩
    unfold sweepEvent? at hevent
    split_ifs at hevent <;> exact Option.some.inj hevent ▸ rfl

/-! ### Prefill -/

/-- **A failed prefill call** takes every share from its session, and ends its generation. -/
theorem prefill_lost {e : Error}
    (hfails : (b.compute t.worker.context t.worker.prefillPlan.batch).2 = .error e) {share : Share}
    (hshare : share ∈ t.worker.prefillShares) :
    t.prefill.worker.sessions.get? share.slot =
        some (share.session.lose e.message share.count) ∧
      (t.worker.HoldersDistinct → ∀ g stream, share.session.generation = some g →
        t.worker.streams.get? g.stream = some stream →
        t.prefill.worker.streams.get? g.stream = some (g.close b (.error e.message) stream)) := by
  rcases t.prefill_share hshare with ⟨logits, hlogits, -⟩ | ⟨e', hfails', hlost⟩
  · exact nomatch hfails.symm.trans hlogits
  · obtain rfl := Except.error.inj (hfails.symm.trans hfails')
    exact hlost

/-- A session that loses nothing keeps its generation and what it knows of earlier losses, and its
stream stays as it is. -/
theorem prefill_kept (hdistinct : t.worker.HoldersDistinct)
    (hs : t.worker.sessions.get? slot = some s)
    (hkept : (∀ e, (b.compute t.worker.context t.worker.prefillPlan.batch).2 ≠ .error e) ∨
      slot ∉ t.worker.prefillShares.map Share.slot) :
    ∃ s', t.prefill.worker.sessions.get? slot = some s' ∧ s'.generation = s.generation ∧
      s'.inputError = s.inputError ∧
      s.KeepsStream t.worker.streams t.prefill.worker.streams := by
  by_cases hslot : slot ∈ t.worker.prefillShares.map Share.slot
  · have hsucceeds := hkept.resolve_right fun h => h hslot
    obtain ⟨share, hshare, rfl⟩ := List.mem_map.mp hslot
    obtain rfl := Option.some.inj (hs.symm.trans (mem_prefillShares hshare).1)
    rcases t.prefill_share hshare with ⟨logits, -, hs', hstreams⟩ | ⟨e, hfails, -⟩
    · exact ⟨_, hs', rfl, rfl, fun _ _ => by rw [hstreams]⟩
    · exact absurd hfails (hsucceeds e)
  · obtain ⟨context, hacts⟩ := t.actsOn_prefill
    have hkeeps := hacts.keepsStream hdistinct hs hslot
    exact ⟨s, (hacts.session slot hslot).trans hs, rfl, rfl, hkeeps⟩

/-- The prefill stage leaves a generation alone, or ends it because input was lost. -/
theorem runs_prefill (ht : t.worker.HoldersDistinct) (h : t.worker.Runs slot s g stream) :
    (∃ s', t.prefill.worker.Runs slot s' g stream ∧ s'.id = s.id) ∨
      ∃ event, event.isInterruption = true ∧
        t.prefill.worker.Leaves slot s.id g.stream (g.close b event stream) none := by
  obtain ⟨context, hacts⟩ := t.actsOn_prefill
  by_cases hkept : (∀ e, (b.compute t.worker.context t.worker.prefillPlan.batch).2 ≠ .error e) ∨
      slot ∉ t.worker.prefillShares.map Share.slot
  · obtain ⟨s', hs', hg', -, hkeeps⟩ := t.prefill_kept ht h.session hkept
    obtain ⟨s₀, hs₀, hseat⟩ := hacts.get?_of_get? hs'
    obtain rfl := Option.some.inj (h.session.symm.trans hs₀)
    have hstream := (hkeeps g h.generation).trans h.stream
    exact .inl ⟨s', ⟨hs', hg'.trans h.generation, hstream⟩, congrArg Prod.fst hseat⟩
  · rw [not_or, not_not] at hkept
    obtain ⟨hfails, hslot⟩ := hkept
    simp only [not_forall, not_not] at hfails
    obtain ⟨e, hfails⟩ := hfails
    obtain ⟨share, hshare, rfl⟩ := List.mem_map.mp hslot
    obtain rfl := Option.some.inj (h.session.symm.trans (mem_prefillShares hshare).1)
    obtain ⟨hs', hstream'⟩ := t.prefill_lost hfails hshare
    exact .inr ⟨.error e.message, rfl, hstream' ht g stream h.generation h.stream,
      hacts.unheld ht h.holder (holder_eq_none_of_generation hs' (Session.generation_lose ..))⟩

/-- A generation that runs after the prefill stage has run before it and has lost nothing. -/
theorem runs_before_prefill (ht : t.worker.HoldersDistinct)
    (h : t.prefill.worker.Runs slot s g stream) :
    ∃ s₀, t.worker.Runs slot s₀ g stream ∧ s₀.id = s.id ∧
      ((∀ e, (b.compute t.worker.context t.worker.prefillPlan.batch).2 ≠ .error e) ∨
        slot ∉ t.worker.prefillShares.map Share.slot) := by
  obtain ⟨context, hacts⟩ := t.actsOn_prefill
  obtain ⟨s₀, hs₀, hseat⟩ := hacts.get?_of_get? h.session
  have hkept : (∀ e, (b.compute t.worker.context t.worker.prefillPlan.batch).2 ≠ .error e) ∨
      slot ∉ t.worker.prefillShares.map Share.slot := by
    rw [or_iff_not_imp_right, not_not]
    intro hslot e hfails
    obtain ⟨share, hshare, rfl⟩ := List.mem_map.mp hslot
    obtain rfl := Option.some.inj (h.session.symm.trans (t.prefill_lost hfails hshare).1)
    exact nomatch (Session.generation_lose ..).symm.trans h.generation
  obtain ⟨s', hs', hg, -, hkeeps⟩ := t.prefill_kept ht hs₀ hkept
  obtain rfl := Option.some.inj (h.session.symm.trans hs')
  have hg₀ : s₀.generation = some g := hg.symm.trans h.generation
  exact ⟨s₀, ⟨hs₀, hg₀, (hkeeps g hg₀).symm.trans h.stream⟩, (congrArg Prod.fst hseat).symm, hkept⟩

/-! ### Decode -/

/-- A turn of decoding, as the generation sees it. -/
theorem goes_accept (hready : s.decodeReady = true) (hg : s.generation = some g)
    (stream : Stream) (logits : Logits) :
    g.Goes b stream (s.accept b g stream logits).1.generation (s.accept b g stream logits).2
      (sampledOn g.stream (s.turnEffects logits)) := by
  rcases hsample : s.sampler.sample logits with e | ⟨token, sampler⟩
  · have hend : (StreamEvent.error e.message).isInterruption = true := rfl
    rw [Session.accept_of_error hsample, Session.sampledOn_turnEffects_of_error hsample]
    exact .ended hend
  · rw [Session.sampledOn_turnEffects_of_ok hg hsample]
    rcases hadvance : g.advance b token stream with ⟨_ | event, g', stream'⟩
    · rw [Session.accept_of_none (Session.pending_of_decodeReady hready) hsample hadvance]
      exact .advanced hadvance
    · rw [Session.accept_of_some hsample hadvance]
      exact .finished hadvance

theorem decode_of_generation (ht : t.worker.Seated) (hsound : t.worker.StreamsSound)
    (hs : t.worker.sessions.get? slot = some s) (hg : s.generation = some g)
    (hstream : t.worker.streams.get? g.stream = some stream) :
    ∃ s' stream', t.decode.worker.sessions.get? slot = some s' ∧
      t.decode.worker.streams.get? g.stream = some stream' ∧
      g.Goes b stream s'.generation stream'
        (sampledOn g.stream (effectsOn s.id t.worker.decodeEffects)) := by
  by_cases hslot : slot ∈ t.worker.decodeServed.map Prod.fst
  · obtain ⟨⟨slot, s'⟩, hentry, rfl⟩ := List.mem_map.mp hslot
    obtain ⟨hget, hready⟩ := mem_decodeServed hentry
    obtain rfl := Option.some.inj (hs.symm.trans hget)
    rcases decode_turn ht hsound.distinct hentry hg hstream with
      ⟨logits, row, -, -, hs', hstream', heffects⟩ | ⟨e, -, hs', hstream', heffects⟩
    · rw [heffects]
      exact ⟨_, _, hs', hstream', goes_accept hready hg ..⟩
    · have hend : (StreamEvent.error e.message).isInterruption = true := rfl
      rw [heffects]
      exact ⟨_, _, hs', hstream', .ended hend⟩
  -- Nobody else is served in its name.
  · obtain ⟨context, hacts⟩ := actsOn_decode ht
    have hkeeps := hacts.keepsStream hsound.distinct hs hslot
    rw [effectsOn_decodeEffects_of_notMem ht hs hslot]
    exact ⟨s, stream, (hacts.session slot hslot).trans hs, (hkeeps g hg).trans hstream,
      hg ▸ .passed rfl rfl⟩

/-- **The decode stage, as a generation sees it.** -/
theorem runs_decode (ht : t.worker.Seated) (hsound : t.worker.StreamsSound)
    (h : t.worker.Runs slot s g stream) :
    ∃ g? stream', t.decode.worker.Leaves slot s.id g.stream stream' g? ∧
      g.Goes b stream g? stream' (sampledOn g.stream (effectsOn s.id t.worker.decodeEffects)) := by
  obtain ⟨s', stream', hs', hstream', hgoes⟩ :=
    t.decode_of_generation ht hsound h.session h.generation h.stream
  obtain ⟨context, hacts⟩ := actsOn_decode ht
  obtain ⟨s₀, hs₀, hseat⟩ := hacts.get?_of_get? hs'
  obtain rfl := Option.some.inj (h.session.symm.trans hs₀)
  refine ⟨s'.generation, stream', ?_, hgoes⟩
  cases hg' : s'.generation with
  | none =>
    have hidle := holder_eq_none_of_generation hs' hg'
    exact ⟨hstream', hacts.unheld hsound.distinct h.holder hidle⟩
  | some g' =>
    rw [hg'] at hgoes
    have hsame : g'.stream = g.stream := hgoes.stream_eq
    rw [← hsame] at hstream'
    exact ⟨hsame, s', ⟨hs', hg', hstream'⟩, congrArg Prod.fst hseat⟩

end Turn

namespace Worker

variable {b : Backend} {w w' : Worker b} {slot : Slot} {s : Session} {g : Generation}
  {stream : Stream}

/-! ### Ticks -/

/-- After the sweep somebody listens to every generation. -/
theorem Runs.listened (h : w.prefillStage.Runs slot s g stream) (hsound : w.StreamsSound) :
    stream.handleOpen = true := by
  have hbegin := hsound.beginTick
  have hheld : w.beginTick.worker.holder slot = some g.stream := by
    by_contra hne
    exact w.beginTick.actsOn_sweep.holder_ne hne h.holder
  obtain ⟨s₀, g₀, stream₀, hruns, -⟩ := hbegin.exists_runs hheld
  rcases hevent : Turn.sweepEvent? w.beginTick.worker.streams g₀ with _ | event
  · obtain ⟨hs, hstream⟩ := w.beginTick.sweep_kept hbegin.distinct hruns.session hruns.generation
      hruns.stream hevent
    obtain ⟨rfl, rfl, rfl⟩ := Runs.unique ⟨hs, hruns.generation, hstream⟩ h
    by_contra hclosed
    unfold Turn.sweepEvent? Streams.isClosed at hevent
    rw [hruns.stream] at hevent
    split_ifs at hevent with hcancelled hopen
    exact hopen (by simpa using hclosed)
  · obtain ⟨hs, -⟩ := w.beginTick.sweep_ended hbegin.distinct hruns.session hruns.generation
      hruns.stream hevent
    obtain rfl := Option.some.inj (hs.symm.trans h.session)
    exact nomatch h.generation

/-- **A generation that loses input** is told so in the same tick. -/
theorem Runs.log_of_lost {share : Share}
    (h : w.prefillStage.Runs share.slot share.session g stream) (hsound : w.StreamsSound)
    {e : Error}
    (hfails : (b.compute w.prefillStage.context w.prefillStage.prefillPlan.batch).2 = .error e)
    (hshare : share ∈ w.prefillStage.prefillShares) :
    ∃ stream', w.tick.worker.streams.get? g.stream = some stream' ∧
      stream'.log = stream.log ++ [.error e.message] := by
  obtain ⟨hs₂, hstream₂⟩ := Turn.prefill_lost w.beginTick.sweep hfails hshare
  -- Nobody holds the stream after the prefill stage, so the decode stage does not touch it.
  obtain ⟨context, hacts⟩ := w.beginTick.sweep.actsOn_prefill
  have hfree := hacts.unheld hsound.prefillStage.distinct h.holder
    (holder_eq_none_of_generation hs₂ (Session.generation_lose ..))
  have hclosed := hstream₂ hsound.prefillStage.distinct g stream h.generation h.stream
  obtain ⟨-, hstream'⟩ := (stepInvariant_unheld g.stream _).decode ⟨hfree, hclosed⟩
  rw [Worker.tick]
  refine ⟨_, hstream', ?_⟩
  show (stream.finish (.error e.message)).log = _
  rw [(h.flowing hsound.prefillStage).finish_log, if_pos (h.listened hsound)]

/-- **A tick, as a generation sees it.** -/
theorem Runs.tick (h : w.Runs slot s g stream) (hw : w.Seated) (hsound : w.StreamsSound) :
    ∃ g? stream', w.tick.worker.Leaves slot s.id g.stream stream' g? ∧
      g.Goes b stream g? stream' (sampledOn g.stream (effectsOn s.id w.tickEffects)) := by
  have hstart : w.beginTick.worker.Runs slot s g stream := ⟨h.session, h.generation, h.stream⟩
  rw [sampledOn_tickEffects]
  -- If an early stage ends the generation, nobody holds its stream in the decode stage.
  have hover : ∀ {event : StreamEvent}, event.isInterruption = true →
      w.decodeStage.Leaves slot s.id g.stream (g.close b event stream) none →
        ∃ g? stream', w.tick.worker.Leaves slot s.id g.stream stream' g? ∧
          g.Goes b stream g? stream'
            (sampledOn g.stream (effectsOn s.id w.decodeStage.decodeEffects)) := by
    intro event hevent hleaves
    rw [sampledOn_decodeEffects hleaves.2]
    exact ⟨none, _, hleaves.of_stepInvariant fun hP hstage => hP.decode hstage, .ended hevent⟩
  rcases w.beginTick.runs_sweep hsound.beginTick.distinct hstart with
    hkept | ⟨event, hevent, hleaves⟩
  · rcases w.beginTick.sweep.runs_prefill hsound.prefillStage.distinct hkept with
      ⟨s', hkept', hid⟩ | ⟨event, hevent, hleaves⟩
    · have hdecode :=
        w.beginTick.sweep.prefill.runs_decode hw.decodeStage hsound.decodeStage hkept'
      rw [hid] at hdecode
      exact hdecode
    · exact hover hevent hleaves
  · exact hover hevent (hleaves.of_stepInvariant fun hP hstage => hP.prefill hstage)

/-! ### Other actions -/

theorem leaves_passed {name : SessionId} {s' : Session} {cancelRequested : Bool} {stream' : Stream}
    (hs' : w'.sessions.get? slot = some s') (hid : s'.id = name)
    (hg' : s'.generation = some { g with cancelRequested })
    (hstream' : w'.streams.get? g.stream = some stream')
    (hsession : stream'.session = stream.session) (hlog : stream'.log = stream.log) :
    ∃ g? stream', w'.Leaves slot name g.stream stream' g? ∧ g.Goes b stream g? stream' [] :=
  ⟨some { g with cancelRequested }, stream', ⟨rfl, s', ⟨hs', hg', hstream'⟩, hid⟩,
    .passed hsession hlog⟩

/-- A generation that the worker has when it shuts down is told so. -/
theorem Runs.quiesce (h : w.Runs slot s g stream) (hdistinct : w.HoldersDistinct) :
    w.quiesce.streams.get? g.stream = some (g.close b (.done .shutdown) stream) := by
  let stop (t : Turn b) (slot : Slot) : Turn b :=
    t.update fun w => w.finishGeneration slot (.done .shutdown)
  have hnodup : (w.sessions.slots.map fun slot => slot).Nodup := by
    rw [List.map_id']
    exact SlotArena.slots_nodup
  have hquiesce : (w.sessions.slots.foldl stop { worker := w }).worker = w.quiesce :=
    (List.foldl_hom Turn.worker fun _ _ => rfl).symm
  have hstop : ∀ t' : Turn b, t'.worker.index = w.index → ∀ slot ∈ w.sessions.slots,
      ActsOn [slot] t'.worker (stop t' slot).worker :=
    fun t' _ slot _ => actsOn_finishGeneration t'.worker slot _
  obtain ⟨t', -, hbefore, -, hstreams⟩ :=
    foldl_at hnodup { worker := w } hstop (SlotArena.mem_slots.mpr ⟨s, h.session⟩)
  obtain ⟨hstream, hstream'⟩ := hstreams hdistinct g.stream h.holder
  rw [← hquiesce]
  refine hstream'.trans ?_
  show (t'.worker.finishGeneration slot _).streams.get? g.stream = _
  rw [stream_finishGeneration (hbefore.trans h.session) h.generation, hstream]
  exact congrArg (Option.map _) h.stream

/-- **What commands and consumers do to a running generation.** -/
theorem Step.runs {action : Action} (hstep : Step w action w') (htick : action ≠ .tick)
    (hw : w.Seated) (hsound : w.StreamsSound) (h : w.Runs slot s g stream) :
    ∃ g? stream', w'.Leaves slot s.id g.stream stream' g? ∧ g.Goes b stream g? stream' [] := by
  obtain ⟨hs, hg, hstream⟩ := h
  have hmodify := SlotArena.get?_modify_of_eq_some hs
  cases hstep with
  | same => exact leaves_passed hs rfl hg hstream rfl rfl
  | create hnew hinsert tally =>
    have hs' := hw.arena.get?_insertWith_of_eq_some hinsert hs
    exact leaves_passed hs' rfl hg hstream rfl rfl
  | @append id text slot' tokens =>
    have hs' := hmodify slot' (Session.enqueue · tokens)
    split_ifs at hs'
    · exact leaves_passed hs' rfl hg hstream rfl rfl
    · exact leaves_passed hs' rfl hg hstream rfl rfl
  | @generate _ id opened hopened budget =>
    -- While it is active, a request for its session is refused.
    have hactive : s.generation ≠ none := by simp [hg]
    have hs' := hw.get?_generateOn hs opened id budget (.inr hactive)
    exact leaves_passed hs' rfl hg (w.stream_generateOn hstream ..) rfl rfl
  | @cancel id slot' s' hfind =>
    have hcancel :
        s.cancel.2 = { s with generation := some { g with cancelRequested := true } } := by
      rw [Session.cancel, hg]
    by_cases heq : slot = slot'
    · have hs' := hmodify slot' fun s => s.cancel.2
      rw [if_pos heq, hcancel] at hs'
      exact leaves_passed hs' rfl rfl hstream rfl rfl
    · have hs' := hmodify slot' fun s => s.cancel.2
      rw [if_neg heq] at hs'
      exact leaves_passed hs' rfl hg hstream rfl rfl
  | @endSession id slot' hslot' tally =>
    by_cases heq : slot = slot'
    · subst heq
      have hclosed := stream_finishGeneration hs hg (.done .sessionEnded)
      rw [hstream] at hclosed
      refine ⟨none, _, ⟨hclosed, fun slot' hheld' => ?_⟩, .ended rfl⟩
      -- Nobody else held the stream.
      rw [Worker.holder, get?_release_finishGeneration] at hheld'
      split_ifs at hheld' with hne
      · cases hheld'
      · exact hne (hsound.distinct slot' slot g.stream hheld'
          (holder_eq_some_iff.mpr ⟨s, g, hs, hg, rfl⟩))
    · have hs' := w.get?_release_finishGeneration slot' slot (.done .sessionEnded)
      rw [if_neg heq, hs] at hs'
      have hacts := actsOn_finishGeneration w slot' (.done .sessionEnded)
      have hkeeps := hacts.keepsStream hsound.distinct hs (List.mem_singleton.not.mpr heq)
      exact leaves_passed hs' rfl hg ((hkeeps g hg).trans hstream) rfl rfl
  | tick => exact absurd rfl htick
  | shutdown =>
    have hclosed := Runs.quiesce ⟨hs, hg, hstream⟩ hsound.distinct
    rw [← streams_shutdown] at hclosed
    refine ⟨none, _, ⟨hclosed, fun slot' => ?_⟩, .ended rfl⟩
    rw [holder_shutdown]
    rintro ⟨⟩
  | @consume _ stream' f hf =>
    obtain ⟨stream'', hget, hsession, hlog, -⟩ := hf.get?_modify hstream
    exact leaves_passed hs rfl hg hget hsession hlog

/-- **What becomes of a running generation by an action.** -/
theorem Runs.act (h : w.Runs slot s g stream) (hw : w.Seated) (hsound : w.StreamsSound)
    (action : Action) :
    ∃ g? stream', (w.act action).Leaves slot s.id g.stream stream' g? ∧
      g.Goes b stream g? stream' (sampledOn g.stream (effectsOn s.id (w.effects action))) := by
  by_cases htick : action = .tick
  · rw [htick]
    exact h.tick hw hsound
  · rw [w.sampledOn_effects htick]
    exact (step_act w action).runs htick hw hsound h

/-! ### Streams without a holder -/

/-- Whoever holds a stream after a request to generate held it before, or it is the new one. -/
theorem holder_generateOn_ne {opened : Stream} {name : SessionId} {budget : Nat} {id : StreamId}
    (hfree : w.holder slot ≠ some id) (hnew : id ≠ (w.streams.add opened).1) :
    (w.generateOn opened name budget).holder slot ≠ some id := by
  rcases w.generateOn_cases opened name budget with
    ⟨event, tally, -, heq⟩ | ⟨slot', s', event, -, -, -, heq⟩ |
      ⟨slot', s', tally, -, -, -, -, -, heq⟩ <;> rw [heq]
  · exact hfree
  · exact (actsOn_quiet (Session.quiet_inputError none) w _).holder_ne hfree
  -- Only a request that is accepted puts a generation into a session, and it has the new stream.
  · intro hheld
    rw [Worker.holder, modifySession, SlotArena.get?_modify] at hheld
    split_ifs at hheld
    · cases hs : w.sessions.get? slot with
      | none =>
        rw [hs] at hheld
        cases hheld
      | some s =>
        rw [hs] at hheld
        exact hnew (Option.some.inj hheld).symm
    · exact hfree hheld

/-- **Nobody writes to a stream that nobody holds**, and nobody comes to hold it. -/
theorem Step.unheld {action : Action} (hstep : Step w action w') {id : StreamId}
    (hfree : ∀ slot, w.holder slot ≠ some id) (hw : w.Seated)
    (hstream : w.streams.get? id = some stream) :
    (∀ slot, w'.holder slot ≠ some id) ∧ ∃ stream', w'.streams.get? id = some stream' ∧
      stream'.session = stream.session ∧ stream'.log = stream.log ∧
      (stream'.handleOpen = true → stream.handleOpen = true) := by
  have hkept : ∀ {w'' : Worker b}, w''.streams.get? id = some stream →
      ∃ stream', w''.streams.get? id = some stream' ∧ stream'.session = stream.session ∧
        stream'.log = stream.log ∧ (stream'.handleOpen = true → stream.handleOpen = true) :=
    fun hstream' => ⟨stream, hstream', rfl, rfl, fun hopen => hopen⟩
  have hquiet : ∀ {slot'} {f : Session → Session}, Session.Quiet f →
      ∀ slot, (w.modifySession slot' f).holder slot ≠ some id := fun hf slot =>
    (actsOn_quiet hf w _).holder_ne (hfree slot)
  cases hstep with
  | same => exact ⟨hfree, hkept hstream⟩
  | @create name sampling slot' sessions hnew hinsert tally =>
    -- A new session has no generation.
    obtain ⟨-, hget⟩ := hw.arena.get?_insertWith hinsert
    refine ⟨fun slot hheld => ?_, hkept hstream⟩
    rw [Worker.holder, hget] at hheld
    split_ifs at hheld
    · cases hheld
    · exact hfree slot hheld
  | append => exact ⟨hquiet (Session.quiet_enqueue _), hkept hstream⟩
  | @generate _ name opened hopened budget =>
    have hnew : id ≠ (w.streams.add opened).1 :=
      Nat.ne_of_lt (List.getElem?_eq_some_iff.mp hstream).1
    exact ⟨fun slot => holder_generateOn_ne (hfree slot) hnew,
      hkept (w.stream_generateOn hstream ..)⟩
  | cancel => exact ⟨hquiet Session.quiet_cancel, hkept hstream⟩
  | @endSession name slot' hslot' tally =>
    -- The end of a generation is told to its own stream, and that is another one.
    have hacts := actsOn_finishGeneration w slot' (.done .sessionEnded)
    refine ⟨fun slot hheld => ?_, hkept ((hacts.stream id fun slot _ => hfree slot).trans hstream)⟩
    rw [Worker.holder, get?_release_finishGeneration] at hheld
    split_ifs at hheld
    · cases hheld
    · exact hfree slot hheld
  | tick =>
    -- All that a tick does to the table of streams it does through their holders.
    obtain ⟨hfree', hstream'⟩ := (stepInvariant_unheld id (some stream)).tick ⟨hfree, hstream⟩
    exact ⟨hfree', hkept hstream'⟩
  | shutdown =>
    obtain ⟨-, hstream'⟩ := (stepInvariant_unheld id (some stream)).quiesce ⟨hfree, hstream⟩
    refine ⟨fun slot => ?_, hkept (by rw [streams_shutdown, hstream'])⟩
    rw [holder_shutdown]
    rintro ⟨⟩
  | @consume _ stream' f hf =>
    -- A consumer moves its own mark, or drops its handle.
    obtain ⟨stream'', hget, hsession, hlog, hopen, -⟩ := hf.get?_modify hstream
    exact ⟨hfree, stream'', hget, hsession, hlog, hopen⟩

/-! ### New streams -/

/-- What a request to generate leaves of the stream that it has opened. -/
inductive Opened (name : SessionId) : Stream → Prop
  | accepted {s : Stream} (hs : FreshStream name s) : Opened name s
  | refused {s : Stream} (hs : FreshStream name s) {event : StreamEvent}
      (hevent : event.isTerminal = true) : Opened name (s.finish event)

theorem FreshStream.session_eq {name : SessionId} {s : Stream} (h : FreshStream name s) :
    s.session = name := by
  cases h <;> rfl

theorem FreshStream.log_eq {name : SessionId} {s : Stream} (h : FreshStream name s) :
    s.log = [] := by
  cases h <;> rfl

theorem Opened.session_eq {name : SessionId} {s : Stream} (h : Opened name s) :
    s.session = name := by
  cases h with
  | accepted hs => exact hs.session_eq
  | @refused s hs event => exact (s.extends_finish event).session.trans hs.session_eq

theorem stepInvariant_streamCount (count : Nat) :
    StepInvariant fun w : Worker b => w.streams.entries.length = count where
  congr h _ _ hstreams := by rwa [hstreams]
  finish slot event _ h := (actsOn_finishGeneration _ slot event).streamCount.trans h
  quiet _ _ _ h := h
  advance slot token h := (actsOn_advance _ slot token).streamCount.trans h

/-- Only requests to generate put streams on the table. -/
theorem Step.generate_of_new {action : Action} (hstep : Step w action w') {id : StreamId}
    (hnew : w.streams.get? id = none) (hstream : w'.streams.get? id = some stream) :
    ∃ name s budget, action.generates = some name ∧ FreshStream name s ∧
      w' = w.generateOn s name budget := by
  have hsame : w'.streams.entries.length = w.streams.entries.length → False := fun hlength =>
    Streams.ne_none_of_length_le hlength.le hstream hnew
  cases hstep with
  | generate hs budget haction => exact ⟨_, _, budget, haction, hs, rfl⟩
  | endSession => exact (hsame (actsOn_finishGeneration w _ _).streamCount).elim
  | tick => exact (hsame ((stepInvariant_streamCount _).tick rfl)).elim
  | shutdown =>
    refine (hsame ?_).elim
    rw [streams_shutdown]
    exact (stepInvariant_streamCount _).quiesce rfl
  | consume => exact (hsame (w.streams.length_entries_modify _ _)).elim
  | _ => exact nomatch hnew.symm.trans hstream

theorem Step.opened {action : Action} (hstep : Step w action w') {id : StreamId}
    (hnew : w.streams.get? id = none) (hstream : w'.streams.get? id = some stream) :
    ∃ name, action.generates = some name ∧ Opened name stream := by
  obtain ⟨name, s, budget, haction, hs, rfl⟩ := hstep.generate_of_new hnew hstream
  refine ⟨name, haction, ?_⟩
  rcases w.generateOn_cases s name budget with
    ⟨event, tally, hevent, heq⟩ | ⟨slot', s', event, -, -, hevent, heq⟩ |
      ⟨slot', s', tally, -, -, -, -, -, heq⟩
  all_goals
    rw [heq] at hstream
    obtain ⟨-, rfl⟩ := (Streams.get?_add_cases hstream).resolve_left fun hold =>
      nomatch hnew.symm.trans hold
  · exact .refused hs hevent
  · exact .refused hs hevent
  · exact .accepted hs

/-- A generation on a stream that was not on the table has just begun. -/
theorem Step.started {action : Action} (hstep : Step w action w') (hw : w.Seated)
    (hsound : w.StreamsSound) (hnew : w.streams.get? g.stream = none)
    (h : w'.Runs slot s g stream) : g.decoder = {} ∧ FreshStream s.id stream := by
  obtain ⟨name, opened, budget, -, hopened, rfl⟩ := hstep.generate_of_new hnew h.stream
  have hunheld : w.holder slot ≠ some g.stream := by
    intro hheld
    obtain ⟨stream', hstream', -⟩ := hsound.flowing slot g.stream hheld
    exact nomatch hnew.symm.trans hstream'
  have hheld := h.holder
  have hstream := h.stream
  -- A request that is refused leaves the holders as they were; one that is accepted names the slot.
  rcases w.generateOn_cases opened name budget with
    ⟨event, tally, -, heq⟩ | ⟨slot', s', event, -, -, -, heq⟩ |
      ⟨slot', s', tally, hfind, -, -, -, -, heq⟩
  · rw [heq] at hheld
    exact absurd hheld hunheld
  · rw [heq] at hheld
    have hholder := holder_modifySession slot' (w := w)
      (fun s' _ => (Session.quiet_inputError none).stream s') slot
    exact absurd (hholder.symm.trans hheld) hunheld
  · obtain ⟨hindex, hs'⟩ := find?_eq_some_iff.mp hfind
    obtain rfl := hw.id_eq hs' hindex
    have hs := h.session
    have hg := h.generation
    rw [heq] at hs hstream
    change (w.sessions.modify slot' _).get? slot = some s at hs
    rw [SlotArena.get?_modify] at hs
    split_ifs at hs with hslot
    · rw [hslot, hs', Option.map_some] at hs
      obtain rfl := Option.some.inj hs
      obtain rfl := Option.some.inj hg
      obtain ⟨-, rfl⟩ := (Streams.get?_add_cases hstream).resolve_left fun hold =>
        nomatch hnew.symm.trans hold
      exact ⟨rfl, hopened⟩
    · exact absurd (holder_eq_some_iff.mpr ⟨s, g, hs, hg, rfl⟩) hunheld

/-- **Where a running generation comes from**: the action has made it of one that ran in the same
slot, or it has just begun. -/
theorem Runs.before (hw : w.Seated) (hsound : w.StreamsSound) {action : Action}
    (h : (w.act action).Runs slot s g stream) :
    (∃ s₀ g₀ stream₀, w.Runs slot s₀ g₀ stream₀ ∧ s.id = s₀.id ∧
      g₀.Goes b stream₀ (some g) stream
        (sampledOn g₀.stream (effectsOn s₀.id (w.effects action)))) ∨
      w.streams.get? g.stream = none ∧ g.decoder = {} ∧ FreshStream s.id stream := by
  have hstep := step_act w action
  cases hold : w.streams.get? g.stream with
  | none => exact .inr ⟨rfl, hstep.started hw hsound hold h⟩
  | some stream₀ =>
    by_cases hheld : ∃ slot₀, w.holder slot₀ = some g.stream
    · obtain ⟨slot₀, hheld⟩ := hheld
      obtain ⟨s₀, g₀, stream₀, hruns, hsame⟩ := hsound.exists_runs hheld
      obtain ⟨g?, stream', hleaves, hgoes⟩ := hruns.act hw hsound action
      cases g? with
      | none => exact absurd (hsame ▸ h.holder) (hleaves.2 slot)
      | some g' =>
        obtain ⟨hsame', s', hruns', hid⟩ := hleaves
        obtain rfl : slot₀ = slot := (hstep.streamsSound hw hsound).distinct slot₀ slot g.stream
          (by rw [hruns'.holder, hsame', hsame]) h.holder
        obtain ⟨rfl, rfl, rfl⟩ := hruns'.unique h
        exact .inl ⟨s₀, g₀, stream₀, hruns, hid, hgoes⟩
    · rw [not_exists] at hheld
      exact absurd h.holder ((hstep.unheld hheld hw hold).1 slot)

/-! ### Names -/

/-- Every generation speaks on a stream of its own session. -/
def Named (w : Worker b) : Prop :=
  ∀ slot s g stream, w.Runs slot s g stream → stream.session = s.id

theorem Named.act (h : w.Named) (hw : w.Seated) (hsound : w.StreamsSound) (action : Action) :
    (w.act action).Named := by
  intro slot s g stream hruns
  rcases hruns.before hw hsound with ⟨s₀, g₀, stream₀, hruns₀, hid, hgoes⟩ | ⟨-, -, hfresh⟩
  · rw [hgoes.session_eq, h slot s₀ g₀ stream₀ hruns₀, hid]
  · exact hfresh.session_eq

theorem named_run (id : WorkerId) (context : b.Context) (config : WorkerConfig)
    (actions : List Action) : ((start id context config).run actions).Named := by
  have hall := run_induction
    (P := fun w : Worker b => w.Seated ∧ w.StreamsSound ∧ w.Named)
    (fun w action ⟨hw, hsound, h⟩ => ⟨(step_act w action).seated hw,
      (step_act w action).streamsSound hw hsound, h.act hw hsound action⟩)
    ⟨seated_start id context config, streamsSound_start id context config,
      fun slot s g stream hruns => by
        have hnobody := hruns.session
        rw [get?_start] at hnobody
        cases hnobody⟩
    actions
  exact hall.2.2

end Worker

end Turnwise
