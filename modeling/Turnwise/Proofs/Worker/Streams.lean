import Turnwise.Proofs.Worker.Invariant

/-!
# The streams of a worker

Every stream is opened by a request to generate, and every stream comes to an end: there are many
ways in which a generation can be over, and all of them go through the one function that closes its
stream. What carries the argument is that the sink of a stream is held by at most one session, that
a stream whose sink is held is flowing, and that every other stream has ended
(`Worker.StreamsSound`). Consumers may act between any two actions of the worker.

`Worker.streams_run` puts together what this means for the events on a stream.
-/

namespace Turnwise

/-! ### Ends of generations -/

namespace Generation

variable {b : Backend} {g : Generation} {s : Stream}

theorem flowing_flushTo (h : s.Flowing) : (g.flushTo b s).Flowing := by
  unfold flushTo
  split
  · rename_i text htext
    exact h.offer (g.decoder.flush_ne_empty b.detokenize text htext)
  · exact h

/-- Held text takes one of two free places at most, so the terminal event still fits. -/
theorem ended_close (h : s.Flowing) {event : StreamEvent} (hevent : event.isTerminal = true) :
    (g.close b event s).Ended := by
  unfold close
  split
  · exact (flowing_flushTo h).finish hevent
  · exact h.finish hevent

end Generation

/-! ### Growing logs -/

/-- No stream is lost, and no event is taken back. -/
def Streams.Grow (streams streams' : Streams) : Prop :=
  ∀ stream s, streams.get? stream = some s →
    ∃ s', streams'.get? stream = some s' ∧ s.log <+: s'.log

namespace Streams

variable {streams streams' streams'' : Streams}

theorem Grow.refl (streams : Streams) : streams.Grow streams :=
  fun _ s hs => ⟨s, hs, List.prefix_rfl⟩

theorem Grow.trans (h : streams.Grow streams') (h' : streams'.Grow streams'') :
    streams.Grow streams'' := by
  intro stream s hs
  obtain ⟨s', hs', hgrow⟩ := h stream s hs
  obtain ⟨s'', hs'', hgrow'⟩ := h' stream s' hs'
  exact ⟨s'', hs'', hgrow.trans hgrow'⟩

theorem get?_add_of_eq_some {stream : StreamId} {s s' : Stream}
    (h : streams.get? stream = some s') :
    (streams.add s).2.get? stream = some s' := by
  rw [get?] at h
  rw [get?, add, List.getElem?_append_left (List.getElem?_eq_some_iff.mp h).1, h]

/-- A table that is no longer has no further streams on it. -/
theorem ne_none_of_length_le {stream : StreamId} {s : Stream}
    (hlength : streams'.entries.length ≤ streams.entries.length)
    (h : streams'.get? stream = some s) : streams.get? stream ≠ none := by
  intro hnone
  rw [get?, List.getElem?_eq_none_iff] at hnone
  exact Nat.not_lt.mpr (hlength.trans hnone) (List.getElem?_eq_some_iff.mp h).1

theorem get?_add_self (s : Stream) : (streams.add s).2.get? (streams.add s).1 = some s := by
  rw [get?, add, List.getElem?_concat_length]

/-- A stream on the table after one more was added is that one or an earlier one. -/
theorem get?_add_cases {stream : StreamId} {s s' : Stream}
    (h : (streams.add s).2.get? stream = some s') :
    streams.get? stream = some s' ∨ stream = (streams.add s).1 ∧ s' = s := by
  rw [get?, add, List.getElem?_append] at h
  split_ifs at h with hlt
  · exact Or.inl h
  · rw [List.getElem?_singleton] at h
    split_ifs at h with hzero
    exact Or.inr ⟨Nat.le_antisymm (Nat.le_of_sub_eq_zero hzero) (Nat.le_of_not_lt hlt),
      (Option.some.inj h).symm⟩

theorem grow_add (s : Stream) : streams.Grow (streams.add s).2 :=
  fun _ s' hs => ⟨s', get?_add_of_eq_some hs, List.prefix_rfl⟩

theorem grow_modify (stream : StreamId) {f : Stream → Stream}
    (hf : ∀ s : Stream, s.log <+: (f s).log) :
    streams.Grow (streams.modify stream f) := by
  intro stream' s hs
  rw [get?_modify, hs]
  split_ifs
  · exact ⟨f s, rfl, hf s⟩
  · exact ⟨s, rfl, List.prefix_rfl⟩

end Streams

namespace Worker

variable {b : Backend} {w w' : Worker b}

theorem FreshStream.flowing {id : SessionId} {s : Stream} (h : FreshStream id s) : s.Flowing := by
  cases h with
  | opened capacity => exact Stream.flowing_ofCapacity id capacity
  | abandoned capacity => exact (Stream.flowing_ofCapacity id capacity).dropHandle

theorem holder_finishGeneration_self (w : Worker b) (slot : Slot) (event : StreamEvent) :
    (w.finishGeneration slot event).holder slot = none := by
  cases hheld : w.holder slot with
  | none => rw [finishGeneration_of_holder_eq_none hheld, hheld]
  | some stream =>
    obtain ⟨s, g, hs, -, -⟩ := holder_eq_some_iff.mp hheld
    rw [holder, get?_finishGeneration hs]
    rfl

theorem holder_finishGeneration_of_ne (w : Worker b) {slot slot' : Slot} (hne : slot' ≠ slot)
    (event : StreamEvent) : (w.finishGeneration slot event).holder slot' = w.holder slot' :=
  holder_congr <| (actsOn_finishGeneration w slot event).session slot' fun hmem =>
    hne (List.mem_singleton.mp hmem)

/-- The end of a generation is seen on its own stream only. -/
theorem stream_finishGeneration_of_ne {slot : Slot} {stream stream' : StreamId}
    (hheld : w.holder slot = some stream) (hne : stream' ≠ stream) (event : StreamEvent) :
    (w.finishGeneration slot event).streams.get? stream' = w.streams.get? stream' := by
  refine (actsOn_finishGeneration w slot event).stream stream' fun slot' hslot' h => hne ?_
  rw [List.mem_singleton.mp hslot', hheld] at h
  exact (Option.some.inj h).symm

/-- A worker that shuts down ends all its generations. -/
theorem holder_quiesce (w : Worker b) (slot : Slot) : w.quiesce.holder slot = none := by
  have hfold : ∀ (slots : List Slot) (w : Worker b), slot ∈ slots ∨ w.holder slot = none →
      (slots.foldl (fun w slot => w.finishGeneration slot (.done .shutdown)) w).holder slot =
        none := by
    intro slots
    induction slots with
    | nil => exact fun w h => h.resolve_left List.not_mem_nil
    | cons first rest ih =>
      intro w h
      refine ih _ ?_
      rcases h with hmem | hnone
      · rcases List.mem_cons.mp hmem with rfl | hrest
        · exact Or.inr (w.holder_finishGeneration_self slot _)
        · exact Or.inl hrest
      · rcases (actsOn_finishGeneration w first (.done .shutdown)).holder slot with heq | heq
        · exact Or.inr (heq.trans hnone)
        · exact Or.inr heq
  refine hfold _ w ?_
  cases hs : w.sessions.get? slot with
  | none => exact Or.inr (by rw [holder, hs]; rfl)
  | some s => exact Or.inl (SlotArena.mem_slots.mpr ⟨s, hs⟩)

theorem holder_shutdown (w : Worker b) (slot : Slot) : w.shutdown.holder slot = none := by
  rw [shutdown_eq]
  show (w.quiesce.releaseAll _).holder slot = none
  have hquiet := w.holder_quiesce slot
  rw [holder] at hquiet ⊢
  rw [get?_releaseAll]
  split_ifs
  · rfl
  · exact hquiet

theorem streams_shutdown (w : Worker b) : w.shutdown.streams = w.quiesce.streams := by
  rw [shutdown_eq]
  exact w.quiesce.streams_releaseAll _

/-! ### The invariant -/

/-- A stream flows while its sink is held, and has ended otherwise. -/
structure StreamsSound (w : Worker b) : Prop where
  distinct : w.HoldersDistinct
  flowing : ∀ slot stream, w.holder slot = some stream →
    ∃ s, w.streams.get? stream = some s ∧ s.Flowing
  ended : ∀ stream s, w.streams.get? stream = some s →
    (∀ slot, w.holder slot ≠ some stream) → s.Ended

namespace StreamsSound

theorem congr (hw : w.StreamsSound) (hholder : ∀ slot, w'.holder slot = w.holder slot)
    (hstreams : w'.streams = w.streams) : w'.StreamsSound where
  distinct slot slot' stream h h' := by
    rw [hholder] at h h'
    exact hw.distinct slot slot' stream h h'
  flowing slot stream h := by
    rw [hholder] at h
    rw [hstreams]
    exact hw.flowing slot stream h
  ended stream s hs hfree := by
    rw [hstreams] at hs
    exact hw.ended stream s hs fun slot => hholder slot ▸ hfree slot

theorem beginTick (hw : w.StreamsSound) : w.beginTick.worker.StreamsSound :=
  hw.congr (fun _ => rfl) rfl

/-- The streams may change as long as the flowing ones flow and the others stay closed. -/
theorem modify (hw : w.StreamsSound) (stream : StreamId) {f : Stream → Stream}
    (hflowing : ∀ s : Stream, s.Flowing → (f s).Flowing)
    (hended : (∀ slot, w.holder slot ≠ some stream) → ∀ s : Stream, s.Ended → (f s).Ended) :
    StreamsSound { w with streams := w.streams.modify stream f } where
  distinct := hw.distinct
  flowing slot stream' h := by
    obtain ⟨s, hs, hflow⟩ := hw.flowing slot stream' h
    rw [Streams.get?_modify, hs]
    split_ifs
    · exact ⟨f s, rfl, hflowing s hflow⟩
    · exact ⟨s, rfl, hflow⟩
  ended stream' s' hs' hfree := by
    change (w.streams.modify stream f).get? stream' = some s' at hs'
    rw [Streams.get?_modify] at hs'
    split_ifs at hs' with heq
    · obtain ⟨s, hs, rfl⟩ := Option.map_eq_some_iff.mp hs'
      exact hended (heq ▸ hfree) s (hw.ended stream' s hs hfree)
    · exact hw.ended stream' s' hs' hfree

theorem finish (hw : w.StreamsSound) (slot : Slot) {event : StreamEvent}
    (hevent : event.isTerminal = true) : (w.finishGeneration slot event).StreamsSound := by
  cases hheld : w.holder slot with
  | none =>
    rw [finishGeneration_of_holder_eq_none hheld]
    exact hw
  | some stream =>
    obtain ⟨s, g, hs, hg, rfl⟩ := holder_eq_some_iff.mp hheld
    have hdistinct := (actsOn_finishGeneration w slot event).holdersDistinct hw.distinct
    refine ⟨hdistinct, fun slot' stream h => ?_, fun stream s' hs' hfree => ?_⟩
    -- Who holds a stream afterwards is another session, and its stream is another.
    · have hne : slot' ≠ slot := by
        rintro rfl
        rw [w.holder_finishGeneration_self] at h
        cases h
      rw [w.holder_finishGeneration_of_ne hne] at h
      have hne' : stream ≠ g.stream := by
        rintro rfl
        exact hne (hw.distinct slot' slot g.stream h hheld)
      rw [stream_finishGeneration_of_ne hheld hne']
      exact hw.flowing slot' stream h
    -- A stream that nobody holds afterwards is the one that was closed, or was free before.
    · by_cases heq : stream = g.stream
      · obtain ⟨before, hbefore, hflow⟩ := hw.flowing slot g.stream hheld
        rw [heq, stream_finishGeneration hs hg, hbefore] at hs'
        obtain rfl := Option.some.inj hs'
        exact Generation.ended_close hflow hevent
      · rw [stream_finishGeneration_of_ne hheld heq] at hs'
        refine hw.ended stream s' hs' fun slot' h => ?_
        by_cases hslot : slot' = slot
        · rw [hslot, hheld] at h
          exact heq (Option.some.inj h).symm
        · exact hfree slot' (by rw [w.holder_finishGeneration_of_ne hslot, h])

theorem quiet (hw : w.StreamsSound) (slot : Slot) {f : Session → Session}
    (hf : Session.Quiet f) : (w.modifySession slot f).StreamsSound :=
  hw.congr (holder_modifySession slot fun s _ => hf.stream s) rfl

theorem advance (hw : w.StreamsSound) (slot : Slot) (token : Token) :
    (Turn.advance w slot token).2.StreamsSound := by
  cases hheld : w.holder slot with
  | none =>
    rw [advance_of_holder_eq_none hheld]
    exact hw
  | some stream =>
    obtain ⟨s, g, hs, hg, rfl⟩ := holder_eq_some_iff.mp hheld
    obtain ⟨g', hg', hadvance⟩ := advance_cases hs hg token
    let stored := w.modifySession slot fun s => { s with generation := some g' }
    have hstored : stored.StreamsSound := by
      refine hw.congr (holder_modifySession slot fun s' hs' => ?_) rfl
      obtain rfl : s = s' := Option.some.inj (hs.symm.trans hs')
      rw [hg, Option.map_some, Option.map_some, hg']
    rcases hadvance with heq | ⟨text, htext, heq⟩
    · exact heq ▸ hstored
    · have hheld' : stored.holder slot = some g.stream := by
        show (((w.sessions.modify slot _).get? slot).bind _).map _ = _
        rw [SlotArena.get?_modify_self, hs]
        exact congrArg some hg'
      rw [heq]
      exact hstored.modify g.stream (fun s h => h.offer htext)
        fun hfree => absurd hheld' (hfree slot)

/-- A stream that has ended already may join the table. -/
theorem add_ended (hw : w.StreamsSound) {s : Stream} (hs : s.Ended) :
    StreamsSound { w with streams := (w.streams.add s).2 } where
  distinct := hw.distinct
  flowing slot stream h := by
    obtain ⟨s', hs', hflow⟩ := hw.flowing slot stream h
    exact ⟨s', Streams.get?_add_of_eq_some hs', hflow⟩
  ended stream s' hs' hfree := by
    rcases Streams.get?_add_cases hs' with hold | ⟨-, rfl⟩
    · exact hw.ended stream s' hold hfree
    · exact hs

/-- Nobody holds a stream that is not on the table. -/
theorem holder_ne_add (hw : w.StreamsSound) (slot : Slot) (s : Stream) :
    w.holder slot ≠ some (w.streams.add s).1 := by
  intro h
  obtain ⟨s', hs', -⟩ := hw.flowing slot _ h
  exact Nat.lt_irrefl _ (List.getElem?_eq_some_iff.mp hs').1

/-- A flowing stream may join the table together with a generation that holds its sink. -/
theorem add_flowing (hw : w.StreamsSound) {s : Stream} (hs : s.Flowing) {slot : Slot}
    (hidle : w.holder slot = none)
    (hholder : ∀ slot', w'.holder slot' =
      if slot' = slot then some (w.streams.add s).1 else w.holder slot')
    (hstreams : w'.streams = (w.streams.add s).2) : w'.StreamsSound where
  distinct slot₁ slot₂ stream h₁ h₂ := by
    rw [hholder] at h₁ h₂
    -- The new stream was not on the table, so nobody but the new generation can hold it.
    split_ifs at h₁ h₂ with heq₁ heq₂ heq₂
    · exact heq₁.trans heq₂.symm
    · obtain rfl := Option.some.inj h₁
      exact absurd h₂ (hw.holder_ne_add slot₂ s)
    · obtain rfl := Option.some.inj h₂
      exact absurd h₁ (hw.holder_ne_add slot₁ s)
    · exact hw.distinct slot₁ slot₂ stream h₁ h₂
  flowing slot' stream h := by
    rw [hholder] at h
    rw [hstreams]
    split_ifs at h with heq
    · obtain rfl := Option.some.inj h
      exact ⟨s, Streams.get?_add_self s, hs⟩
    · obtain ⟨s', hs', hflow⟩ := hw.flowing slot' stream h
      exact ⟨s', Streams.get?_add_of_eq_some hs', hflow⟩
  ended stream s' hs' hfree := by
    rw [hstreams] at hs'
    rcases Streams.get?_add_cases hs' with hold | ⟨rfl, -⟩
    · refine hw.ended stream s' hold fun slot' h => ?_
      by_cases heq : slot' = slot
      · rw [heq, hidle] at h
        cases h
      · exact hfree slot' (by rw [hholder, if_neg heq, h])
    · exact absurd (by rw [hholder, if_pos rfl]) (hfree slot)

theorem wellFormed (hw : w.StreamsSound) {stream : StreamId} {s : Stream}
    (hs : w.streams.get? stream = some s) :
    WellFormedLog s.log ∧ s.buffered.length ≤ s.capacity := by
  by_cases hheld : ∃ slot, w.holder slot = some stream
  · obtain ⟨slot, hslot⟩ := hheld
    obtain ⟨s', hs', hflow⟩ := hw.flowing slot stream hslot
    obtain rfl := Option.some.inj (hs.symm.trans hs')
    exact ⟨hflow.wellFormed, hflow.fits⟩
  · have hended := hw.ended stream s hs fun slot h => hheld ⟨slot, h⟩
    exact ⟨hended.wellFormed, hended.fits⟩

/-- Nobody holds the sink of a stream that has its terminal event. -/
theorem holder_ne_of_terminal (hw : w.StreamsSound) {stream : StreamId} {s : Stream}
    (hs : w.streams.get? stream = some s) {event : StreamEvent} (hevent : event.isTerminal = true)
    (hmem : event ∈ s.log) (slot : Slot) : w.holder slot ≠ some stream := by
  intro hheld
  obtain ⟨s', hs', hflow⟩ := hw.flowing slot stream hheld
  obtain rfl := Option.some.inj (hs.symm.trans hs')
  obtain ⟨text, -, rfl⟩ := hflow.chunks event hmem
  cases hevent

end StreamsSound

theorem stepInvariant_streamsSound : StepInvariant (StreamsSound : Worker b → Prop) where
  congr hw hsessions _ hstreams :=
    hw.congr (fun slot => holder_congr (by rw [hsessions])) hstreams
  finish slot _ hevent hw := hw.finish slot hevent
  quiet slot _ hf hw := hw.quiet slot hf
  advance slot token hw := hw.advance slot token

theorem streamsSound_start (id : WorkerId) (context : b.Context) (config : WorkerConfig) :
    (start id context config).StreamsSound := by
  have hidle : ∀ slot, (start id context config).holder slot = none := by
    intro slot
    rw [holder, get?_start]
    rfl
  refine ⟨fun slot _ _ h => ?_, fun slot _ h => ?_, fun stream s hs => ?_⟩
  · rw [hidle] at h
    cases h
  · rw [hidle] at h
    cases h
  · rw [start, Streams.get?, List.getElem?_nil] at hs
    cases hs

theorem StreamsSound.generateOn (hw : w.StreamsSound) {id : SessionId} {s : Stream}
    (hs : FreshStream id s) (budget : Nat) : (w.generateOn s id budget).StreamsSound := by
  rcases w.generateOn_cases s id budget with
    ⟨event, tally, hevent, heq⟩ | ⟨slot, s', event, -, -, hevent, heq⟩ |
      ⟨slot, s', tally, hfind, hg, -, -, -, heq⟩
  · rw [heq]
    exact (hw.add_ended (hs.flowing.finish hevent)).congr (fun _ => rfl) rfl
  · rw [heq]
    have hrefused := (hw.quiet slot (Session.quiet_inputError none)).add_ended
      (hs.flowing.finish hevent)
    exact hrefused.congr (fun _ => rfl) rfl
  · have hs' := (find?_eq_some_iff.mp hfind).2
    rw [heq]
    refine hw.add_flowing hs.flowing (by rw [holder, hs', Option.bind_some, hg]; rfl) ?_ rfl
    intro slot'
    rw [holder, holder, modifySession, SlotArena.get?_modify]
    split_ifs with hslot
    · rw [hslot, hs']
      rfl
    · rfl

theorem Step.streamsSound {action : Action} (h : Step w action w') (hseated : w.Seated)
    (hw : w.StreamsSound) : w'.StreamsSound := by
  cases h with
  | same => exact hw
  | @create id sampling slot sessions hnew hinsert tally =>
    -- The slot of a new session was vacant, so no sink is lost with its old entry.
    obtain ⟨hvacant, hget⟩ := hseated.arena.get?_insertWith hinsert
    refine hw.congr (fun slot' => ?_) rfl
    rw [holder, holder, hget]
    split_ifs with heq
    · rw [heq, hvacant]
      rfl
    · rfl
  | append => exact hw.quiet _ (Session.quiet_enqueue _)
  | generate hs budget => exact hw.generateOn hs budget
  | cancel => exact hw.quiet _ Session.quiet_cancel
  | @endSession id slot hslot tally =>
    have hended : (StreamEvent.done .sessionEnded).isTerminal = true := rfl
    refine (hw.finish slot hended).congr (fun slot' => ?_) rfl
    have hgone := w.holder_finishGeneration_self slot (.done .sessionEnded)
    rw [holder, release, SlotArena.get?_erase]
    split_ifs with heq
    · rw [heq, hgone]
      rfl
    · rfl
  | tick => exact stepInvariant_streamsSound.tick hw
  | shutdown =>
    refine (stepInvariant_streamsSound.quiesce hw).congr (fun slot => ?_) w.streams_shutdown
    rw [holder_shutdown, holder_quiesce]
  | consume hf =>
    cases hf with
    | read count => exact hw.modify _ (fun s h => h.take count) fun _ s h => h.take count
    | drop => exact hw.modify _ (fun s h => h.dropHandle) fun _ s h => h.dropHandle

/-! ### Streams only grow -/

theorem ActsOn.grow {slots : List Slot} (h : ActsOn slots w w') : w.streams.Grow w'.streams := by
  intro stream s hs
  obtain ⟨s', hs', hext⟩ := h.grows stream s hs
  exact ⟨s', hs', hext.log⟩

/-- What has grown since some moment has still grown after one more step. -/
theorem stepInvariant_grow (streams : Streams) :
    StepInvariant fun w : Worker b => streams.Grow w.streams where
  congr h _ _ hstreams := by rwa [hstreams]
  finish slot event _ h := h.trans (actsOn_finishGeneration _ slot event).grow
  quiet slot _ hf h := h.trans (actsOn_quiet hf _ slot).grow
  advance slot token h := h.trans (actsOn_advance _ slot token).grow

/-- A tick never puts a session on a stream. -/
theorem stepInvariant_holder_ne (slot : Slot) (stream : StreamId) :
    StepInvariant fun w : Worker b => w.holder slot ≠ some stream where
  congr h hsessions _ _ := by
    rw [holder, hsessions]
    exact h
  finish slot' event _ h := (actsOn_finishGeneration _ slot' event).holder_ne h
  quiet slot' _ hf h := (actsOn_quiet hf _ slot').holder_ne h
  advance slot' token h := (actsOn_advance _ slot' token).holder_ne h

/-- A tick leaves a stream alone that nobody holds. -/
theorem stepInvariant_unheld (stream : StreamId) (s? : Option Stream) :
    StepInvariant fun w : Worker b =>
      (∀ slot, w.holder slot ≠ some stream) ∧ w.streams.get? stream = s? := by
  have hstep : ∀ {w w' : Worker b} {slots}, ActsOn slots w w' →
      (∀ slot, w.holder slot ≠ some stream) ∧ w.streams.get? stream = s? →
        (∀ slot, w'.holder slot ≠ some stream) ∧ w'.streams.get? stream = s? :=
    fun hacts h => ⟨fun slot => hacts.holder_ne (h.1 slot),
      (hacts.stream stream fun slot _ => h.1 slot).trans h.2⟩
  constructor
  · intro w w' h hsessions _ hstreams
    refine ⟨fun slot => ?_, hstreams ▸ h.2⟩
    rw [holder, hsessions]
    exact h.1 slot
  · exact fun slot event _ => hstep (actsOn_finishGeneration _ slot event)
  · exact fun slot _ hf => hstep (actsOn_quiet hf _ slot)
  · exact fun slot token => hstep (actsOn_advance _ slot token)

/-- A request to generate puts its stream on the table, whether it is refused or not. -/
theorem streams_generateOn (w : Worker b) (s : Stream) (id : SessionId) (budget : Nat) :
    ∃ s', s.Extends s' ∧ (w.generateOn s id budget).streams = (w.streams.add s').2 := by
  rcases w.generateOn_cases s id budget with
    ⟨event, tally, -, heq⟩ | ⟨slot, s', event, -, -, -, heq⟩ |
      ⟨slot, s', tally, -, -, -, -, -, heq⟩
  · rw [heq]
    exact ⟨s.finish event, s.extends_finish event, rfl⟩
  · rw [heq]
    exact ⟨s.finish event, s.extends_finish event, rfl⟩
  · rw [heq]
    exact ⟨s, .refl s, rfl⟩

/-- The streams that are there already stay as they are. -/
theorem stream_generateOn {id : StreamId} {stream : Stream}
    (hstream : w.streams.get? id = some stream) (s : Stream) (name : SessionId) (budget : Nat) :
    (w.generateOn s name budget).streams.get? id = some stream := by
  obtain ⟨s', -, hstreams⟩ := w.streams_generateOn s name budget
  rw [hstreams]
  exact Streams.get?_add_of_eq_some hstream

theorem Step.grow {action : Action} (h : Step w action w') : w.streams.Grow w'.streams := by
  cases h with
  | same => exact .refl _
  | create => exact .refl _
  | append => exact .refl _
  | @generate _ id s hs budget =>
    obtain ⟨s', -, hstreams⟩ := w.streams_generateOn s id budget
    rw [hstreams]
    exact Streams.grow_add s'
  | cancel => exact .refl _
  | @endSession id slot hslot tally =>
    exact (actsOn_finishGeneration w slot (.done .sessionEnded)).grow
  | tick => exact (stepInvariant_grow w.streams).tick (.refl _)
  | shutdown =>
    rw [streams_shutdown]
    exact (stepInvariant_grow w.streams).quiesce (.refl _)
  | consume hf =>
    refine Streams.grow_modify _ fun s => ?_
    cases hf <;> exact List.prefix_rfl

/-- A stream that has its terminal event stays as it is. -/
theorem StreamsSound.log_act (hw : w.StreamsSound) (hseated : w.Seated) {stream : StreamId}
    {s : Stream} (hs : w.streams.get? stream = some s)
    (hterminal : ∃ event ∈ s.log, event.isTerminal = true) (action : Action) :
    ∃ s', (w.act action).streams.get? stream = some s' ∧ s'.log = s.log := by
  have hstep := step_act w action
  obtain ⟨s', hs', hgrow⟩ := hstep.grow stream s hs
  have hwf := (hstep.streamsSound hseated hw).wellFormed hs'
  exact ⟨s', hs', hwf.1.eq_of_longer hgrow hterminal⟩

/-! ### All runs -/

theorem streamsSound_run (id : WorkerId) (context : b.Context) (config : WorkerConfig)
    (actions : List Action) : ((start id context config).run actions).StreamsSound := by
  have hboth := run_induction (P := fun w : Worker b => w.Seated ∧ w.StreamsSound)
    (fun w action h => ⟨(step_act w action).seated h.1, (step_act w action).streamsSound h.1 h.2⟩)
    ⟨seated_start id context config, streamsSound_start id context config⟩ actions
  exact hboth.2

/-- **Every stream is well formed and comes to its end.** On any backend and after any actions of
the worker and of its consumers:

* a request to generate opens one stream, with room for the events it asked for but for at least
  two;
* a stream carries pieces of text and then at most one terminal event, and never more than fit;
* while a session holds its sink there is no terminal event on it, and the terminal event, whatever
  it will be, is going to fit;
* when no session holds the sink any more, and the consumer has not dropped the handle, the terminal
  event is there, and it is there once;
* no event is taken back, and nothing comes after the terminal event;
* a shutdown leaves no sink held. -/
theorem streams_run (id : WorkerId) (context : b.Context) (config : WorkerConfig)
    (actions : List Action) :
    let w := (start id context config).run actions
    (∀ session budget capacity,
      (w.handle (.generate session budget capacity)).1 = .opened w.streams.entries.length ∧
      ∃ s, (w.act (.command (.generate session budget capacity))).streams.get?
          w.streams.entries.length = some s ∧
        s.session = session ∧ s.capacity = max capacity 2) ∧
    (∀ stream s, w.streams.get? stream = some s →
      WellFormedLog s.log ∧ s.buffered.length ≤ s.capacity ∧
      (∀ slot, w.holder slot = some stream →
        Chunks s.log ∧
        ∀ event, (s.finish event).log = if s.handleOpen then s.log ++ [event] else s.log) ∧
      ((∀ slot, w.holder slot ≠ some stream) → s.handleOpen = true →
        s.log.countP StreamEvent.isTerminal = 1)) ∧
    (∀ action stream s, w.streams.get? stream = some s →
      ∃ s', (w.act action).streams.get? stream = some s' ∧ s.log <+: s'.log ∧
        ((∃ event ∈ s.log, event.isTerminal = true) → s'.log = s.log)) ∧
    (∀ slot, w.shutdown.holder slot = none) := by
  intro w
  have hseated : w.Seated := seated_run id context config actions
  have hsound : w.StreamsSound := streamsSound_run id context config actions
  refine ⟨fun session budget capacity => ⟨rfl, ?_⟩, fun stream s hs => ?_,
    fun action stream s hs => ?_, w.holder_shutdown⟩
  · obtain ⟨s, hext, hstreams⟩ :=
      w.streams_generateOn (.ofCapacity session capacity) session budget
    refine ⟨s, ?_, hext.session, hext.capacity⟩
    show (w.generateOn _ session budget).streams.get? _ = _
    rw [hstreams]
    exact Streams.get?_add_self s
  · obtain ⟨hwf, hfits⟩ := hsound.wellFormed hs
    refine ⟨hwf, hfits, fun slot hslot => ?_, fun hfree hopen => ?_⟩
    · obtain ⟨s', hs', hflow⟩ := hsound.flowing slot stream hslot
      obtain rfl := Option.some.inj (hs.symm.trans hs')
      exact ⟨hflow.chunks, hflow.finish_log⟩
    · exact (hsound.ended stream s hs hfree).terminal hopen
  · obtain ⟨s', hs', hgrow⟩ := (step_act w action).grow stream s hs
    have hwf := ((step_act w action).streamsSound hseated hsound).wellFormed hs'
    exact ⟨s', hs', hgrow, hwf.1.eq_of_longer hgrow⟩

end Worker

end Turnwise
