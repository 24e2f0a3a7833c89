import Turnwise.Proofs.Worker.Consistency
import Turnwise.Proofs.Worker.Generations

/-!
# Commands concern the session that they name

Sessions share an arena with its stack of vacant slots, an index, a table of streams and a context.
A command may push a slot onto the stack or take one off it, add to the index or to the table, and
empty a row. `Worker.Concerns name w w'` says that none of this reaches a session of another name:
it is found in the same slot with the same record, and no event is put on a stream of another
session. What happens to the context is that at most the row of the named session's own slot is
emptied.

That a name leads to one slot and a slot to one name (`Worker.Seated`) keeps the other records out
of reach, and that a generation speaks on a stream of its own session (`Worker.Named`) keeps the
other streams out of reach. The backend does not matter until `Worker.isolated_run` speaks of rows.
-/

namespace Turnwise

/-- The session that a command is about; there is none if it is about the worker. -/
def Command.addressee : Command → Option SessionId
  | createSession id _ | appendInput id _ | generate id _ _ | cancel id | endSession id
  | snapshot id => some id
  | status | shutdown => none

/-- The session that an action is about, if it is a command to one. -/
def Action.addressee : Action → Option SessionId
  | command c => c.addressee
  | abandoned id _ _ => some id
  | tick | shutdown | read _ _ | drop _ => none

namespace Worker

variable {b : Backend} {w w' : Worker b} {name : SessionId} {slot : Slot} {s : Session}

/-- From `w` to `w'` nothing has happened to sessions, streams and rows but to those of one name. -/
structure Concerns (name : SessionId) (w w' : Worker b) : Prop where
  index : ∀ other, other ≠ name → w'.index.find? other = w.index.find? other
  session : ∀ slot s, w.sessions.get? slot = some s → s.id ≠ name →
    w'.sessions.get? slot = some s
  /-- Streams of a session that has ended belong to its name as well. -/
  stream : ∀ stream s, w.streams.get? stream = some s → s.session ≠ name →
    w'.streams.get? stream = some s
  context : w'.context = w.context ∨
    ∃ slot, w.index.find? name = some slot ∧ w'.context = b.removeSlot w.context slot

theorem Concerns.refl (name : SessionId) (w : Worker b) : Concerns name w w :=
  ⟨fun _ _ => rfl, fun _ _ hs _ => hs, fun _ _ hs _ => hs, .inl rfl⟩

/-- A change to the record that a name leads to. -/
theorem Seated.concerns_modifySession (hw : w.Seated) (hslot : w.index.find? name = some slot)
    (f : Session → Session) : Concerns name w (w.modifySession slot f) where
  index _ _ := rfl
  session _ _ hs hne :=
    (SlotArena.get?_modify_of_ne (hw.slot_ne hs hslot (Ne.symm hne)) f).trans hs
  stream _ _ hs _ := hs
  context := .inl rfl

/-- A new session takes a vacant slot and a new name. -/
theorem Seated.concerns_create (hw : w.Seated) {sampling : Sampling}
    {sessions : SlotArena Session}
    (hinsert : w.sessions.insertWith (newSession name sampling) = some (slot, sessions))
    (tally : Tally) :
    Concerns name w { w with sessions, index := w.index.insert name slot, tally } where
  index other hne := by rw [SessionIndex.find?_insert, if_neg hne]
  session _ _ hs _ := hw.arena.get?_insertWith_of_eq_some hinsert hs
  stream _ _ hs _ := hs
  context := .inl rfl

theorem Seated.concerns_generateOn (hw : w.Seated) (stream : Stream) (name : SessionId)
    (budget : Nat) : Concerns name w (w.generateOn stream name budget) where
  index _ _ := by rw [index_generateOn]
  session _ _ hs hne := hw.get?_generateOn hs stream name budget (.inl (Ne.symm hne))
  stream _ _ hs _ := w.stream_generateOn hs stream name budget
  context := .inl (w.context_generateOn stream name budget)

/-- The end of a generation is heard on a stream of its own session. -/
theorem StreamsSound.stream_finishGeneration (hsound : w.StreamsSound) (hnamed : w.Named)
    (hs : w.sessions.get? slot = some s) {stream : StreamId} {st : Stream}
    (hst : w.streams.get? stream = some st) (hne : st.session ≠ s.id) (event : StreamEvent) :
    (w.finishGeneration slot event).streams.get? stream = some st := by
  refine ((actsOn_finishGeneration w slot event).stream stream fun slot' hslot' hheld => ?_).trans
    hst
  rw [List.mem_singleton.mp hslot'] at hheld
  obtain ⟨s', g, st', hruns, rfl⟩ := hsound.exists_runs hheld
  obtain rfl := Option.some.inj (hs.symm.trans hruns.session)
  obtain rfl := Option.some.inj (hst.symm.trans hruns.stream)
  exact hne (hnamed slot s g st hruns)

/-- A session that ends gives back its slot and its row, and closes its stream. -/
theorem Seated.concerns_endSession (hw : w.Seated) (hsound : w.StreamsSound) (hnamed : w.Named)
    (hslot : w.index.find? name = some slot) (tally : Tally) :
    Concerns name w
      { (w.finishGeneration slot (.done .sessionEnded)).release slot with
        index := w.index.erase name, tally } where
  index other hne := by rw [SessionIndex.find?_erase, if_neg hne]
  session slot' s hs hne := by
    have hother := hw.slot_ne hs hslot (Ne.symm hne)
    exact (get?_release_finishGeneration ..).trans ((if_neg hother).trans hs)
  stream stream st hst hne := by
    obtain ⟨s, hs, rfl⟩ := (hw.index_iff name slot).mp hslot
    exact hsound.stream_finishGeneration hnamed hs hst hne _
  context := by
    refine .inr ⟨slot, hslot, ?_⟩
    rw [← (actsOn_finishGeneration w slot (.done .sessionEnded)).context]
    rfl

/-- **A command concerns the session that it names**, whatever comes of it. -/
theorem Step.concerns {action : Action} (h : Step w action w') (hw : w.Seated)
    (hsound : w.StreamsSound) (hnamed : w.Named) (haction : action.addressee = some name) :
    Concerns name w w' := by
  cases h with
  | same => exact .refl name w
  | create hnew hinsert tally =>
    obtain rfl := Option.some.inj haction
    exact hw.concerns_create hinsert tally
  | append hslot =>
    obtain rfl := Option.some.inj haction
    exact hw.concerns_modifySession hslot _
  | @generate action id stream hs budget hgenerates =>
    have hid : id = name := by
      unfold Action.generates at hgenerates
      split at hgenerates
      · exact Option.some.inj (hgenerates.symm.trans haction)
      · exact Option.some.inj (hgenerates.symm.trans haction)
      · cases hgenerates
    rw [hid]
    exact hw.concerns_generateOn stream name budget
  | cancel hfind =>
    obtain rfl := Option.some.inj haction
    exact hw.concerns_modifySession (find?_eq_some_iff.mp hfind).1 _
  | endSession hslot tally =>
    obtain rfl := Option.some.inj haction
    exact hw.concerns_endSession hsound hnamed hslot tally
  | tick => cases haction
  | shutdown => cases haction
  | consume hf => cases hf <;> cases haction

/-- A row is emptied at most in the slot that the name led to. -/
theorem Concerns.row_eq {params : ByteModel.Params} {w w' : Worker (ByteModel.backend params)}
    (h : Concerns name w w') (hw : w.Seated) (hs : w.sessions.get? slot = some s)
    (hne : s.id ≠ name) : w'.row slot = w.row slot := by
  unfold row
  rcases h.context with heq | ⟨slot', hslot', heq⟩
  · rw [heq]
  · have hother := hw.slot_ne hs hslot' (Ne.symm hne)
    rw [heq]
    exact (ByteModel.row_removeSlot w.context slot' slot).trans (if_neg hother)

/-- **Commands are isolated.** After any run over the byte model, let a command arrive that names a
session, live or not, and let its consumer, if it opens a stream, listen or not. Whatever comes of
the command:

* every live session of another name is led to as before, has the same record in the same slot and
  the same row, and its generation, if it has one, speaks on the same stream, which says the same;
* every stream that belongs to another session says the same, also if that session has ended;
* the next prefill and the next decode begin where they would have begun. -/
theorem isolated_run (params : ByteModel.Params) (id : WorkerId) (rows : Nat)
    (config : WorkerConfig) (actions : List Action) {action : Action}
    (haction : action.addressee = some name) :
    let w := (fresh params id rows config).run actions
    let w' := w.act action
    (∀ other slot, other ≠ name → w.index.find? other = some slot →
      w'.index.find? other = some slot ∧ w'.row slot = w.row slot ∧
      ∃ s, w.sessions.get? slot = some s ∧ s.id = other ∧ w'.sessions.get? slot = some s ∧
        ∀ g, s.generation = some g → ∃ stream, w.streams.get? g.stream = some stream ∧
          stream.session = other ∧ w'.streams.get? g.stream = some stream) ∧
    (∀ stream st, w.streams.get? stream = some st → st.session ≠ name →
      w'.streams.get? stream = some st) ∧
    w'.prefillCursor = w.prefillCursor ∧ w'.decodeCursor = w.decodeCursor := by
  intro w w'
  have hw : w.Seated := seated_run id _ config actions
  have hsound : w.StreamsSound := streamsSound_run id _ config actions
  have hnamed : w.Named := named_run id _ config actions
  have hstep := step_act w action
  have hconcerns := hstep.concerns hw hsound hnamed haction
  have hcourse := hstep.keepsCourse (by rintro rfl; cases haction)
  refine ⟨fun other slot hne hslot => ?_, hconcerns.stream, hcourse.prefillCursor,
    hcourse.decodeCursor⟩
  obtain ⟨s, hs, rfl⟩ := (hw.index_iff other slot).mp hslot
  refine ⟨(hconcerns.index s.id hne).trans hslot, hconcerns.row_eq hw hs hne, s, hs, rfl,
    hconcerns.session slot s hs hne, fun g hg => ?_⟩
  obtain ⟨stream, hstream, -⟩ :=
    hsound.flowing slot g.stream (holder_eq_some_iff.mpr ⟨s, g, hs, hg, rfl⟩)
  have hsession := hnamed slot s g stream ⟨hs, hg, hstream⟩
  exact ⟨stream, hstream, hsession,
    hconcerns.stream g.stream stream hstream (by rwa [hsession])⟩

/-- Two sessions that both generate, the second of which has been given its first letter. -/
def neighbours : List Action :=
  [.command (.createSession ⟨1⟩ {}), .command (.createSession ⟨2⟩ {}),
    .command (.appendInput ⟨2⟩ "a"), .command (.generate ⟨2⟩ 5 4), .tick,
    .command (.appendInput ⟨1⟩ "x"), .command (.generate ⟨1⟩ 5 4)]

/-- The first session ends in the middle of its generation, and its slot becomes vacant. -/
theorem isolated_run_neighbours :
    let w := (fresh {} ⟨0⟩ 2 {}).run neighbours
    let w' := w.act (.command (.endSession ⟨1⟩))
    w'.index.find? ⟨1⟩ = none ∧ w.index.find? ⟨2⟩ = some ⟨1⟩ ∧ w'.index.find? ⟨2⟩ = some ⟨1⟩ ∧
      w'.row ⟨1⟩ = [97] ∧ w'.sessions.get? ⟨1⟩ = w.sessions.get? ⟨1⟩ ∧
      w'.decodeCursor = w.decodeCursor := by
  intro w w'
  have hended : w'.index.find? ⟨1⟩ = none := by decide +kernel
  have hslot : w.index.find? ⟨2⟩ = some ⟨1⟩ := by decide +kernel
  have hletter : w.row ⟨1⟩ = [97] := by decide +kernel
  have haddressee : (Action.command (.endSession ⟨1⟩)).addressee = some ⟨1⟩ := rfl
  obtain ⟨hsessions, -, -, hdecode⟩ := isolated_run {} ⟨0⟩ 2 {} neighbours haddressee
  obtain ⟨hslot', hrow, s, hs, -, hs', -⟩ := hsessions ⟨2⟩ ⟨1⟩ (by decide) hslot
  exact ⟨hended, hslot, hslot', hrow.trans hletter, hs'.trans hs.symm, hdecode⟩

end Worker

end Turnwise
