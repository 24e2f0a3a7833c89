import Mathlib.Data.List.Basic
import Mathlib.Tactic.SplitIfs
import Turnwise.Stream

/-!
# Well-formed streams

The log of a stream is *well formed* if it consists of pieces of text, none of them empty, and at
most one terminal event, which is the last (`WellFormedLog`).

A stream is in one of two states. While a generation holds its sink it is *flowing*: there is
nothing but text on it, and one place is free (`Stream.Flowing`). After the sink is closed it has
*ended*: its log is well formed, and unless the consumer dropped the handle first, the terminal
event is there (`Stream.Ended`). The free place is why the step from one state to the other never
fails for lack of room (`Stream.Flowing.finish`): a chunk is only taken while two places are free,
so one is left (`Stream.Flowing.offer`), and a consumer only ever makes room.
-/

namespace Turnwise

/-- Pieces of text only, none of them empty. -/
def Chunks (log : List StreamEvent) : Prop := ∀ event ∈ log, ∃ text, text ≠ "" ∧ event = .chunk text

/-- Pieces of text, and after them at most one terminal event. -/
def WellFormedLog (log : List StreamEvent) : Prop :=
  ∃ chunks, Chunks chunks ∧
    (log = chunks ∨ ∃ event, event.isTerminal = true ∧ log = chunks ++ [event])

theorem chunks_nil : Chunks [] := fun _ h => absurd h List.not_mem_nil

theorem Chunks.append {log log' : List StreamEvent} (h : Chunks log) (h' : Chunks log') :
    Chunks (log ++ log') := fun event hmem =>
  (List.mem_append.mp hmem).elim (h event) (h' event)

theorem chunks_singleton {text : String} (h : text ≠ "") : Chunks [.chunk text] := fun _ hmem =>
  ⟨text, h, List.mem_singleton.mp hmem⟩

/-- There is no terminal event among pieces of text. -/
theorem Chunks.countP_isTerminal {log : List StreamEvent} (h : Chunks log) :
    log.countP StreamEvent.isTerminal = 0 := by
  rw [List.countP_eq_zero]
  intro event hmem
  obtain ⟨text, -, rfl⟩ := h event hmem
  exact Bool.false_ne_true

theorem Chunks.countP_isTerminal_append {log : List StreamEvent} (h : Chunks log)
    {event : StreamEvent} (hevent : event.isTerminal = true) :
    (log ++ [event]).countP StreamEvent.isTerminal = 1 := by
  rw [List.countP_append, h.countP_isTerminal, List.countP_singleton, if_pos hevent]

/-- Nothing can come after a terminal event. -/
theorem WellFormedLog.eq_of_longer {log log' : List StreamEvent} (h' : WellFormedLog log')
    (hgrow : log <+: log') (hterminal : ∃ event ∈ log, event.isTerminal = true) : log' = log := by
  obtain ⟨rest, rfl⟩ := hgrow
  obtain ⟨event, hmem, hevent⟩ := hterminal
  obtain ⟨chunks, hchunks, heq | ⟨last, hlast, heq⟩⟩ := h'
  · obtain ⟨text, -, rfl⟩ := hchunks event (heq ▸ List.mem_append_left _ hmem)
    cases hevent
  -- If anything came after `log`, the terminal event in `log` would be among the pieces of text.
  · rcases List.eq_nil_or_concat' rest with rfl | ⟨front, last', rfl⟩
    · exact List.append_nil _
    · rw [← List.append_assoc] at heq
      obtain ⟨hfront, -⟩ := List.append_inj' heq rfl
      obtain ⟨text, -, rfl⟩ := hchunks event (hfront ▸ List.mem_append_left _ hmem)
      cases hevent

namespace Stream

variable {s : Stream}

/-- A stream whose sink is held: nothing but text so far, and a place for the end. -/
structure Flowing (s : Stream) : Prop where
  sinkOpen : s.sinkOpen = true
  chunks : Chunks s.log
  room_pos : 0 < s.room

/-- A stream whose sink is closed. The end is missing only if nobody was there to take it. -/
structure Ended (s : Stream) : Prop where
  sinkOpen : s.sinkOpen = false
  wellFormed : WellFormedLog s.log
  fits : s.buffered.length ≤ s.capacity
  terminal : s.handleOpen = true → s.log.countP StreamEvent.isTerminal = 1

theorem room_eq (s : Stream) : s.room = s.capacity - (s.log.length - s.taken) := by
  rw [room, buffered, List.length_drop]

theorem flowing_ofCapacity (session : SessionId) (capacity : Nat) :
    (ofCapacity session capacity).Flowing where
  sinkOpen := rfl
  chunks := chunks_nil
  room_pos := by
    rw [room_eq]
    show 0 < max capacity 2 - (0 - 0)
    omega

/-! ### What the sink's side can do -/

/-- The worker has put more events on the stream, and nothing else has changed but the sink. -/
structure Extends (s s' : Stream) : Prop where
  session : s'.session = s.session
  capacity : s'.capacity = s.capacity
  taken : s'.taken = s.taken
  handleOpen : s'.handleOpen = s.handleOpen
  log : s.log <+: s'.log

theorem Extends.refl (s : Stream) : s.Extends s := ⟨rfl, rfl, rfl, rfl, List.prefix_rfl⟩

theorem Extends.trans {s s' s'' : Stream} (h : s.Extends s') (h' : s'.Extends s'') :
    s.Extends s'' :=
  ⟨h'.session.trans h.session, h'.capacity.trans h.capacity, h'.taken.trans h.taken,
    h'.handleOpen.trans h.handleOpen, h.log.trans h'.log⟩

theorem extends_put (s : Stream) (event : StreamEvent) : s.Extends (s.put event) :=
  ⟨rfl, rfl, rfl, rfl, List.prefix_append ..⟩

theorem extends_offer (s : Stream) (text : String) : s.Extends (s.offer text).2 := by
  unfold offer
  split_ifs
  · exact Extends.refl s
  · exact Extends.refl s
  · exact s.extends_put _

theorem extends_finish (s : Stream) (event : StreamEvent) : s.Extends (s.finish event) := by
  unfold finish
  split
  · exact (s.extends_put event).trans ⟨rfl, rfl, rfl, rfl, List.prefix_rfl⟩
  · exact ⟨rfl, rfl, rfl, rfl, List.prefix_rfl⟩

/-- Taking a chunk leaves one of the two free places that it asks for. -/
theorem Flowing.offer (h : s.Flowing) {text : String} (htext : text ≠ "") :
    (s.offer text).2.Flowing := by
  unfold Stream.offer
  split_ifs with hopen hroom
  · exact h
  · exact h
  -- Two places were free, and the piece of text takes one.
  · refine ⟨h.sinkOpen, h.chunks.append (chunks_singleton htext), ?_⟩
    rw [room_eq] at hroom ⊢
    show 0 < s.capacity - ((s.log ++ [StreamEvent.chunk text]).length - s.taken)
    rw [List.length_append, List.length_singleton]
    omega

/-- **The terminal event always fits.** If the consumer still has the handle, the event is put on
the stream. -/
theorem Flowing.finish_log (h : s.Flowing) (event : StreamEvent) :
    (s.finish event).log = if s.handleOpen then s.log ++ [event] else s.log := by
  have hdelivers : s.delivers = s.handleOpen := by
    rw [delivers, decide_eq_true h.room_pos, Bool.and_true]
  rw [Stream.finish, hdelivers]
  split <;> rfl

theorem Flowing.finish (h : s.Flowing) {event : StreamEvent} (hevent : event.isTerminal = true) :
    (s.finish event).Ended := by
  refine ⟨rfl, ⟨s.log, h.chunks, ?_⟩, ?_, fun hopen => ?_⟩
  · rw [h.finish_log]
    split
    · exact Or.inr ⟨event, hevent, rfl⟩
    · exact Or.inl rfl
  -- The terminal event takes the place that was kept free for it.
  · have hroom := h.room_pos
    rw [room_eq] at hroom
    rw [buffered, List.length_drop, h.finish_log, (s.extends_finish event).taken,
      (s.extends_finish event).capacity]
    split
    · rw [List.length_append, List.length_singleton]
      omega
    · omega
  · rw [(s.extends_finish event).handleOpen] at hopen
    rw [h.finish_log, if_pos hopen, h.chunks.countP_isTerminal_append hevent]

/-! ### The consumer's side -/

theorem Flowing.take (h : s.Flowing) (n : Nat) : (s.take n).2.Flowing := by
  refine ⟨h.sinkOpen, h.chunks, ?_⟩
  have hroom := h.room_pos
  rw [room_eq] at hroom ⊢
  show 0 < s.capacity - (s.log.length - (s.taken + (s.buffered.take n).length))
  omega

theorem Flowing.dropHandle (h : s.Flowing) : s.dropHandle.Flowing :=
  ⟨h.sinkOpen, h.chunks, h.room_pos⟩

theorem Ended.take (h : s.Ended) (n : Nat) : (s.take n).2.Ended :=
  { h with
    fits := by
      have hfits := h.fits
      rw [buffered, List.length_drop] at hfits ⊢
      show s.log.length - (s.taken + (s.buffered.take n).length) ≤ s.capacity
      omega }

theorem Ended.dropHandle (h : s.Ended) : s.dropHandle.Ended :=
  { h with terminal := fun hopen => absurd hopen Bool.false_ne_true }

theorem Flowing.wellFormed (h : s.Flowing) : WellFormedLog s.log := ⟨s.log, h.chunks, Or.inl rfl⟩

theorem Flowing.fits (h : s.Flowing) : s.buffered.length ≤ s.capacity := by
  have hroom := h.room_pos
  unfold room at hroom
  omega

end Stream

end Turnwise
