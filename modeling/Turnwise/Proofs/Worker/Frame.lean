import Turnwise.Proofs.SlotArena
import Turnwise.Proofs.Stream
import Turnwise.Worker.Tick

/-!
# What a step leaves alone

A worker keeps its sessions in an arena, their slots in an index and their streams in a table, and
each step of a tick is about one session. `Worker.ActsOn slots w w'` is the frame of such a step:
from `w` to `w'` only the sessions in `slots` may have changed, and only the streams whose sinks
these sessions held. No session moves, none appears or goes away, and no generation changes its
stream; a generation may end.

Frames compose (`ActsOn.trans`, `ActsOn.foldl`), so every stage of a tick has one. What a stage does
to one session is then what the one step that is about this session does (`foldl_at`): the steps
before it and after it touch neither the session nor its stream.
-/

namespace Turnwise

/-! ### Looking up sessions and streams -/

/-- Where the entries for one session are gone, all others are found as before. -/
theorem lookup_filter_ne {α : Type} (entries : List (SessionId × α)) (id id' : SessionId) :
    (entries.filter fun entry => entry.1 != id).lookup id' =
      if id' = id then none else entries.lookup id' := by
  induction entries with
  | nil => split_ifs <;> rfl
  | cons entry rest ih =>
    obtain ⟨key, slot⟩ := entry
    rw [List.filter_cons, List.lookup_cons]
    grind

namespace SessionIndex

theorem find?_insert (index : SessionIndex) (id : SessionId) (slot : Slot) (id' : SessionId) :
    (index.insert id slot).find? id' = if id' = id then some slot else index.find? id' := by
  rw [find?, insert, List.lookup_cons, find?]
  by_cases h : id' = id
  · rw [if_pos h, beq_iff_eq.mpr h]
  · rw [if_neg h, beq_eq_false_iff_ne.mpr h]

theorem find?_erase (index : SessionIndex) (id id' : SessionId) :
    (index.erase id).find? id' = if id' = id then none else index.find? id' :=
  lookup_filter_ne index.entries id id'

/-- A session that is found has an entry. -/
theorem mem_entries {index : SessionIndex} {id : SessionId} {slot : Slot}
    (h : index.find? id = some slot) : (id, slot) ∈ index.entries := by
  obtain ⟨before, after, heq, -⟩ := List.lookup_eq_some_iff.mp h
  rw [heq]
  exact List.mem_append_right _ List.mem_cons_self

end SessionIndex

namespace Streams

variable (streams : Streams)

/-- Tables with the same stream under each number are the same. -/
theorem ext_get? {streams streams' : Streams} (h : ∀ id, streams'.get? id = streams.get? id) :
    streams' = streams := by
  obtain ⟨entries⟩ := streams
  obtain ⟨entries'⟩ := streams'
  have hentries : entries' = entries := List.ext_getElem? h
  rw [hentries]

theorem get?_modify (id id' : StreamId) (f : Stream → Stream) :
    (streams.modify id f).get? id' =
      if id' = id then (streams.get? id').map f else streams.get? id' := by
  rw [get?, modify, get?]
  by_cases h : id' = id
  · rw [if_pos h, h, List.getElem?_modify_eq]
    rfl
  · rw [if_neg h, List.getElem?_modify_ne _ _ (Ne.symm h)]

theorem get?_modify_of_ne {id id' : StreamId} (h : id' ≠ id) (f : Stream → Stream) :
    (streams.modify id f).get? id' = streams.get? id' := by
  rw [get?_modify, if_neg h]

@[simp] theorem length_entries_modify (id : StreamId) (f : Stream → Stream) :
    (streams.modify id f).entries.length = streams.entries.length :=
  List.length_modify ..

/-- Offering a text changes at most the one stream, also where there is none. -/
theorem offer_snd (id : StreamId) (text : String) :
    (streams.offer id text).2 = streams.modify id fun s => (s.offer text).2 := by
  rw [offer]
  split
  · rfl
  · rename_i h
    rw [modify, List.modify_eq_self (List.getElem?_eq_none_iff.mp h)]

theorem offer_fst {id : StreamId} {s : Stream} (h : streams.get? id = some s) (text : String) :
    (streams.offer id text).1 = (s.offer text).1 := by
  rw [offer, h]

end Streams

/-- The name and the place of a session. -/
def Session.seat (s : Session) : SessionId × Slot := (s.id, s.slot)

namespace Worker

variable {b : Backend}

theorem find?_eq_some_iff {w : Worker b} {id : SessionId} {slot : Slot} {s : Session} :
    w.find? id = some (slot, s) ↔
      w.index.find? id = some slot ∧ w.sessions.get? slot = some s := by
  rw [find?, Option.bind_eq_some_iff]
  constructor
  · rintro ⟨slot', hslot, hs⟩
    obtain ⟨s', hs', heq⟩ := Option.map_eq_some_iff.mp hs
    obtain ⟨rfl, rfl⟩ := Prod.mk.inj heq
    exact ⟨hslot, hs'⟩
  · rintro ⟨hslot, hs⟩
    exact ⟨slot, hslot, by rw [hs]; rfl⟩

/-- The stream whose sink the session in a slot holds. -/
def holder (w : Worker b) (slot : Slot) : Option StreamId :=
  ((w.sessions.get? slot).bind Session.generation).map Generation.stream

theorem holder_eq_some_iff {w : Worker b} {slot : Slot} {stream : StreamId} :
    w.holder slot = some stream ↔
      ∃ s g, w.sessions.get? slot = some s ∧ s.generation = some g ∧ g.stream = stream := by
  rw [holder, Option.map_eq_some_iff]
  constructor
  · rintro ⟨g, hg, rfl⟩
    obtain ⟨s, hs, hsg⟩ := Option.bind_eq_some_iff.mp hg
    exact ⟨s, g, hs, hsg, rfl⟩
  · rintro ⟨s, g, hs, hg, rfl⟩
    exact ⟨g, by rw [hs]; exact hg, rfl⟩

theorem holder_congr {w w' : Worker b} {slot : Slot}
    (h : w'.sessions.get? slot = w.sessions.get? slot) : w'.holder slot = w.holder slot := by
  rw [holder, holder, h]

theorem map_seat_modify {sessions : SlotArena Session} {slot : Slot} {f : Session → Session}
    (hseat : ∀ s, sessions.get? slot = some s → (f s).seat = s.seat) (slot' : Slot) :
    ((sessions.modify slot f).get? slot').map Session.seat =
      (sessions.get? slot').map Session.seat := by
  rw [SlotArena.get?_modify]
  split_ifs with heq
  · cases hs : sessions.get? slot' with
    | none => rfl
    | some s => exact congrArg some (hseat s (heq ▸ hs))
  · rfl

theorem holder_modifySession {w : Worker b} (slot : Slot) {f : Session → Session}
    (hf : ∀ s, w.sessions.get? slot = some s →
      (f s).generation.map Generation.stream = s.generation.map Generation.stream)
    (slot' : Slot) : (w.modifySession slot f).holder slot' = w.holder slot' := by
  rw [holder, holder, modifySession, SlotArena.get?_modify]
  split_ifs with heq
  · cases hs : w.sessions.get? slot' with
    | none => rfl
    | some s => exact hf s (heq ▸ hs)
  · rfl

/-! ### Frames -/

/-- From `w` to `w'` only the sessions in `slots` have changed, and the streams that they held. -/
structure ActsOn (slots : List Slot) (w w' : Worker b) : Prop where
  id : w'.id = w.id
  context : w'.context = w.context
  config : w'.config = w.config
  index : w'.index = w.index
  prefillCursor : w'.prefillCursor = w.prefillCursor
  decodeCursor : w'.decodeCursor = w.decodeCursor
  ticks : w'.ticks = w.ticks
  free : w'.sessions.free = w.sessions.free
  places : w'.sessions.entries.length = w.sessions.entries.length
  /-- No session moves, appears or goes away. -/
  seat : ∀ slot,
    (w'.sessions.get? slot).map Session.seat = (w.sessions.get? slot).map Session.seat
  session : ∀ slot, slot ∉ slots → w'.sessions.get? slot = w.sessions.get? slot
  /-- A session lets go of its stream or keeps it. -/
  holder : ∀ slot, w'.holder slot = w.holder slot ∨ w'.holder slot = none
  streamCount : w'.streams.entries.length = w.streams.entries.length
  stream : ∀ stream, (∀ slot ∈ slots, w.holder slot ≠ some stream) →
    w'.streams.get? stream = w.streams.get? stream
  /-- Nothing but events is added to a stream. -/
  grows : ∀ stream s, w.streams.get? stream = some s →
    ∃ s', w'.streams.get? stream = some s' ∧ s.Extends s'

namespace ActsOn

variable {slots slots' : List Slot} {w w' w'' : Worker b}

theorem refl (w : Worker b) : ActsOn [] w w :=
  ⟨rfl, rfl, rfl, rfl, rfl, rfl, rfl, rfl, rfl, fun _ => rfl, fun _ _ => rfl, fun _ => Or.inl rfl,
    rfl, fun _ _ => rfl, fun _ s hs => ⟨s, hs, .refl s⟩⟩

theorem mono (h : ActsOn slots w w') (hsub : slots ⊆ slots') : ActsOn slots' w w' :=
  { h with
    session := fun slot hslot => h.session slot fun hmem => hslot (hsub hmem)
    stream := fun stream hstream => h.stream stream fun slot hslot => hstream slot (hsub hslot) }

/-- Nothing happens. -/
theorem self (slots : List Slot) (w : Worker b) : ActsOn slots w w :=
  (refl w).mono (List.nil_subset slots)

/-- What is not held now was either not held before or has been let go of. -/
theorem holder_ne (h : ActsOn slots w w') {slot : Slot} {stream : StreamId}
    (hne : w.holder slot ≠ some stream) : w'.holder slot ≠ some stream := by
  rcases h.holder slot with heq | heq
  · rwa [heq]
  · rw [heq]
    exact nofun

theorem trans (h : ActsOn slots w w') (h' : ActsOn slots' w' w'') :
    ActsOn (slots ++ slots') w w'' where
  id := h'.id.trans h.id
  context := h'.context.trans h.context
  config := h'.config.trans h.config
  index := h'.index.trans h.index
  prefillCursor := h'.prefillCursor.trans h.prefillCursor
  decodeCursor := h'.decodeCursor.trans h.decodeCursor
  ticks := h'.ticks.trans h.ticks
  free := h'.free.trans h.free
  places := h'.places.trans h.places
  seat slot := (h'.seat slot).trans (h.seat slot)
  session slot hslot := by
    rw [List.mem_append, not_or] at hslot
    exact (h'.session slot hslot.2).trans (h.session slot hslot.1)
  holder slot := by
    rcases h'.holder slot with heq | heq
    · rw [heq]
      exact h.holder slot
    · exact Or.inr heq
  streamCount := h'.streamCount.trans h.streamCount
  stream stream hne := by
    -- The second step's sessions held other streams already before the first.
    have hleft : ∀ slot ∈ slots, w.holder slot ≠ some stream := fun slot hslot =>
      hne slot (List.mem_append_left _ hslot)
    have hright : ∀ slot ∈ slots', w'.holder slot ≠ some stream := fun slot hslot =>
      h.holder_ne (hne slot (List.mem_append_right _ hslot))
    exact (h'.stream stream hright).trans (h.stream stream hleft)
  grows stream s hs := by
    obtain ⟨s', hs', hext⟩ := h.grows stream s hs
    obtain ⟨s'', hs'', hext'⟩ := h'.grows stream s' hs'
    exact ⟨s'', hs'', hext.trans hext'⟩

/-- Two steps about the same sessions. -/
theorem trans_self (h : ActsOn slots w w') (h' : ActsOn slots w' w'') : ActsOn slots w w'' :=
  (h.trans h').mono fun _ hmem => (List.mem_append.mp hmem).elim (fun h => h) fun h => h

/-- The counts are nobody's. -/
theorem withTally (h : ActsOn slots w w') (tally : Tally) : ActsOn slots w { w' with tally } :=
  { h with }

/-! #### Steps -/

theorem modifySession (slot : Slot) {f : Session → Session}
    (hseat : ∀ s, w.sessions.get? slot = some s → (f s).seat = s.seat)
    (hstream : ∀ s, w.sessions.get? slot = some s →
      (f s).generation.map Generation.stream = s.generation.map Generation.stream ∨
        (f s).generation = none) :
    ActsOn [slot] w (w.modifySession slot f) where
  id := rfl
  context := rfl
  config := rfl
  index := rfl
  prefillCursor := rfl
  decodeCursor := rfl
  ticks := rfl
  free := rfl
  places := w.sessions.length_entries_modify slot f
  seat := map_seat_modify hseat
  session slot' hslot' := SlotArena.get?_modify_of_ne (by rwa [List.mem_singleton] at hslot') f
  holder slot' := by
    rw [Worker.holder, Worker.holder, Worker.modifySession, SlotArena.get?_modify]
    split_ifs with heq
    · cases hs : w.sessions.get? slot' with
      | none => exact Or.inl rfl
      | some s =>
        rcases hstream s (heq ▸ hs) with h | h
        · exact Or.inl h
        · exact Or.inr (congrArg (Option.map Generation.stream) h)
    · exact Or.inl rfl
  streamCount := rfl
  stream _ _ := rfl
  grows _ s hs := ⟨s, hs, .refl s⟩

theorem modifyStream {slot : Slot} {stream : StreamId} {f : Stream → Stream}
    (hheld : w.holder slot = some stream) (hf : ∀ s : Stream, s.Extends (f s)) :
    ActsOn [slot] w { w with streams := w.streams.modify stream f } :=
  { refl w with
    session := fun _ _ => rfl
    streamCount := w.streams.length_entries_modify stream f
    stream := fun stream' hstream' => by
      have hne : stream' ≠ stream := by
        rintro rfl
        exact hstream' slot (List.mem_singleton_self _) hheld
      exact w.streams.get?_modify_of_ne hne f
    grows := fun stream' s hs => by
      by_cases heq : stream' = stream
      · exact ⟨f s, by rw [Streams.get?_modify, if_pos heq, hs, Option.map_some], hf s⟩
      · exact ⟨s, by rw [Streams.get?_modify_of_ne _ heq, hs], .refl s⟩ }

/-! #### Stages -/

/-- If each step of a stage is about the session in one slot, the stage is about all of them. -/
theorem foldl {κ : Type} {step : Turn b → κ → Turn b} (slotOf : κ → Slot) (keys : List κ)
    (t : Turn b)
    (hstep : ∀ t' : Turn b, t'.worker.index = t.worker.index → ∀ key ∈ keys,
      ActsOn [slotOf key] t'.worker (step t' key).worker) :
    ActsOn (keys.map slotOf) t.worker (keys.foldl step t).worker := by
  induction keys generalizing t with
  | nil => exact refl _
  | cons key rest ih =>
    have hfirst := hstep t rfl key List.mem_cons_self
    exact hfirst.trans (ih (step t key) fun t' ht' key hkey =>
      hstep t' (ht'.trans hfirst.index) key (List.mem_cons_of_mem _ hkey))

end ActsOn

/-- Two sessions never hold the same stream. -/
def HoldersDistinct (w : Worker b) : Prop :=
  ∀ slot slot' stream, w.holder slot = some stream → w.holder slot' = some stream → slot = slot'

/-- **A stage, as one session sees it.** Of all the steps of a stage only one is about the session;
it finds the session and its stream as they were before the stage, and leaves them as they are after
it. -/
theorem foldl_at {κ : Type} {step : Turn b → κ → Turn b} {slotOf : κ → Slot} {keys : List κ}
    (hnodup : (keys.map slotOf).Nodup) (t : Turn b)
    (hstep : ∀ t' : Turn b, t'.worker.index = t.worker.index → ∀ key ∈ keys,
      ActsOn [slotOf key] t'.worker (step t' key).worker)
    {key : κ} (hkey : key ∈ keys) :
    ∃ t' : Turn b, (∃ others, ActsOn others t.worker t'.worker) ∧
      t'.worker.sessions.get? (slotOf key) = t.worker.sessions.get? (slotOf key) ∧
      (keys.foldl step t).worker.sessions.get? (slotOf key) =
        (step t' key).worker.sessions.get? (slotOf key) ∧
      (t.worker.HoldersDistinct → ∀ stream, t.worker.holder (slotOf key) = some stream →
        t'.worker.streams.get? stream = t.worker.streams.get? stream ∧
        (keys.foldl step t).worker.streams.get? stream =
          (step t' key).worker.streams.get? stream) := by
  obtain ⟨before, after, rfl⟩ := List.append_of_mem hkey
  rw [List.map_append, List.map_cons, List.nodup_middle, List.nodup_cons, List.mem_append,
    not_or] at hnodup
  obtain ⟨⟨hnotBefore, hnotAfter⟩, -⟩ := hnodup
  -- Cut the stage in three: the steps before the session's own, this step, and those after it.
  have hbefore := ActsOn.foldl slotOf before t fun t' ht' key hmem =>
    hstep t' ht' key (List.mem_append_left _ hmem)
  set t' := before.foldl step t
  have hat := hstep t' hbefore.index key hkey
  have hafter := ActsOn.foldl slotOf after (step t' key) fun t'' ht'' key hmem =>
    hstep t'' (ht''.trans (hat.index.trans hbefore.index)) key
      (List.mem_append_right _ (List.mem_cons_of_mem _ hmem))
  rw [List.foldl_append, List.foldl_cons]
  refine ⟨t', ⟨_, hbefore⟩, hbefore.session _ hnotBefore, hafter.session _ hnotAfter, ?_⟩
  intro hdistinct stream hheld
  -- The other sessions do not hold the stream, so their steps do not touch it.
  have hothers : ∀ slot, slot ≠ slotOf key → t.worker.holder slot ≠ some stream :=
    fun slot hne hslot => hne (hdistinct _ _ _ hslot hheld)
  constructor
  · exact hbefore.stream stream fun slot hslot =>
      hothers slot fun heq => hnotBefore (heq ▸ hslot)
  · exact hafter.stream stream fun slot hslot =>
      hat.holder_ne (hbefore.holder_ne (hothers slot fun heq => hnotAfter (heq ▸ hslot)))

/-! ### Where sessions are -/

/-- The index leads to the sessions, and each session knows its place. -/
structure Seated (w : Worker b) : Prop where
  arena : w.sessions.WellFormed
  index_iff : ∀ id slot,
    w.index.find? id = some slot ↔ ∃ s, w.sessions.get? slot = some s ∧ s.id = id
  slot_eq : ∀ slot s, w.sessions.get? slot = some s → s.slot = slot

theorem Seated.find?_id {w : Worker b} (h : w.Seated) {slot : Slot} {s : Session}
    (hs : w.sessions.get? slot = some s) : w.index.find? s.id = some slot :=
  (h.index_iff s.id slot).mpr ⟨s, hs, rfl⟩

/-- A name leads to the session that has it. -/
theorem Seated.id_eq {w : Worker b} (h : w.Seated) {slot : Slot} {s : Session}
    (hs : w.sessions.get? slot = some s) {id : SessionId} (hslot : w.index.find? id = some slot) :
    s.id = id := by
  obtain ⟨s', hs', hid⟩ := (h.index_iff id slot).mp hslot
  rw [Option.some.inj (hs.symm.trans hs'), hid]

/-- Another name leads to another slot. -/
theorem Seated.slot_ne {w : Worker b} (h : w.Seated) {slot slot' : Slot} {s : Session}
    (hs : w.sessions.get? slot = some s) {id : SessionId} (hslot : w.index.find? id = some slot')
    (hne : id ≠ s.id) : slot ≠ slot' := by
  rintro rfl
  exact hne (h.id_eq hs hslot).symm

theorem exists_of_map_seat {o o' : Option Session}
    (h : o'.map Session.seat = o.map Session.seat) {s' : Session} (hs' : o' = some s') :
    ∃ s, o = some s ∧ s'.seat = s.seat := by
  rw [hs', Option.map_some] at h
  obtain ⟨s, hs, heq⟩ := Option.map_eq_some_iff.mp h.symm
  exact ⟨s, hs, heq.symm⟩

/-- Only names and places matter. -/
theorem Seated.of_seat {w w' : Worker b} (hw : w.Seated) (hindex : w'.index = w.index)
    (hfree : w'.sessions.free = w.sessions.free)
    (hplaces : w'.sessions.entries.length = w.sessions.entries.length)
    (hseat : ∀ slot,
      (w'.sessions.get? slot).map Session.seat = (w.sessions.get? slot).map Session.seat) :
    w'.Seated where
  arena :=
    -- A slot is vacant just if there is no seat in it.
    { nodup := hfree ▸ hw.arena.nodup
      mem_free := fun slot => by
        rw [hfree, hw.arena.mem_free, hplaces, ← Option.map_eq_none_iff (f := Session.seat),
          ← hseat, Option.map_eq_none_iff] }
  index_iff id slot := by
    rw [hindex, hw.index_iff]
    constructor
    · rintro ⟨s, hs, rfl⟩
      obtain ⟨s', hs', heq⟩ := exists_of_map_seat (hseat slot).symm hs
      exact ⟨s', hs', (congrArg Prod.fst heq).symm⟩
    · rintro ⟨s', hs', rfl⟩
      obtain ⟨s, hs, heq⟩ := exists_of_map_seat (hseat slot) hs'
      exact ⟨s, hs, (congrArg Prod.fst heq).symm⟩
  slot_eq slot s' hs' := by
    obtain ⟨s, hs, heq⟩ := exists_of_map_seat (hseat slot) hs'
    exact (congrArg Prod.snd heq).trans (hw.slot_eq slot s hs)

theorem Seated.modifySession {w : Worker b} (hw : w.Seated) (slot : Slot) {f : Session → Session}
    (hseat : ∀ s, (f s).seat = s.seat) : (w.modifySession slot f).Seated :=
  hw.of_seat rfl rfl (w.sessions.length_entries_modify slot f)
    (map_seat_modify fun s _ => hseat s)

namespace ActsOn

variable {slots : List Slot} {w w' : Worker b}

theorem get?_eq_none_iff (h : ActsOn slots w w') (slot : Slot) :
    w'.sessions.get? slot = none ↔ w.sessions.get? slot = none := by
  rw [← Option.map_eq_none_iff (f := Session.seat), h.seat, Option.map_eq_none_iff]

/-- Only consumers drop handles. -/
theorem isClosed (h : ActsOn slots w w') (stream : StreamId) :
    w'.streams.isClosed stream = w.streams.isClosed stream := by
  rw [Streams.isClosed, Streams.isClosed]
  cases hs : w.streams.get? stream with
  | none =>
    have hnone : w'.streams.get? stream = none := by
      rw [Streams.get?, List.getElem?_eq_none_iff] at hs ⊢
      rwa [h.streamCount]
    rw [hnone]
  | some s =>
    obtain ⟨s', hs', hext⟩ := h.grows stream s hs
    rw [hs']
    exact congrArg (!·) hext.handleOpen

/-- A session that is there after a step was there before it, under the same name. -/
theorem get?_of_get? (h : ActsOn slots w w') {slot : Slot} {s' : Session}
    (hs' : w'.sessions.get? slot = some s') :
    ∃ s, w.sessions.get? slot = some s ∧ s'.seat = s.seat :=
  exists_of_map_seat (h.seat slot) hs'

theorem seated (h : ActsOn slots w w') (hw : w.Seated) : w'.Seated :=
  hw.of_seat h.index h.free h.places h.seat

theorem holdersDistinct (h : ActsOn slots w w') (hw : w.HoldersDistinct) :
    w'.HoldersDistinct := by
  intro slot slot' stream hslot hslot'
  have hheld : ∀ slot, w'.holder slot = some stream → w.holder slot = some stream := by
    intro slot hslot
    by_contra hne
    exact h.holder_ne hne hslot
  exact hw slot slot' stream (hheld slot hslot) (hheld slot' hslot')

end ActsOn

end Worker

end Turnwise
