import Mathlib.Data.List.Basic
import Turnwise.Proofs.Worker.Steps

/-!
# What commands do

One lemma for each command that changes a worker, which says all that the command can do. Nothing
below this module looks into the commands again.

The request to generate has four outcomes (`startGeneration_cases`): it is refused and the worker is
as it was but for the stream; it is refused because input was lost, and the loss counts as told; it
is accepted where there is nothing to produce; or it is accepted and a generation starts. A worker
that shuts down ends its generations first (`get?_quiesce`) and then vacates one slot after the
other (`shutdown_eq`).
-/

namespace Turnwise

theorem Streams.finish_add (streams : Streams) (s : Stream) (event : StreamEvent) :
    (streams.add s).2.finish (streams.add s).1 event = (streams.add (s.finish event)).2 := by
  rw [Streams.finish, Streams.modify, Streams.add, List.modify_eq_set_getElem?]
  simp [Streams.add]

namespace Worker

variable {b : Backend} {w w' : Worker b} {id : SessionId} {slot : Slot}

/-! ### Sessions -/

/-- The record of a session that begins. -/
def newSession (id : SessionId) (sampling : Sampling) (slot : Slot) : Session :=
  { id, slot, sampler := .ofConfig sampling }

theorem createSession_eq_ok {sampling : Sampling}
    (h : w.createSession id sampling = .ok (slot, w')) :
    w.index.find? id = none ∧ sampling.validate = .ok () ∧
      ∃ sessions, w.sessions.insertWith (newSession id sampling) = some (slot, sessions) ∧
        w' = { w with
          sessions
          index := w.index.insert id slot
          tally := { w.tally with activeSessions := w.tally.activeSessions + 1 } } := by
  unfold createSession at h
  split at h
  · cases h
  · rename_i hnew
    split at h
    · cases h
    · rename_i hvalid
      split at h
      · cases h
      · rename_i slot' sessions hinsert
        obtain ⟨rfl, rfl⟩ := Prod.mk.inj (Except.ok.inj h)
        exact ⟨Option.not_isSome_iff_eq_none.mp hnew, hvalid, sessions, hinsert, rfl⟩

theorem appendInput_eq_ok {text : String} {count : Nat}
    (h : w.appendInput id text = .ok (count, w')) :
    ∃ slot tokens, w.index.find? id = some slot ∧ b.tokenize text = .ok tokens ∧
      count = tokens.length ∧ w' = w.modifySession slot (Session.enqueue · tokens) := by
  unfold appendInput at h
  split at h
  · cases h
  · rename_i slot hslot
    split at h
    · cases h
    · rename_i tokens htokens
      obtain ⟨rfl, rfl⟩ := Prod.mk.inj (Except.ok.inj h)
      exact ⟨slot, tokens, hslot, htokens, rfl, rfl⟩

/-- A slot is vacated and its row emptied. -/
def release (w : Worker b) (slot : Slot) : Worker b :=
  { w with sessions := w.sessions.erase slot, context := b.removeSlot w.context slot }

/-- After a session has ended, its slot is vacant, and the others are as they were. -/
theorem get?_release_finishGeneration (w : Worker b) (slot slot' : Slot) (event : StreamEvent) :
    ((w.finishGeneration slot event).release slot).sessions.get? slot' =
      if slot' = slot then none else w.sessions.get? slot' := by
  rw [release, SlotArena.get?_erase]
  split_ifs with heq
  · rfl
  · exact (actsOn_finishGeneration w slot event).session slot' (List.mem_singleton.not.mpr heq)

theorem endSession_of_find?_eq_none (h : w.index.find? id = none) : (w.endSession id).2 = w := by
  unfold endSession
  rw [h]

theorem endSession_of_find?_eq_some (h : w.index.find? id = some slot) :
    (w.endSession id).2 =
      let w' := w.finishGeneration slot (.done .sessionEnded)
      { w'.release slot with
        index := w.index.erase id
        tally := { w'.tally with activeSessions := w'.tally.activeSessions - 1 } } := by
  rw [← (actsOn_finishGeneration w slot (.done .sessionEnded)).index]
  unfold endSession release SlotArena.erase
  rw [h]
  dsimp only
  cases (w.finishGeneration slot (.done .sessionEnded)).sessions.remove slot <;> rfl

/-! ### Generations -/

/-- A request to generate for a session starts something: the session is live and idle, has lost
nothing and has input. -/
def CanGenerate (w : Worker b) (id : SessionId) : Prop :=
  ∃ slot s, w.find? id = some (slot, s) ∧ s.generation = none ∧ s.inputError = none ∧ s.pending ≠ []

theorem not_canGenerate_of_find? (h : w.find? id = none) : ¬ w.CanGenerate id :=
  fun ⟨_, _, hfind, _⟩ => nomatch h.symm.trans hfind

theorem canGenerate_iff {s : Session} (h : w.find? id = some (slot, s)) :
    w.CanGenerate id ↔ s.generation = none ∧ s.inputError = none ∧ s.pending ≠ [] := by
  constructor
  · rintro ⟨slot', s', hfind, hcan⟩
    obtain ⟨-, rfl⟩ := Prod.mk.inj (Option.some.inj (h.symm.trans hfind))
    exact hcan
  · exact fun hcan => ⟨slot, s, h, hcan⟩

/-- All that can come of a request to generate on an open stream: it is refused, or refused with the
cause of a loss, which is told thereby; or there is nothing to produce; or a generation starts. -/
theorem startGeneration_cases (w : Worker b) (id : SessionId) (budget : Nat) (stream : StreamId) :
    (¬ w.CanGenerate id ∧ ∃ cause, w.startGeneration id budget stream =
        { w with streams := w.streams.finish stream (.error cause) }) ∨
    (¬ w.CanGenerate id ∧ ∃ slot s cause, w.find? id = some (slot, s) ∧ s.generation = none ∧
      s.inputError = some cause ∧
      w.startGeneration id budget stream =
        { w.modifySession slot (fun s => { s with inputError := none }) with
          streams := w.streams.finish stream (.error s!"{id} lost queued input: {cause}") }) ∨
    (w.CanGenerate id ∧ budget = 0 ∧ w.startGeneration id budget stream =
        { w with
          streams := w.streams.finish stream (.done .length)
          tally := w.tally.countFinished .length }) ∨
    (∃ slot s, w.find? id = some (slot, s) ∧ s.generation = none ∧ s.inputError = none ∧
      s.pending ≠ [] ∧ 0 < budget ∧
      w.startGeneration id budget stream =
        { w.modifySession slot (fun s => { s with generation := some { budget, stream } }) with
          tally := { w.tally with activeGenerations := w.tally.activeGenerations + 1 } }) := by
  unfold startGeneration
  rcases hfind : w.find? id with _ | ⟨slot, s⟩
  · exact .inl ⟨not_canGenerate_of_find? hfind, _, rfl⟩
  -- The checks in the order in which the command makes them.
  · have hcan := canGenerate_iff hfind
    dsimp only
    rcases hg : s.generation with _ | g
    · rw [if_neg (by simp)]
      rcases herror : s.inputError with _ | cause
      · dsimp only
        rcases hpending : s.pending with _ | ⟨token, rest⟩
        · exact .inl ⟨fun h => (hcan.mp h).2.2 hpending, _, rfl⟩
        · have hinput : s.pending ≠ [] := hpending ▸ List.cons_ne_nil _ _
          rw [if_neg (by simp)]
          by_cases hbudget : budget = 0
          · rw [if_pos hbudget]
            exact .inr <| .inr <| .inl ⟨hcan.mpr ⟨hg, herror, hinput⟩, hbudget, rfl⟩
          · rw [if_neg hbudget]
            exact .inr <| .inr <| .inr ⟨slot, s, rfl, hg, herror, hinput,
              Nat.pos_of_ne_zero hbudget, rfl⟩
      · have hlost : ¬ w.CanGenerate id := fun h => nomatch herror.symm.trans (hcan.mp h).2.1
        exact .inr <| .inl ⟨hlost, slot, s, cause, rfl, hg, herror, rfl⟩
    · have hbusy : ¬ w.CanGenerate id := fun h => nomatch hg.symm.trans (hcan.mp h).1
      exact .inl ⟨hbusy, _, rfl⟩

/-- Puts a stream on the table and starts a generation on it. -/
def generateOn (w : Worker b) (s : Stream) (id : SessionId) (budget : Nat) : Worker b :=
  { w with streams := (w.streams.add s).2 }.startGeneration id budget (w.streams.add s).1

/-- **What comes of a request to generate.** Unless a generation starts, the stream joins the table
with its terminal event on it. -/
theorem generateOn_outcomes (w : Worker b) (s : Stream) (id : SessionId) (budget : Nat) :
    (¬ w.CanGenerate id ∧ ∃ cause, w.generateOn s id budget =
        { w with streams := (w.streams.add (s.finish (.error cause))).2 }) ∨
    (¬ w.CanGenerate id ∧ ∃ slot s' cause, w.find? id = some (slot, s') ∧ s'.generation = none ∧
      w.generateOn s id budget =
        { w.modifySession slot (fun s' => { s' with inputError := none }) with
          streams := (w.streams.add (s.finish (.error cause))).2 }) ∨
    (w.CanGenerate id ∧ budget = 0 ∧ w.generateOn s id budget =
        { w with
          streams := (w.streams.add (s.finish (.done .length))).2
          tally := w.tally.countFinished .length }) ∨
    (∃ slot s', w.find? id = some (slot, s') ∧ s'.generation = none ∧
      s'.inputError = none ∧ s'.pending ≠ [] ∧ 0 < budget ∧
      w.generateOn s id budget =
        { w.modifySession slot (fun s' =>
            { s' with generation := some { budget, stream := (w.streams.add s).1 } }) with
          streams := (w.streams.add s).2
          tally := { w.tally with activeGenerations := w.tally.activeGenerations + 1 } }) := by
  -- A stream that is put on the table and finished there might as well be put there finished.
  let opened : Worker b := { w with streams := (w.streams.add s).2 }
  rcases opened.startGeneration_cases id budget (w.streams.add s).1 with
    ⟨hrefused, cause, heq⟩ | ⟨hrefused, slot, s', cause, hfind, hg, -, heq⟩ |
      ⟨hcan, hbudget, heq⟩ | ⟨slot, s', hfind, hg, herror, hpending, hbudget, heq⟩
  · refine .inl ⟨hrefused, cause, ?_⟩
    rw [← Streams.finish_add]
    exact heq
  · refine .inr <| .inl ⟨hrefused, slot, s', s!"{id} lost queued input: {cause}", hfind, hg, ?_⟩
    rw [← Streams.finish_add]
    exact heq
  · refine .inr <| .inr <| .inl ⟨hcan, hbudget, ?_⟩
    rw [← Streams.finish_add]
    exact heq
  · exact .inr <| .inr <| .inr ⟨slot, s', hfind, hg, herror, hpending, hbudget, heq⟩

/-- The outcomes of a request to generate, but for what is counted. -/
theorem generateOn_cases (w : Worker b) (s : Stream) (id : SessionId) (budget : Nat) :
    (∃ event tally, event.isTerminal = true ∧
      w.generateOn s id budget =
        { w with streams := (w.streams.add (s.finish event)).2, tally }) ∨
    (∃ slot s' event, w.find? id = some (slot, s') ∧ s'.generation = none ∧
      event.isTerminal = true ∧
      w.generateOn s id budget =
        { w.modifySession slot (fun s' => { s' with inputError := none }) with
          streams := (w.streams.add (s.finish event)).2 }) ∨
    (∃ slot s' tally, w.find? id = some (slot, s') ∧ s'.generation = none ∧
      s'.inputError = none ∧ s'.pending ≠ [] ∧ 0 < budget ∧
      w.generateOn s id budget =
        { w.modifySession slot (fun s' =>
            { s' with generation := some { budget, stream := (w.streams.add s).1 } }) with
          streams := (w.streams.add s).2
          tally }) := by
  rcases w.generateOn_outcomes s id budget with
    ⟨-, cause, heq⟩ | ⟨-, slot, s', cause, hfind, hg, heq⟩ | ⟨-, -, heq⟩ |
      ⟨slot, s', hfind, hg, herror, hpending, hbudget, heq⟩
  · exact .inl ⟨.error cause, w.tally, rfl, heq⟩
  · exact .inr <| .inl ⟨slot, s', .error cause, hfind, hg, rfl, heq⟩
  · exact .inl ⟨.done .length, _, rfl, heq⟩
  · exact .inr <| .inr ⟨slot, s', _, hfind, hg, herror, hpending, hbudget, heq⟩

theorem context_generateOn (w : Worker b) (s : Stream) (id : SessionId) (budget : Nat) :
    (w.generateOn s id budget).context = w.context := by
  rcases w.generateOn_cases s id budget with
    ⟨event, tally, -, heq⟩ | ⟨slot, s', event, -, -, -, heq⟩ |
      ⟨slot, s', tally, -, -, -, -, -, heq⟩
  · rw [heq]
  · rw [heq]
    rfl
  · rw [heq]
    rfl

theorem index_generateOn (w : Worker b) (s : Stream) (id : SessionId) (budget : Nat) :
    (w.generateOn s id budget).index = w.index := by
  rcases w.generateOn_cases s id budget with
    ⟨event, tally, -, heq⟩ | ⟨slot, s', event, -, -, -, heq⟩ |
      ⟨slot, s', tally, -, -, -, -, -, heq⟩
  · rw [heq]
  · rw [heq]
    rfl
  · rw [heq]
    rfl

theorem length_entries_generateOn (w : Worker b) (s : Stream) (id : SessionId) (budget : Nat) :
    (w.generateOn s id budget).sessions.entries.length = w.sessions.entries.length := by
  rcases w.generateOn_cases s id budget with
    ⟨event, tally, -, heq⟩ | ⟨slot, s', event, -, -, -, heq⟩ |
      ⟨slot, s', tally, -, -, -, -, -, heq⟩
  · rw [heq]
  · rw [heq]
    exact SlotArena.length_entries_modify ..
  · rw [heq]
    exact SlotArena.length_entries_modify ..

theorem cancel_snd (w : Worker b) (id : SessionId) :
    (w.cancel id).2 = w ∨ ∃ slot s, w.find? id = some (slot, s) ∧
      (w.cancel id).2 = w.modifySession slot fun s => s.cancel.2 := by
  unfold cancel
  rcases hfind : w.find? id with _ | ⟨slot, s⟩
  · exact Or.inl rfl
  · exact Or.inr ⟨slot, s, rfl, rfl⟩

/-! ### Stopping -/

/-- The worker with all its generations ended. -/
def quiesce (w : Worker b) : Worker b :=
  w.sessions.slots.foldl (fun w slot => w.finishGeneration slot (.done .shutdown)) w

theorem actsOn_foldl_finishGeneration (event : StreamEvent) (slots : List Slot) (w : Worker b) :
    ActsOn slots w (slots.foldl (fun w slot => w.finishGeneration slot event) w) := by
  induction slots generalizing w with
  | nil => exact ActsOn.refl w
  | cons slot rest ih => exact (actsOn_finishGeneration w slot event).trans (ih _)

theorem actsOn_quiesce (w : Worker b) : ActsOn w.sessions.slots w w.quiesce :=
  actsOn_foldl_finishGeneration ..

theorem get?_foldl_finishGeneration (event : StreamEvent) (slots : List Slot) (w : Worker b)
    (slot : Slot) :
    (slots.foldl (fun w slot => w.finishGeneration slot event) w).sessions.get? slot =
      if slot ∈ slots then (w.sessions.get? slot).map Session.idle else w.sessions.get? slot := by
  induction slots generalizing w with
  | nil => rfl
  | cons first rest ih =>
    rw [List.foldl_cons, ih]
    by_cases hfirst : slot = first
    · subst hfirst
      have hidle : (w.finishGeneration slot event).sessions.get? slot =
          (w.sessions.get? slot).map Session.idle := by
        cases hs : w.sessions.get? slot with
        | none =>
          unfold finishGeneration
          rw [hs]
          exact hs
        | some s => exact get?_finishGeneration hs event
      rw [hidle, if_pos List.mem_cons_self, Option.map_map]
      exact ite_self _
    · have hsame : (w.finishGeneration first event).sessions.get? slot = w.sessions.get? slot :=
        (actsOn_finishGeneration w first event).session slot (List.mem_singleton.not.mpr hfirst)
      simp [hsame, hfirst]

/-- A worker that shuts down has ended every generation before it lets its sessions go. -/
theorem get?_quiesce (w : Worker b) (slot : Slot) :
    w.quiesce.sessions.get? slot = (w.sessions.get? slot).map Session.idle := by
  rw [quiesce, get?_foldl_finishGeneration]
  split_ifs with hslot
  · rfl
  · have hvacant : w.sessions.get? slot = none := by
      by_contra hsome
      exact hslot (SlotArena.mem_slots.mpr (Option.ne_none_iff_exists'.mp hsome))
    rw [hvacant, Option.map_none]

/-- The worker with slots vacated, one after the other. -/
def releaseAll (w : Worker b) (slots : List Slot) : Worker b := slots.foldl release w

theorem get?_releaseAll (w : Worker b) (slots : List Slot) (slot : Slot) :
    (w.releaseAll slots).sessions.get? slot =
      if slot ∈ slots then none else w.sessions.get? slot := by
  induction slots generalizing w with
  | nil => rfl
  | cons first rest ih =>
    show ((w.release first).releaseAll rest).sessions.get? slot = _
    rw [ih, release, SlotArena.get?_erase]
    by_cases hfirst : slot = first <;> by_cases hrest : slot ∈ rest <;> simp [hfirst, hrest]

theorem wellFormed_releaseAll (h : w.sessions.WellFormed) (slots : List Slot) :
    (w.releaseAll slots).sessions.WellFormed := by
  induction slots generalizing w with
  | nil => exact h
  | cons first rest ih => exact ih (w := w.release first) (h.erase first)

theorem length_entries_releaseAll (w : Worker b) (slots : List Slot) :
    (w.releaseAll slots).sessions.entries.length = w.sessions.entries.length := by
  induction slots generalizing w with
  | nil => rfl
  | cons first rest ih =>
    exact (ih (w.release first)).trans (SlotArena.length_entries_erase ..)

@[simp] theorem streams_releaseAll (w : Worker b) (slots : List Slot) :
    (w.releaseAll slots).streams = w.streams := by
  induction slots generalizing w with
  | nil => rfl
  | cons first rest ih => exact ih (w.release first)

@[simp] theorem tally_releaseAll (w : Worker b) (slots : List Slot) :
    (w.releaseAll slots).tally = w.tally := by
  induction slots generalizing w with
  | nil => rfl
  | cons first rest ih => exact ih (w.release first)

theorem shutdown_eq (w : Worker b) :
    w.shutdown =
      let w' := w.quiesce.releaseAll (w.index.entries.map Prod.snd)
      { w' with
        index := {}
        tally :=
          { w'.tally with
            activeSessions := w'.tally.activeSessions - w.sessions.slots.length } } := by
  -- The slots to vacate are read off the index, and ending the generations has not changed it.
  have hindex : w.quiesce.index = w.index := (actsOn_quiesce w).index
  unfold shutdown
  unfold quiesce at hindex
  dsimp only
  rw [hindex, releaseAll, List.foldl_map]
  refine congrArg (fun w' : Worker b =>
    { w' with
      index := {}
      tally :=
        { w'.tally with activeSessions := w'.tally.activeSessions - w.sessions.slots.length } })
    (List.foldl_ext _ _ _ fun w entry _ => ?_)
  unfold release SlotArena.erase
  cases w.sessions.remove entry.2 <;> rfl

end Worker

end Turnwise
