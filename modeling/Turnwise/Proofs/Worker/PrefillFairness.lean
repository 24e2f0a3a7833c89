import Mathlib.Algebra.BigOperators.Group.Finset.Piecewise
import Turnwise.Proofs.Worker.Acceptance
import Turnwise.Proofs.Worker.Quiescence

/-!
# Fairness of prefill

A session with input to write is served before long unless the sessions ahead of it in the rotation
are given more and more input. The prefill cursor stays on a session as long as some of its ready
tokens do not fit, so a session that is refilled as fast as it is served keeps its place at the
front, and those behind it wait, for ever if need be (`passed_over_by_refills`).

How long a session can be passed over is a matter of tokens. `Worker.readyAhead` counts those that
come before the session. A tick that passes it over fills its batch with tokens of this kind, and it
does not let anybody in front of the session (`readyAhead_tick`). Between ticks their number grows
by input for the sessions ahead and by nothing else (`Step.readyAhead_le`). So each tick that passes
the session over is paid for by a batch of tokens that were ahead at the beginning or were queued
there later (`prefill_served_run`).
-/

namespace Turnwise

theorem Session.Touched.prefillReady_le {s s' : Session} (h : s.Touched s') :
    s.prefillReady ≤ s'.prefillReady := by
  cases h with
  | queued tokens =>
    simp only [Session.prefillReady, Session.enqueue, List.length_append]
    omega
  | cancelled =>
    unfold Session.cancel
    split <;> exact Nat.le_refl _
  | _ => exact Nat.le_refl _

/-- The tokens of a share are no longer ready, whether they were written or lost. -/
theorem AfterPrefill.prefillReady_eq {s s' : Session} {count : Nat} (h : AfterPrefill s count s') :
    s'.prefillReady = s.prefillReady - count := by
  cases h with
  | written => exact s.prefillReady_commitPrefill count
  | lost cause =>
    have hready := s.prefillReady_discardPending count
    unfold Session.lose
    split <;> exact hready

/-- A turn of decoding leaves nothing to prefill: there was one token, and there is at most one. -/
theorem AfterDecode.prefillReady_eq_zero {b : Backend} {s s' : Session} (h : AfterDecode b s s')
    (hready : s.decodeReady = true) : s'.prefillReady = 0 := by
  have hinput := Session.pending_of_decodeReady hready
  cases h with
  | failed =>
    show s.pending.length - 1 = 0
    simp [hinput]
  | @served g hg stream logits =>
    rcases Session.accept_fst (b := b) (g := g) hinput stream logits with
      ⟨e, -, heq⟩ | ⟨token, sampler, generation, -, heq, -⟩ <;> simp [heq, Session.prefillReady]

/-- A share that is not empty has entries in the batch. -/
theorem Share.exists_mem_entries {share : Share} (hpos : 0 < share.count)
    (hcount : share.count ≤ share.session.prefillReady) :
    ∃ entry ∈ share.entries, entry.slot = share.slot := by
  obtain ⟨token, rest, htokens⟩ := List.exists_cons_of_length_pos
    (by rwa [Share.length_tokens hcount] : 0 < share.tokens.length)
  exact ⟨_, by rw [Share.entries, htokens, Batch.runOf]; exact List.mem_cons_self, rfl⟩

namespace Worker

variable {b : Backend} {w w' : Worker b} {id : SessionId} {slot : Slot}

/-! ### Being passed over in one batch -/

/-- Serving sessions that come before a slot lets nobody in between. -/
theorem before_of_foldl_moveOn {rotation cursor : Rotation} {shares : List Share}
    (hbefore : ∀ share ∈ shares, rotation.Before share.slot slot)
    (hcursor : ∀ other, cursor.Before other slot → rotation.Before other slot) {other : Slot}
    (hother : (shares.foldl (fun cursor share => share.moveOn cursor) cursor).Before other slot) :
    rotation.Before other slot := by
  induction shares generalizing cursor with
  | nil => exact hcursor other hother
  | cons share rest ih =>
    rw [List.forall_mem_cons] at hbefore
    refine ih hbefore.2 (fun other hother => ?_) hother
    dsimp only [Share.moveOn] at hother
    split_ifs at hother
    · exact Rotation.before_of_resumeAt hbefore.1 hother
    · exact Rotation.before_of_resumeAfter hbefore.1 hother

/-- **A batch that passes over a session** is full, of tokens of sessions before it in the order of
service, and who is before it when the next batch is made was so when this one was. -/
theorem prefill_of_passed_over (hready : slot ∈ w.prefillSlots)
    (hpassed : slot ∉ w.prefillShares.map Share.slot) :
    (w.prefillShares.map Share.count).sum = w.config.batching.maxPrefillTokens ∧
      (∀ share ∈ w.prefillShares, w.prefillCursor.Before share.slot slot) ∧
      ∀ other, w.prefillPlan.cursor.Before other slot → w.prefillCursor.Before other slot := by
  obtain ⟨s, hs, -⟩ := mem_slotsWhere.mp hready
  have hperm := w.prefillCursor.order_perm w.prefillSlots
  have hwaits : (slot, s) ∈ w.occupants (w.prefillCursor.order w.prefillSlots) :=
    mem_occupants.mpr ⟨hperm.mem_iff.mpr hready, hs⟩
  obtain ⟨hsum, before, after, hserved, hshares⟩ := Share.allot_of_passed_over hwaits hpassed
  have horder : w.prefillCursor.order w.prefillSlots =
      before.map Prod.fst ++ slot :: after.map Prod.fst := by
    have hlive : ∀ slot' ∈ w.prefillCursor.order w.prefillSlots,
        ∃ s', w.sessions.get? slot' = some s' := by
      intro slot' hslot'
      obtain ⟨s', hs', -⟩ := exists_of_mem_order hslot'
      exact ⟨s', hs'⟩
    rw [← map_fst_occupants hlive, hserved, List.map_append, List.map_cons]
  have hnodup : w.prefillSlots.Nodup := slotsWhere_nodup _
  have hsorted := w.prefillCursor.order_pairwise hnodup
  rw [horder, List.pairwise_append] at hsorted
  have hbefore : ∀ share ∈ w.prefillShares, w.prefillCursor.Before share.slot slot :=
    fun share hshare => hsorted.2.2 share.slot
      (List.mem_map_of_mem (f := Prod.fst) (hshares share hshare)) slot List.mem_cons_self
  exact ⟨hsum, hbefore, fun other hother => before_of_foldl_moveOn hbefore (fun _ h => h) hother⟩

/-! ### The tokens ahead of a session -/

/-- How many tokens prefill may write in a slot. -/
def readyAt (w : Worker b) (slot : Slot) : Nat :=
  ((w.sessions.get? slot).map Session.prefillReady).getD 0

theorem readyAt_of_get? {s : Session} (hs : w.sessions.get? slot = some s) :
    w.readyAt slot = s.prefillReady := by
  rw [readyAt, hs, Option.map_some, Option.getD_some]

theorem exists_of_readyAt_pos (h : 0 < w.readyAt slot) :
    ∃ s, w.sessions.get? slot = some s ∧ w.readyAt slot = s.prefillReady := by
  cases hs : w.sessions.get? slot with
  | none =>
    rw [readyAt, hs] at h
    exact absurd h (Nat.lt_irrefl 0)
  | some s => exact ⟨s, rfl, readyAt_of_get? hs⟩

/-- How many tokens prefill may write. -/
def readyTokens (w : Worker b) : Nat :=
  w.sessions.toList.foldl (fun sum entry => sum + entry.2.prefillReady) 0

theorem readyTokens_eq_sum (w : Worker b) :
    w.readyTokens = ∑ i ∈ Finset.range w.sessions.entries.length, w.readyAt ⟨i⟩ :=
  w.sessions.foldl_toList Session.prefillReady

/-- The places whose turn of prefill comes before that of a slot. -/
def placesAhead (w : Worker b) (slot : Slot) : Finset Nat :=
  (Finset.range w.sessions.entries.length).filter fun i => w.prefillCursor.Before ⟨i⟩ slot

/-- How many tokens may be written before it is a slot's turn. -/
def readyAhead (w : Worker b) (slot : Slot) : Nat := ∑ i ∈ w.placesAhead slot, w.readyAt ⟨i⟩

/-- What is ready in a slot is not ahead of it. -/
theorem readyAhead_add_le (w : Worker b) (slot : Slot) :
    w.readyAhead slot + w.readyAt slot ≤ w.readyTokens := by
  have hsub : w.placesAhead slot ⊆ Finset.range w.sessions.entries.length :=
    Finset.filter_subset _ _
  by_cases hplace : slot.index ∈ Finset.range w.sessions.entries.length
  · have hnot : slot.index ∉ w.placesAhead slot := fun hmem =>
      w.prefillCursor.not_before_self slot (Finset.mem_filter.mp hmem).2
    rw [readyTokens_eq_sum, readyAhead, Nat.add_comm, ← Finset.sum_insert (f := fun i =>
      w.readyAt ⟨i⟩) hnot]
    exact Finset.sum_le_sum_of_subset (Finset.insert_subset hplace hsub)
  · have hnone : w.sessions.get? slot = none := by
      by_contra hsome
      obtain ⟨s, hs⟩ := Option.ne_none_iff_exists'.mp hsome
      exact hplace (Finset.mem_range.mpr (SlotArena.lt_length_of_get?_eq_some hs))
    rw [readyTokens_eq_sum, readyAhead, readyAt, hnone]
    exact Finset.sum_le_sum_of_subset hsub

/-- If the ready tokens of some places have become no more, and those of each share fewer by the
share, then all shares together have gone from them. -/
theorem sum_add_le_of_shares {places : Finset Nat} {ready ready' : Slot → Nat} {shares : List Share}
    (hnodup : (shares.map Share.slot).Nodup) (hplaces : ∀ share ∈ shares, share.slot.index ∈ places)
    (hle : ∀ slot, ready' slot ≤ ready slot)
    (hshare : ∀ share ∈ shares, ready' share.slot + share.count ≤ ready share.slot) :
    ∑ i ∈ places, ready' ⟨i⟩ + (shares.map Share.count).sum ≤ ∑ i ∈ places, ready ⟨i⟩ := by
  -- What has gone from each place is at least its share, and no place has two.
  let gone : Nat → Nat := fun i => ready ⟨i⟩ - ready' ⟨i⟩
  let indices := shares.map fun share => share.slot.index
  have hindices : indices.Nodup := by
    have hmap : indices = (shares.map Share.slot).map Slot.index := by rw [List.map_map]; rfl
    rw [hmap]
    exact hnodup.map fun slot slot' heq => Slot.eq_iff_index_eq.mpr heq
  have hsub : indices.toFinset ⊆ places := fun i hi => by
    obtain ⟨share, hmem, rfl⟩ := List.mem_map.mp (List.mem_toFinset.mp hi)
    exact hplaces share hmem
  have hcounts : (shares.map Share.count).sum ≤ ∑ i ∈ places, gone i :=
    calc (shares.map Share.count).sum
        ≤ (shares.map fun share => gone share.slot.index).sum :=
          List.sum_le_sum fun share hmem => Nat.le_sub_of_add_le' (hshare share hmem)
      _ = ∑ i ∈ indices.toFinset, gone i := by
          rw [List.sum_toFinset gone hindices, List.map_map]
          rfl
      _ ≤ ∑ i ∈ places, gone i := Finset.sum_le_sum_of_subset hsub
  calc ∑ i ∈ places, ready' ⟨i⟩ + (shares.map Share.count).sum
      ≤ ∑ i ∈ places, ready' ⟨i⟩ + ∑ i ∈ places, gone i := Nat.add_le_add_left hcounts _
    _ = ∑ i ∈ places, ready ⟨i⟩ := by
        rw [← Finset.sum_add_distrib]
        exact Finset.sum_congr rfl fun i _ => Nat.add_sub_of_le (hle ⟨i⟩)

/-! ### Between ticks -/

/-- The slot for which an action queues input, with the number of its tokens. -/
def arrival? (w : Worker b) : Action → Option (Slot × Nat)
  | .command (.appendInput id text) =>
      match w.index.find? id, b.tokenize text with
      | some slot, .ok tokens => some (slot, tokens.length)
      | _, _ => none
  | _ => none

/-- How many tokens an action queues ahead of a slot. -/
def arrivalAhead (w : Worker b) (slot : Slot) (action : Action) : Nat :=
  match w.arrival? action with
  | some (other, count) => if w.prefillCursor.Before other slot then count else 0
  | none => 0

/-- How many tokens a list of actions queues for sessions that are ahead of a slot at the time. -/
def arrivalsAhead (w : Worker b) (slot : Slot) : List Action → Nat
  | [] => 0
  | action :: rest => w.arrivalAhead slot action + (w.act action).arrivalsAhead slot rest

theorem readyAt_modifySession (slot' : Slot) {f : Session → Session}
    (hf : ∀ s, (f s).pending = s.pending) :
    (w.modifySession slot' f).readyAt slot = w.readyAt slot := by
  unfold readyAt modifySession
  rw [SlotArena.get?_modify]
  split_ifs
  · cases w.sessions.get? slot with
    | none => rfl
    | some s => simp [Session.prefillReady, hf]
  · rfl

theorem readyAt_generateOn (s : Stream) (id : SessionId) (budget : Nat) :
    (w.generateOn s id budget).readyAt slot = w.readyAt slot := by
  rcases w.generateOn_cases s id budget with
    ⟨event, tally, -, heq⟩ | ⟨slot', s', event, -, -, -, heq⟩ |
      ⟨slot', s', tally, -, -, -, -, -, heq⟩
  · rw [heq]
    rfl
  · rw [heq]
    exact readyAt_modifySession (w := w) slot' (f := fun s' => { s' with inputError := none })
      fun _ => rfl
  · rw [heq]
    let g : Generation := { budget, stream := (w.streams.add s).1 }
    exact readyAt_modifySession (w := w) slot' (f := fun s' => { s' with generation := some g })
      fun _ => rfl

/-- Input gets ready when it is queued, and in no other way. -/
theorem Step.readyAt_le {action : Action} (h : Step w action w') (hw : w.Seated)
    (haction : action ≠ .tick) :
    (∀ slot, w'.readyAt slot ≤ w.readyAt slot) ∨
      ∃ other count, w.arrival? action = some (other, count) ∧
        ∀ slot, w'.readyAt slot ≤ w.readyAt slot + if slot = other then count else 0 := by
  cases h with
  | same | consume => exact .inl fun slot => Nat.le_refl _
  | @create id sampling slot' sessions hnew hinsert tally =>
    left
    intro slot
    -- A new session has nothing ready, and its slot was vacant.
    obtain ⟨-, hget⟩ := hw.arena.get?_insertWith hinsert
    show ((sessions.get? slot).map Session.prefillReady).getD 0 ≤ _
    rw [hget]
    split_ifs
    · exact Nat.zero_le _
    · exact Nat.le_refl _
  | @append id text other tokens hslot htokens =>
    right
    -- Here tokens arrive: those that the text has, and in no other slot.
    refine ⟨other, tokens.length, by simp [arrival?, hslot, htokens], fun slot => ?_⟩
    simp only [readyAt, modifySession, SlotArena.get?_modify]
    split_ifs with heq
    · cases w.sessions.get? slot with
      | none => exact Nat.zero_le _
      | some s =>
        simp only [Option.map_some, Option.getD_some, Session.prefillReady, Session.enqueue,
          List.length_append]
        omega
    · exact Nat.le_refl _
  | generate hs budget => exact .inl fun slot => (readyAt_generateOn _ _ budget).le
  | @cancel id slot' s hfind =>
    left
    intro slot
    refine (readyAt_modifySession slot' fun s => ?_).le
    unfold Session.cancel
    split <;> rfl
  | @endSession id slot' hslot tally =>
    left
    intro slot
    -- Whatever was ready in the slot is gone with the session.
    show (((w.finishGeneration slot' _).release slot').sessions.get? slot |>.map
      Session.prefillReady).getD 0 ≤ _
    rw [get?_release_finishGeneration]
    split_ifs
    · exact Nat.zero_le _
    · exact Nat.le_refl _
  | tick => exact absurd rfl haction
  | shutdown =>
    left
    intro slot
    rw [readyAt, hw.get?_shutdown slot]
    exact Nat.zero_le _

/-- **Between ticks** the tokens ahead of a slot become more by those that are queued there. -/
theorem Step.readyAhead_le {action : Action} (h : Step w action w') (hw : w.Seated)
    (haction : action ≠ .tick) (slot : Slot) :
    w'.readyAhead slot ≤ w.readyAhead slot + w.arrivalAhead slot action := by
  have hplaces : w'.placesAhead slot = w.placesAhead slot := by
    unfold placesAhead
    rw [h.length_entries, (h.keepsCourse haction).prefillCursor]
  rw [readyAhead, hplaces]
  rcases h.readyAt_le hw haction with hle | ⟨other, count, harrival, hle⟩
  -- Nothing has arrived, or something has, in a slot that may be ahead.
  · exact (Finset.sum_le_sum fun i _ => hle ⟨i⟩).trans (Nat.le_add_right ..)
  · have hother : ∀ i, (⟨i⟩ : Slot) = other ↔ i = other.index := fun i => Slot.eq_iff_index_eq
    have hcount : ∑ i ∈ w.placesAhead slot, (if (⟨i⟩ : Slot) = other then count else 0) ≤
        w.arrivalAhead slot action := by
      simp only [hother, arrivalAhead, harrival, Finset.sum_ite_eq']
      split_ifs with hplace hbefore
      · exact Nat.le_refl _
      · exact absurd (Finset.mem_filter.mp hplace).2 hbefore
      · exact Nat.zero_le _
      · exact Nat.zero_le _
    calc ∑ i ∈ w.placesAhead slot, w'.readyAt ⟨i⟩
        ≤ ∑ i ∈ w.placesAhead slot, (w.readyAt ⟨i⟩ + if (⟨i⟩ : Slot) = other then count else 0) :=
          Finset.sum_le_sum fun i _ => hle ⟨i⟩
      _ = w.readyAhead slot +
            ∑ i ∈ w.placesAhead slot, (if (⟨i⟩ : Slot) = other then count else 0) :=
          Finset.sum_add_distrib
      _ ≤ w.readyAhead slot + w.arrivalAhead slot action := Nat.add_le_add_left hcount _

/-- The session is live in the slot, and of its input at least so many tokens are ready. -/
structure HasReady (w : Worker b) (id : SessionId) (slot : Slot) (count : Nat) : Prop where
  live : w.index.find? id = some slot
  ready : count ≤ w.readyAt slot

namespace HasReady

variable {count : Nat}

theorem mem_prefillSlots (h : w.HasReady id slot (count + 1)) : slot ∈ w.prefillSlots := by
  obtain ⟨s, hs, heq⟩ := exists_of_readyAt_pos (Nat.zero_lt_of_lt h.ready)
  have hready := h.ready
  rw [heq] at hready
  exact mem_slotsWhere.mpr ⟨s, hs, decide_eq_true (Nat.zero_lt_of_lt hready)⟩

/-- Until a session is ended, nothing between ticks takes its input away. -/
theorem step {action : Action} (h : w.HasReady id slot count) (hstep : Step w action w')
    (hw : w.Seated) (haction : action ≠ .tick) (hend : action ≠ .command (.endSession id))
    (hshutdown : action ≠ .shutdown) : w'.HasReady id slot count := by
  have hlive := hstep.find?_index_of_live h.live hend hshutdown
  obtain ⟨s, hs, -⟩ := (hw.index_iff id slot).mp h.live
  obtain ⟨s', hs', -⟩ := ((hstep.seated hw).index_iff id slot).mp hlive
  have hready := h.ready
  rcases hstep.touched hw haction hs' with ⟨s'', hs'', htouched⟩ | ⟨-, -, hvacant, -⟩
  · obtain rfl := Option.some.inj (hs.symm.trans hs'')
    rw [readyAt_of_get? hs] at hready
    refine ⟨hlive, ?_⟩
    rw [readyAt_of_get? hs']
    exact hready.trans htouched.prefillReady_le
  · exact absurd (hs.symm.trans hvacant) nofun

end HasReady

/-! ### Ticks -/

theorem readyAt_le_of_sessions
    (h : ∀ s', w'.sessions.get? slot = some s' →
      ∃ s, w.sessions.get? slot = some s ∧ s'.prefillReady ≤ s.prefillReady) :
    w'.readyAt slot ≤ w.readyAt slot := by
  cases hs' : w'.sessions.get? slot with
  | none =>
    rw [readyAt, hs']
    exact Nat.zero_le _
  | some s' =>
    obtain ⟨s, hs, hle⟩ := h s' hs'
    rwa [readyAt_of_get? hs', readyAt_of_get? hs]

theorem readyAt_sweep_le {t : Turn b} (ht : t.worker.HoldersDistinct) (slot : Slot) :
    t.sweep.worker.readyAt slot ≤ t.worker.readyAt slot := by
  refine readyAt_le_of_sessions fun s' hs' => ?_
  obtain ⟨s, hs, rfl | rfl⟩ := Turn.before_sweep ht hs'
  · exact ⟨s', hs, Nat.le_refl _⟩
  · exact ⟨s, hs, Nat.le_refl _⟩

theorem readyAt_prefill_le (t : Turn b) (slot : Slot) :
    t.prefill.worker.readyAt slot ≤ t.worker.readyAt slot := by
  refine readyAt_le_of_sessions fun s' hs' => ?_
  obtain ⟨s, hs, rfl | ⟨count, -, hafter⟩⟩ := Turn.before_prefill hs'
  · exact ⟨s', hs, Nat.le_refl _⟩
  · exact ⟨s, hs, hafter.prefillReady_eq ▸ Nat.sub_le ..⟩

theorem readyAt_decode_le {t : Turn b} (ht : t.worker.Seated) (hsound : t.worker.StreamsSound)
    (slot : Slot) : t.decode.worker.readyAt slot ≤ t.worker.readyAt slot := by
  refine readyAt_le_of_sessions fun s' hs' => ?_
  obtain ⟨s, hs, rfl | ⟨hready, hafter⟩⟩ := Turn.before_decode ht hsound hs'
  · exact ⟨s', hs, Nat.le_refl _⟩
  · exact ⟨s, hs, (hafter.prefillReady_eq_zero hready).trans_le (Nat.zero_le _)⟩

/-- The next prefill batch has tokens of a session. -/
def prefills (w : Worker b) (id : SessionId) : Bool :=
  match w.index.find? id, w.planPrefill with
  | some slot, .ok (some plan) => plan.batch.entries.any fun entry => entry.slot == slot
  | _, _ => false

/-- A session that has a share is in the batch. -/
theorem prefills_of_share {share : Share} (hlive : w.index.find? id = some share.slot)
    (hshare : share ∈ w.prefillShares) (hpos : 0 < share.count) : w.prefills id = true := by
  obtain ⟨hs, hcount⟩ := mem_prefillShares hshare
  have hready : 0 < share.session.prefillReady := hpos.trans_le hcount
  have hslots : w.prefillSlots ≠ [] :=
    List.ne_nil_of_mem (mem_slotsWhere.mpr ⟨share.session, hs, decide_eq_true hready⟩)
  obtain ⟨entry, hentry, heq⟩ := Share.exists_mem_entries hpos hcount
  have hbatch : entry ∈ w.prefillPlan.batch.entries :=
    List.mem_flatMap.mpr ⟨share, hshare, hentry⟩
  rw [prefills, hlive, planPrefill_eq, if_neg hslots]
  exact List.any_eq_true.mpr ⟨entry, hbatch, beq_iff_eq.mpr heq⟩

/-- A session with ready input that is not in the batch has no share. -/
theorem HasReady.notMem_prefillShares {count : Nat} (h : w.HasReady id slot (count + 1))
    (hpassed : w.prefills id = false) : slot ∉ w.prefillShares.map Share.slot := by
  intro hmem
  obtain ⟨share, hshare, rfl⟩ := List.mem_map.mp hmem
  have hs := (mem_prefillShares hshare).1
  have hready := h.ready
  rw [readyAt_of_get? hs] at hready
  have hpos : 0 < share.count := Share.count_pos_of_mem_allot hshare (Nat.zero_lt_of_lt hready)
  rw [prefills_of_share h.live hshare hpos] at hpassed
  cases hpassed

theorem readyAt_prefillStage (hw : w.Orderly) (slot : Slot) :
    w.prefillStage.readyAt slot = w.readyAt slot := by
  cases hs : w.sessions.get? slot with
  | none =>
    have hnone := (w.beginTick.actsOn_sweep.get?_eq_none_iff slot).mpr hs
    rw [readyAt, readyAt, hs, prefillStage, hnone]
  | some s =>
    obtain ⟨s', hs', hswept⟩ := w.beginTick.sweep_at hw.beginTick.streams.distinct hs
    rw [readyAt_of_get? hs, prefillStage, readyAt_of_get? hs']
    cases hswept <;> rfl

/-- The sweep leaves a session its input. -/
theorem HasReady.prefillStage {count : Nat} (hw : w.Orderly) (h : w.HasReady id slot count) :
    w.prefillStage.HasReady id slot count where
  live := w.beginTick.actsOn_sweep.index.symm ▸ h.live
  ready := (readyAt_prefillStage hw slot).symm ▸ h.ready

/-- A session that has input to prefill is not served in the decode stage. -/
theorem get?_decode_of_ready {t : Turn b} (ht : t.worker.Seated) {s : Session}
    (hs : t.worker.sessions.get? slot = some s) (hready : 0 < s.prefillReady) :
    t.decode.worker.sessions.get? slot = some s := by
  have hnotServed : slot ∉ t.worker.decodeServed.map Prod.fst := by
    intro hmem
    obtain ⟨⟨slot, s'⟩, hserved, rfl⟩ := List.mem_map.mp hmem
    obtain ⟨hs', hdecode⟩ := mem_decodeServed hserved
    obtain rfl := Option.some.inj (hs.symm.trans hs')
    rw [Session.prefillReady, Session.pending_of_decodeReady hdecode] at hready
    exact absurd hready (Nat.lt_irrefl 0)
  obtain ⟨context, hdecode⟩ := Turn.actsOn_decode ht
  exact (hdecode.session slot hnotServed).trans hs

/-- What the prefill stage has left ready is still ready after the tick. -/
theorem HasReady.tick {count count' : Nat} (hw : w.Orderly) (h : w.HasReady id slot count)
    (hprefilled : count' + 1 ≤ w.beginTick.sweep.prefill.worker.readyAt slot) :
    w.tick.worker.HasReady id slot (count' + 1) := by
  obtain ⟨s, hs, heq⟩ := exists_of_readyAt_pos (Nat.zero_lt_of_lt hprefilled)
  rw [heq] at hprefilled
  have hdecoded : w.tick.worker.sessions.get? slot = some s := by
    rw [Worker.tick]
    exact get?_decode_of_ready hw.beginTick.sweep.prefill.seated hs (Nat.zero_lt_of_lt hprefilled)
  have hlive : w.tick.worker.index.find? id = some slot :=
    Step.tick.find?_index_of_live h.live (by rintro ⟨⟩) (by rintro ⟨⟩)
  refine ⟨hlive, ?_⟩
  rwa [readyAt_of_get? hdecoded]

theorem placesAhead_prefillStage (w : Worker b) (slot : Slot) :
    w.prefillStage.placesAhead slot = w.placesAhead slot := by
  have hsweep := w.beginTick.actsOn_sweep
  unfold placesAhead prefillStage
  rw [hsweep.prefillCursor, hsweep.places]
  rfl

/-- A prefill batch that passes over a slot takes its tokens from the places ahead. -/
theorem readyAt_prefill_add_le {t : Turn b} (hready : slot ∈ t.worker.prefillSlots)
    (hpassed : slot ∉ t.worker.prefillShares.map Share.slot) :
    ∑ i ∈ t.worker.placesAhead slot, t.prefill.worker.readyAt ⟨i⟩ +
        t.worker.config.batching.maxPrefillTokens ≤ t.worker.readyAhead slot := by
  obtain ⟨hfull, hbefore, -⟩ := prefill_of_passed_over hready hpassed
  rw [← hfull]
  refine sum_add_le_of_shares prefillShares_nodup ?_ (readyAt_prefill_le t) ?_
  · intro share hshare
    have hplace := SlotArena.lt_length_of_get?_eq_some (mem_prefillShares hshare).1
    exact Finset.mem_filter.mpr ⟨Finset.mem_range.mpr hplace, hbefore share hshare⟩
  · intro share hshare
    obtain ⟨hs, hcount⟩ := mem_prefillShares hshare
    obtain ⟨s', hs', hafter⟩ := t.prefill_of_share hshare
    rw [readyAt_of_get? hs', readyAt_of_get? hs, hafter.prefillReady_eq]
    omega

/-- **A tick that passes over a session** takes a full batch of the tokens ahead of it, and brings
nobody in front of it. -/
theorem readyAhead_tick (hw : w.Orderly) (hready : slot ∈ w.prefillStage.prefillSlots)
    (hpassed : slot ∉ w.prefillStage.prefillShares.map Share.slot) :
    w.tick.worker.readyAhead slot + w.config.batching.maxPrefillTokens ≤ w.readyAhead slot := by
  have hconfig : w.beginTick.sweep.worker.config = w.config := w.beginTick.actsOn_sweep.config
  have hordered : w.beginTick.sweep.prefill.worker.Orderly := hw.beginTick.sweep.prefill
  obtain ⟨context, hprefill⟩ := w.beginTick.sweep.actsOn_prefill
  obtain ⟨context', hdecode⟩ := Turn.actsOn_decode hordered.seated
  -- The cursor moves past those who were served, so nobody gets in front.
  have hplaces : w.tick.worker.placesAhead slot ⊆ w.placesAhead slot := by
    intro i hi
    obtain ⟨hrange, hahead⟩ := Finset.mem_filter.mp hi
    have hcursor : w.tick.worker.prefillCursor = w.prefillStage.prefillPlan.cursor := by
      rw [Worker.tick]
      exact hdecode.prefillCursor.trans hprefill.prefillCursor
    rw [hcursor] at hahead
    rw [Step.tick.length_entries] at hrange
    have hbefore := (prefill_of_passed_over hready hpassed).2.2 ⟨i⟩ hahead
    rw [prefillStage, w.beginTick.actsOn_sweep.prefillCursor] at hbefore
    exact Finset.mem_filter.mpr ⟨hrange, hbefore⟩
  -- The shares of the batch are all ahead of the session, and the batch is full.
  have htaken := readyAt_prefill_add_le (t := w.beginTick.sweep) hready hpassed
  have hstage : w.beginTick.sweep.worker.placesAhead slot = w.placesAhead slot :=
    w.placesAhead_prefillStage slot
  rw [hstage, hconfig] at htaken
  -- The other two stages make nothing ready.
  have hdecoded : w.tick.worker.readyAhead slot ≤
      ∑ i ∈ w.placesAhead slot, w.beginTick.sweep.prefill.worker.readyAt ⟨i⟩ := by
    refine (Finset.sum_le_sum_of_subset hplaces).trans (Finset.sum_le_sum fun i _ => ?_)
    rw [Worker.tick]
    exact readyAt_decode_le hordered.seated hordered.streams ⟨i⟩
  have hswept : w.beginTick.sweep.worker.readyAhead slot ≤ w.readyAhead slot := by
    rw [readyAhead, hstage]
    exact Finset.sum_le_sum fun i _ =>
      readyAt_sweep_le (t := w.beginTick) hw.beginTick.streams.distinct ⟨i⟩
  omega

/-! ### Windows -/

/-- The worker at the prefill stages of the ticks in a list of actions. -/
def prefillStages (w : Worker b) : List Action → List (Worker b)
  | [] => []
  | .tick :: rest => w.prefillStage :: w.tick.worker.prefillStages rest
  | action :: rest => (w.act action).prefillStages rest

theorem prefillStages_cons_of_ne {action : Action} (h : action ≠ .tick) (rest : List Action) :
    w.prefillStages (action :: rest) = (w.act action).prefillStages rest := by
  cases action with
  | tick => exact absurd rfl h
  | _ => rfl

/-- **A session that is in no batch of a window** has seen full batches of the tokens ahead of
it. -/
theorem full_of_passed_over (hw : w.Orderly) (hwaits : w.HasReady id slot 1)
    {window : List Action} (hend : .command (.endSession id) ∉ window)
    (hshutdown : .shutdown ∉ window)
    (hpassed : ∀ stage ∈ w.prefillStages window, stage.prefills id = false) :
    window.count .tick * w.config.batching.maxPrefillTokens ≤
      w.readyAhead slot + w.arrivalsAhead slot window := by
  -- By induction on the window. What counts is the sum of the tokens ahead and of those to arrive
  -- there, which every tick brings down by a full batch.
  induction window generalizing w with
  | nil => simp
  | cons action rest ih =>
    rw [List.mem_cons, not_or] at hend hshutdown
    have hconfig := hw.seated.config_act action
    rw [arrivalsAhead]
    by_cases htick : action = .tick
    · subst htick
      rw [prefillStages, List.forall_mem_cons] at hpassed
      -- The session is ready when the tick plans its batch, and it has no share in it.
      have hstage := hwaits.prefillStage hw
      have hshare := hstage.notMem_prefillShares hpassed.1
      have hstep := readyAhead_tick hw hstage.mem_prefillSlots hshare
      -- So its own tokens are still ready afterwards, and the rest of the window finds it waiting.
      have hkept : 1 ≤ w.beginTick.sweep.prefill.worker.readyAt slot := by
        obtain ⟨context, hprefill⟩ := w.beginTick.sweep.actsOn_prefill
        rw [readyAt, hprefill.session slot hshare]
        exact hstage.ready
      have hrest := ih (hw.act .tick) (hwaits.tick hw hkept) hend.2 hshutdown.2 hpassed.2
      have hnone : w.arrivalAhead slot .tick = 0 := rfl
      rw [hconfig] at hrest
      rw [hnone, List.count_cons_self, Nat.succ_mul]
      change _ ≤ w.tick.worker.readyAhead slot + _ at hrest
      omega
    -- Between ticks the tokens ahead become more only by those that were counted as arrivals.
    · rw [prefillStages_cons_of_ne htick] at hpassed
      have hstep := (step_act w action).readyAhead_le hw.seated htick slot
      have hwaits' := hwaits.step (step_act w action) hw.seated htick
        (fun heq => hend.1 heq.symm) (fun heq => hshutdown.1 heq.symm)
      have hrest := ih (hw.act action) hwaits' hend.2 hshutdown.2 hpassed
      rw [hconfig] at hrest
      rw [List.count_cons_of_ne htick]
      omega

/-- **How long a session waits for prefill.** After any run, and whatever is done in a window, other
than to end the session or the worker: if the batches of the window have room for all the tokens
that were ready at its beginning, and for those that were queued later for sessions that were then
ahead, one of these batches has tokens of the session. Input for the session itself, and for
sessions that are not ahead of it, makes no difference. -/
theorem prefill_served_run (worker : WorkerId) (context : b.Context) (config : WorkerConfig)
    (actions window : List Action) (id : SessionId) (slot : Slot)
    (hready : ((start worker context config).run actions).HasReady id slot 1)
    (hend : .command (.endSession id) ∉ window) (hshutdown : .shutdown ∉ window) :
    let w := (start worker context config).run actions
    w.readyTokens + w.arrivalsAhead slot window ≤
        window.count .tick * config.batching.maxPrefillTokens →
      ∃ stage ∈ w.prefillStages window, stage.prefills id = true := by
  intro w hroom
  have hw : w.Orderly := orderly_run ..
  have hconfig : w.config = config := (seated_start worker context config).config_run actions
  by_contra hnone
  have hpassed : ∀ stage ∈ w.prefillStages window, stage.prefills id = false :=
    fun stage hstage => Bool.eq_false_iff.mpr fun hserved => hnone ⟨stage, hstage, hserved⟩
  have hfull := full_of_passed_over hw hready hend hshutdown hpassed
  rw [hconfig] at hfull
  -- The session's own tokens are ready as well, and they are not ahead of it.
  have hown := w.readyAhead_add_le slot
  have hpos : 1 ≤ w.readyAt slot := hready.ready
  omega

/-- Commands that leave two tokens of one session to prefill and one of another. -/
def twoWithInput : List Action :=
  [.command (.createSession ⟨1⟩ {}), .command (.appendInput ⟨1⟩ "aaa"),
    .command (.createSession ⟨2⟩ {}), .command (.appendInput ⟨2⟩ "bb")]

/-- A worker that prefills one token in each tick, with the two sessions. -/
def oneAtATime : Worker (ByteModel.backend {}) :=
  (start ⟨0⟩ (ByteModel.Context.mk [[], []]) { batching := { maxPrefillTokens := 1 } }).run
    twoWithInput

/-- New input for the first session is ahead of the second one, and makes it wait for one tick
more. -/
theorem prefill_served_run_second :
    ∃ stage ∈ oneAtATime.prefillStages
        [.command (.appendInput ⟨1⟩ "a"), .tick, .tick, .tick, .tick],
      stage.prefills ⟨2⟩ = true := by
  have hserved := prefill_served_run (b := ByteModel.backend {}) ⟨0⟩
    (ByteModel.Context.mk [[], []]) { batching := { maxPrefillTokens := 1 } } twoWithInput
    [.command (.appendInput ⟨1⟩ "a"), .tick, .tick, .tick, .tick] ⟨2⟩ ⟨1⟩
    ⟨by decide +kernel, by decide +kernel⟩ (by decide) (by decide)
  exact hserved (by decide +kernel)

/-! ### Refills -/

/-- In a round that begins with a slot, the slot is the first to be served. -/
theorem order_of_next {rotation : Rotation} {slots : List Slot} (hnodup : slots.Nodup)
    (hslot : slot ∈ slots) (hnext : rotation.next = slot.index) :
    ∃ rest, rotation.order slots = slot :: rest := by
  obtain ⟨before, after, heq⟩ :=
    List.append_of_mem ((rotation.order_perm slots).mem_iff.mpr hslot)
  have hsorted := rotation.order_pairwise hnodup
  rw [heq, List.pairwise_append] at hsorted
  cases before with
  | nil => exact ⟨after, heq⟩
  | cons first rest =>
    have hbefore := hsorted.2.2 first List.mem_cons_self slot List.mem_cons_self
    unfold Rotation.Before at hbefore
    omega

/-- It is the turn of the session in the slot, and it has more input than one batch holds. -/
structure HoldsTurn (w : Worker b) (id : SessionId) (slot : Slot) : Prop where
  next : w.prefillCursor.next = slot.index
  more : w.HasReady id slot (w.config.batching.maxPrefillTokens + 1)

namespace HoldsTurn

theorem prefillStage (hw : w.Orderly) (h : w.HoldsTurn id slot) :
    w.prefillStage.HoldsTurn id slot where
  next := w.beginTick.actsOn_sweep.prefillCursor.symm ▸ h.next
  more := by
    have hconfig : w.prefillStage.config = w.config := w.beginTick.actsOn_sweep.config
    rw [hconfig]
    exact h.more.prefillStage hw

/-- The batch is filled by its input. -/
theorem prefillShares (h : w.HoldsTurn id slot) (hbound : 1 ≤ w.config.batching.maxPrefillTokens) :
    ∃ s, w.prefillShares =
      [{ slot, session := s, count := w.config.batching.maxPrefillTokens }] := by
  obtain ⟨s, hs, heq⟩ := exists_of_readyAt_pos (Nat.zero_lt_of_lt h.more.ready)
  have hready := h.more.ready
  rw [heq] at hready
  obtain ⟨rest, horder⟩ := order_of_next (slotsWhere_nodup _) h.more.mem_prefillSlots h.next
  have hserved : w.occupants (w.prefillCursor.order w.prefillSlots) =
      (slot, s) :: w.occupants rest := by
    rw [prefillSlots, horder, occupants, List.filterMap_cons_some (by rw [hs]; rfl)]
    rfl
  have hcount : min s.prefillReady w.config.batching.maxPrefillTokens =
      w.config.batching.maxPrefillTokens := Nat.min_eq_right (by omega)
  refine ⟨s, ?_⟩
  rw [Worker.prefillShares, hserved, Share.allot, if_neg (by omega), hcount, Nat.sub_self,
    Share.allot_zero]

/-- No other session is in the batch. -/
theorem prefills_eq_false (hw : w.Seated) (h : w.HoldsTurn id slot)
    (hbound : 1 ≤ w.config.batching.maxPrefillTokens) {other : SessionId} (hother : other ≠ id) :
    w.prefills other = false := by
  obtain ⟨s, hshares⟩ := h.prefillShares hbound
  have hslots : w.prefillSlots ≠ [] := List.ne_nil_of_mem h.more.mem_prefillSlots
  rw [prefills, planPrefill_eq, if_neg hslots]
  cases hlive : w.index.find? other with
  | none => rfl
  | some slot' =>
    -- Entries are for the one slot, and another session is in another slot.
    refine List.any_eq_false.mpr fun entry hentry heq => hother ?_
    rw [prefillPlan, hshares, List.flatMap_singleton] at hentry
    have hslot : entry.slot = slot := Share.slot_of_mem_entries hentry
    rw [beq_iff_eq, hslot] at heq
    obtain ⟨s₁, hs₁, hid⟩ := (hw.index_iff id slot).mp h.more.live
    obtain ⟨s₂, hs₂, hid'⟩ := (hw.index_iff other slot').mp hlive
    rw [← heq, hs₁] at hs₂
    rw [← hid', ← hid, Option.some.inj hs₂]

/-- A tick takes a batch of its input and leaves it the turn. -/
theorem tick (hw : w.Orderly) (h : w.HoldsTurn id slot)
    (hbound : 1 ≤ w.config.batching.maxPrefillTokens) :
    w.tick.worker.prefillCursor.next = slot.index ∧ w.tick.worker.HasReady id slot 1 := by
  have hstage := h.prefillStage hw
  have hconfig : w.prefillStage.config = w.config := w.beginTick.actsOn_sweep.config
  rw [← hconfig] at hbound
  -- The session alone fills the batch.
  obtain ⟨s, hshares⟩ := hstage.prefillShares hbound
  have hshare : { slot, session := s, count := w.prefillStage.config.batching.maxPrefillTokens } ∈
      w.prefillStage.prefillShares := by
    rw [hshares]
    exact List.mem_singleton_self _
  have hready := hstage.more.ready
  rw [readyAt_of_get? (mem_prefillShares hshare).1] at hready
  dsimp only at hready
  constructor
  -- It has tokens left, so the cursor stays with it.
  · obtain ⟨context, hprefill⟩ := w.beginTick.sweep.actsOn_prefill
    obtain ⟨context', hdecode⟩ := Turn.actsOn_decode hw.beginTick.sweep.prefill.seated
    have hcursor : w.tick.worker.prefillCursor = w.prefillStage.prefillPlan.cursor := by
      rw [Worker.tick]
      exact hdecode.prefillCursor.trans hprefill.prefillCursor
    rw [hcursor, prefillPlan, hshares, List.foldl_cons, List.foldl_nil, Share.moveOn,
      if_pos (Nat.lt_of_succ_le hready)]
    rfl
  · refine h.more.tick hw ?_
    obtain ⟨s', hs', hafter⟩ := Turn.prefill_of_share (t := w.beginTick.sweep) hshare
    rw [readyAt_of_get? hs', hafter.prefillReady_eq]
    dsimp only
    omega

/-- Enough new input lets a session that has the turn keep it. -/
theorem refill (hnext : w.prefillCursor.next = slot.index)
    (hready : w.HasReady id slot 1) {text : String} {tokens : List Token}
    (htokens : b.tokenize text = .ok tokens)
    (hmany : w.config.batching.maxPrefillTokens ≤ tokens.length) :
    (w.act (.command (.appendInput id text))).HoldsTurn id slot := by
  have happend : w.act (.command (.appendInput id text)) =
      w.modifySession slot (Session.enqueue · tokens) := by
    simp [act, handle, appendInput, hready.live, htokens]
  obtain ⟨s, hs, heq⟩ := exists_of_readyAt_pos hready.ready
  have hpos := hready.ready
  rw [heq] at hpos
  have hs' : (w.modifySession slot (Session.enqueue · tokens)).sessions.get? slot =
      some (s.enqueue tokens) := by
    rw [modifySession, SlotArena.get?_modify_self, hs, Option.map_some]
  rw [happend]
  refine ⟨hnext, hready.live, ?_⟩
  rw [readyAt_of_get? hs']
  show w.config.batching.maxPrefillTokens + 1 ≤ (s.pending ++ tokens).length - 1
  unfold Session.prefillReady at hpos
  rw [List.length_append]
  omega

end HoldsTurn

/-- A number of ticks, each followed by the same input for a session. -/
def refilling (id : SessionId) (text : String) : Nat → List Action
  | 0 => []
  | rounds + 1 => .tick :: .command (.appendInput id text) :: refilling id text rounds

/-- **A session that is refilled keeps its turn.** As long as each tick is followed by as much input
for the session that has the turn as a batch holds, no other session is ever in a batch. -/
theorem passed_over_by_refills (hw : w.Orderly) (hbound : 1 ≤ w.config.batching.maxPrefillTokens)
    {text : String} {tokens : List Token} (htokens : b.tokenize text = .ok tokens)
    (hmany : w.config.batching.maxPrefillTokens ≤ tokens.length) (hturn : w.HoldsTurn id slot)
    {other : SessionId} (hother : other ≠ id) (rounds : Nat) :
    ∀ stage ∈ w.prefillStages (refilling id text rounds), stage.prefills other = false := by
  induction rounds generalizing w with
  | zero => exact nofun
  | succ rounds ih =>
    have hconfig : w.tick.worker.config = w.config := hw.seated.course_tick.1
    have hticked : w.tick.worker.Orderly := hw.act .tick
    obtain ⟨hnext, hready⟩ := hturn.tick hw hbound
    have hrefilled := HoldsTurn.refill hnext hready htokens (by rwa [hconfig])
    set refilled := w.tick.worker.act (.command (.appendInput id text)) with hact
    have hconfig' : refilled.config = w.config :=
      (hticked.seated.config_act (.command (.appendInput id text))).trans hconfig
    have hlater := ih (hticked.act (.command (.appendInput id text)))
      (by rwa [← hact, hconfig']) (by rwa [← hact, hconfig']) hrefilled
    have hnow : w.prefillStage.prefills other = false := by
      refine (hturn.prefillStage hw).prefills_eq_false hw.beginTick.sweep.seated ?_ hother
      rwa [w.beginTick.actsOn_sweep.config]
    have happend : Action.command (.appendInput id text) ≠ .tick := by simp
    rw [refilling, prefillStages, prefillStages_cons_of_ne happend]
    exact List.forall_mem_cons.mpr ⟨hnow, hlater⟩

/-- Of the two sessions that want to write, the second one never does, if the first one is given a
token after each tick. Three tokens are ready at the beginning, and three ticks have room for
them. -/
theorem second_session_passed_over :
    oneAtATime.readyTokens = 3 ∧ oneAtATime.HasReady ⟨2⟩ ⟨1⟩ 1 ∧
      ∀ rounds, ∀ stage ∈ oneAtATime.prefillStages (refilling ⟨1⟩ "a" rounds),
        stage.prefills ⟨2⟩ = false := by
  refine ⟨by decide +kernel, ⟨by decide +kernel, by decide +kernel⟩, fun rounds => ?_⟩
  have hturn : oneAtATime.HoldsTurn ⟨1⟩ ⟨0⟩ :=
    ⟨by decide +kernel, ⟨by decide +kernel, by decide +kernel⟩⟩
  have htokens : (ByteModel.backend {}).tokenize "a" = .ok [97] := by decide +kernel
  exact passed_over_by_refills (orderly_run ..) (by decide +kernel) htokens (by decide +kernel)
    hturn (by decide) rounds

end Worker

end Turnwise
