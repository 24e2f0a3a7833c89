import Mathlib.Data.List.Basic
import Mathlib.Data.List.Nodup
import Mathlib.Tactic.SplitIfs
import Turnwise.Proofs.Rotation
import Turnwise.Worker.Tick

/-!
# What a tick plans

Planning never fails, because a plan asks a batch for no more than it still holds. So a plan can be
written down: the prefill stage serves the sessions in `Worker.prefillShares`, one run of
consecutive tokens for each (`planPrefill_eq`), and the decode stage serves the sessions in
`Worker.decodeServed`, one token for each (`planDecode_eq`).

In both the sessions served occupy different slots, because the order in which slots are served is a
permutation of those that are ready (`Rotation.order_perm`).
-/

namespace Turnwise

namespace Worker

variable {b : Backend} {w : Worker b}

/-! ### Slots and the sessions in them -/

theorem mem_slotsWhere {p : Session → Bool} {slot : Slot} :
    slot ∈ w.slotsWhere p ↔ ∃ s, w.sessions.get? slot = some s ∧ p s = true := by
  rw [slotsWhere, List.mem_map]
  constructor
  · rintro ⟨⟨slot', s⟩, hmem, rfl⟩
    obtain ⟨hmem, hp⟩ := List.mem_filter.mp hmem
    exact ⟨s, SlotArena.mem_toList.mp hmem, hp⟩
  · rintro ⟨s, hs, hp⟩
    exact ⟨(slot, s), List.mem_filter.mpr ⟨SlotArena.mem_toList.mpr hs, hp⟩, rfl⟩

theorem slotsWhere_nodup (p : Session → Bool) : (w.slotsWhere p).Nodup :=
  (List.filter_sublist.map Prod.fst).nodup SlotArena.slots_nodup

theorem slotsWhere_pairwise (p : Session → Bool) :
    (w.slotsWhere p).Pairwise (·.index < ·.index) :=
  SlotArena.slots_pairwise.sublist (List.filter_sublist.map Prod.fst)

/-- The slots are listed in order, so who is listed decides. -/
theorem slotsWhere_congr {w' : Worker b} {p : Session → Bool}
    (h : ∀ slot, slot ∈ w'.slotsWhere p ↔ slot ∈ w.slotsWhere p) :
    w'.slotsWhere p = w.slotsWhere p := by
  have hperm : (w'.slotsWhere p).Perm (w.slotsWhere p) :=
    (List.perm_ext_iff_of_nodup (slotsWhere_nodup p) (slotsWhere_nodup p)).mpr h
  refine hperm.eq_of_pairwise (fun slot slot' _ _ hlt hlt' => ?_) (slotsWhere_pairwise p)
    (slotsWhere_pairwise p)
  exact absurd (Nat.lt_trans hlt hlt') (Nat.lt_irrefl _)

theorem exists_of_mem_order {p : Session → Bool} {rotation : Rotation} {slot : Slot}
    (h : slot ∈ rotation.order (w.slotsWhere p)) :
    ∃ s, w.sessions.get? slot = some s ∧ p s = true :=
  mem_slotsWhere.mp ((rotation.order_perm _).subset h)

/-- The sessions in some slots, in the order of the slots. -/
def occupants (w : Worker b) (slots : List Slot) : List (Slot × Session) :=
  slots.filterMap fun slot => (w.sessions.get? slot).map fun s => (slot, s)

theorem mem_occupants {slots : List Slot} {slot : Slot} {s : Session} :
    (slot, s) ∈ w.occupants slots ↔ slot ∈ slots ∧ w.sessions.get? slot = some s := by
  rw [occupants, List.mem_filterMap]
  constructor
  · rintro ⟨slot', hmem, h⟩
    obtain ⟨s', hs', heq⟩ := Option.map_eq_some_iff.mp h
    obtain ⟨rfl, rfl⟩ := Prod.mk.inj heq
    exact ⟨hmem, hs'⟩
  · rintro ⟨hmem, hs⟩
    exact ⟨slot, hmem, by rw [hs]; rfl⟩

theorem map_fst_occupants {slots : List Slot}
    (h : ∀ slot ∈ slots, ∃ s, w.sessions.get? slot = some s) :
    (w.occupants slots).map Prod.fst = slots := by
  induction slots with
  | nil => rfl
  | cons slot rest ih =>
    obtain ⟨s, hs⟩ := h slot List.mem_cons_self
    rw [occupants, List.filterMap_cons_some (by rw [hs]; rfl), List.map_cons]
    exact congrArg (slot :: ·) (ih fun slot' hslot' => h slot' (List.mem_cons_of_mem _ hslot'))

/-- A pass over slots that skips the vacant ones is a pass over sessions. -/
theorem foldlM_occupants {α : Type} {step : α → Slot → Except Error α}
    (f : α → Slot → Session → Except Error α)
    (hsome : ∀ acc slot s, w.sessions.get? slot = some s → step acc slot = f acc slot s)
    (hnone : ∀ acc slot, w.sessions.get? slot = none → step acc slot = .ok acc)
    (slots : List Slot) (init : α) :
    slots.foldlM step init =
      (w.occupants slots).foldlM (fun acc entry => f acc entry.1 entry.2) init := by
  induction slots generalizing init with
  | nil => rfl
  | cons slot rest ih =>
    rw [List.foldlM_cons, occupants, List.filterMap_cons]
    cases hs : w.sessions.get? slot with
    | none =>
      rw [hnone init slot hs]
      exact ih init
    | some s =>
      rw [hsome init slot s hs]
      show _ = f init slot s >>= fun acc => (w.occupants rest).foldlM _ acc
      exact congrArg (f init slot s >>= ·) (funext ih)

end Worker

/-! ### Prefill -/

/-- The entries that write tokens of one row at consecutive positions. -/
def Batch.runOf (slot : Slot) : List Token → Nat → List BatchEntry
  | [], _ => []
  | token :: rest, position =>
      { slot, token, position, wantLogits := false } :: runOf slot rest (position + 1)

theorem Batch.length_runOf (slot : Slot) (tokens : List Token) (position : Nat) :
    (runOf slot tokens position).length = tokens.length := by
  induction tokens generalizing position with
  | nil => rfl
  | cons token rest ih => rw [runOf, List.length_cons, ih, List.length_cons]

/-- There is a place for the entry. -/
theorem Batch.push_of_room {batch : Batch} (h : batch.entries.length < batch.capacity)
    (entry : BatchEntry) :
    batch.push entry = ({ batch with entries := batch.entries ++ [entry] }, .ok ()) :=
  if_neg (Nat.not_le.mpr h)

theorem Batch.pushRun_eq_ok {batch : Batch} {tokens : List Token}
    (h : batch.entries.length + tokens.length ≤ batch.capacity) (slot : Slot) (position : Nat) :
    batch.pushRun slot tokens position =
      .ok { batch with entries := batch.entries ++ runOf slot tokens position } := by
  induction tokens generalizing batch position with
  | nil => rw [pushRun, runOf, List.append_nil]
  | cons token rest ih =>
    rw [List.length_cons] at h
    have hpush : batch.pushInput slot token position =
        .ok { batch with entries := batch.entries ++
          [{ slot, token, position, wantLogits := false }] } := by
      rw [pushInput, addInput, push_of_room (by omega)]
      rfl
    rw [pushRun, hpush]
    refine (ih ?_ (position + 1)).trans ?_
    · show (batch.entries ++ [_]).length + rest.length ≤ batch.capacity
      rw [List.length_append, List.length_singleton]
      omega
    · rw [runOf, List.append_assoc]
      rfl

/-- What a prefill batch writes for one session. -/
structure Share where
  slot : Slot
  session : Session
  count : Nat

namespace Share

/-- The tokens written. -/
def tokens (share : Share) : List Token := share.session.pending.take share.count

/-- The entries of the batch. -/
def entries (share : Share) : List BatchEntry :=
  Batch.runOf share.slot share.tokens share.session.position

/-- Where the next prefill begins if this was the last share. -/
def moveOn (share : Share) (cursor : Rotation) : Rotation :=
  if share.count < share.session.prefillReady then cursor.resumeAt share.slot
  else cursor.resumeAfter share.slot

/-- Shares of sessions in the order given, as long as there is room: each gets as many of its tokens
as are ready and fit. -/
def allot : Nat → List (Slot × Session) → List Share
  | _, [] => []
  | room, (slot, s) :: rest =>
      if room = 0 then []
      else { slot, session := s, count := min s.prefillReady room } ::
        allot (room - min s.prefillReady room) rest

theorem allot_zero (served : List (Slot × Session)) : allot 0 served = [] := by
  cases served with
  | nil => rfl
  | cons entry rest => rw [allot, if_pos rfl]

/-- The shares are those of the first few sessions. -/
theorem map_allot_prefix (room : Nat) (served : List (Slot × Session)) :
    (allot room served).map (fun share => (share.slot, share.session)) <+: served := by
  induction served generalizing room with
  | nil => exact List.prefix_rfl
  | cons entry rest ih =>
    rw [allot]
    split_ifs
    · exact List.nil_prefix
    · exact (List.prefix_cons_inj entry).mpr (ih _)

/-- No share asks for the last pending token. -/
theorem count_le_of_mem_allot {room : Nat} {served : List (Slot × Session)} {share : Share}
    (h : share ∈ allot room served) : share.count ≤ share.session.prefillReady := by
  induction served generalizing room with
  | nil => cases h
  | cons entry rest ih =>
    rw [allot] at h
    split_ifs at h
    · cases h
    · rcases List.mem_cons.mp h with rfl | hrest
      · exact Nat.min_le_left ..
      · exact ih hrest

/-- A session that has something to write does not get an empty share. -/
theorem count_pos_of_mem_allot {room : Nat} {served : List (Slot × Session)} {share : Share}
    (h : share ∈ allot room served) (hready : 0 < share.session.prefillReady) :
    0 < share.count := by
  induction served generalizing room with
  | nil => cases h
  | cons entry rest ih =>
    rw [allot] at h
    split_ifs at h with hroom
    · cases h
    · rcases List.mem_cons.mp h with rfl | hrest
      · exact Nat.lt_min.mpr ⟨hready, Nat.pos_of_ne_zero hroom⟩
      · exact ih hrest

/-- Whoever gets no share was passed over for want of room: those before him have taken it all. -/
theorem allot_of_passed_over {room : Nat} {served : List (Slot × Session)} {slot : Slot}
    {s : Session} (hmem : (slot, s) ∈ served)
    (hpassed : slot ∉ (allot room served).map Share.slot) :
    ((allot room served).map Share.count).sum = room ∧
      ∃ before after, served = before ++ (slot, s) :: after ∧
        ∀ share ∈ allot room served, (share.slot, share.session) ∈ before := by
  induction served generalizing room with
  | nil => cases hmem
  | cons entry rest ih =>
    rw [allot] at hpassed ⊢
    split_ifs at hpassed ⊢ with hroom
    · obtain ⟨before, after, heq⟩ := List.append_of_mem hmem
      exact ⟨hroom.symm, before, after, heq, nofun⟩
    · rw [List.map_cons, List.mem_cons, not_or] at hpassed
      have hrest : (slot, s) ∈ rest := (List.mem_cons.mp hmem).resolve_left fun heq =>
        hpassed.1 (congrArg Prod.fst heq)
      obtain ⟨hsum, before, after, heq, hbefore⟩ := ih hrest hpassed.2
      refine ⟨?_, entry :: before, after, by rw [heq, List.cons_append], ?_⟩
      · rw [List.map_cons, List.sum_cons, hsum]
        exact Nat.add_sub_of_le (Nat.min_le_right ..)
      · intro share hshare
        rcases List.mem_cons.mp hshare with rfl | hlater
        · exact List.mem_cons_self
        · exact List.mem_cons_of_mem _ (hbefore share hlater)

theorem length_tokens {share : Share} (h : share.count ≤ share.session.prefillReady) :
    share.tokens.length = share.count := by
  unfold Session.prefillReady at h
  rw [tokens, List.length_take]
  omega

end Share

/-- The plan after serving one session. -/
def PrefillPlan.withShare (plan : PrefillPlan) (share : Share) : PrefillPlan where
  batch := { plan.batch with entries := plan.batch.entries ++ share.entries }
  shares := plan.shares ++ [(share.slot, share.count)]
  cursor := share.moveOn plan.cursor

/-- **Serving sessions never fails**, and serves those that `Share.allot` names. -/
theorem PrefillPlan.foldlM_serve (served : List (Slot × Session)) (plan : PrefillPlan) :
    served.foldlM (fun plan entry => plan.serve entry.1 entry.2) plan =
      .ok ((Share.allot plan.batch.remaining served).foldl withShare plan) := by
  induction served generalizing plan with
  | nil => rfl
  | cons entry rest ih =>
    obtain ⟨slot, s⟩ := entry
    rw [List.foldlM_cons, Share.allot]
    by_cases hfull : plan.batch.remaining = 0
    -- A full batch takes nobody else, and neither does `allot`.
    · rw [if_pos hfull, serve, if_pos hfull]
      refine (ih plan).trans ?_
      rw [hfull, Share.allot_zero]
    · rw [if_neg hfull, serve, if_neg hfull]
      -- Otherwise the session gets its share, which fits because it is cut to the room there is.
      let share : Share := { slot, session := s, count := min s.prefillReady plan.batch.remaining }
      have hlength : share.tokens.length = share.count := Share.length_tokens (Nat.min_le_left ..)
      have hcount : share.count ≤ plan.batch.remaining := Nat.min_le_right ..
      have hserve : plan.batch.pushRun slot share.tokens s.position =
          .ok (plan.withShare share).batch := by
        refine Batch.pushRun_eq_ok ?_ slot s.position
        unfold Batch.remaining at hfull hcount
        omega
      have hroom : (plan.withShare share).batch.remaining = plan.batch.remaining - share.count := by
        show plan.batch.capacity - (plan.batch.entries ++ share.entries).length = _
        rw [List.length_append, Share.entries, Batch.length_runOf, hlength, Batch.remaining,
          Nat.sub_sub]
      have hrest := ih (plan.withShare share)
      rw [hroom] at hrest
      change ((plan.batch.pushRun slot share.tokens s.position) >>= _ >>= _) = _
      rw [hserve]
      exact hrest

theorem PrefillPlan.foldl_withShare (shares : List Share) (plan : PrefillPlan) :
    shares.foldl withShare plan =
      { batch := { plan.batch with entries := plan.batch.entries ++ shares.flatMap Share.entries }
        shares := plan.shares ++ shares.map fun share => (share.slot, share.count)
        cursor := shares.foldl (fun cursor share => share.moveOn cursor) plan.cursor } := by
  induction shares generalizing plan with
  | nil => simp
  | cons share rest ih => simp [ih, withShare]

namespace Worker

variable {b : Backend} {w : Worker b}

/-- What the next prefill batch writes. -/
def prefillShares (w : Worker b) : List Share :=
  Share.allot w.config.batching.maxPrefillTokens
    (w.occupants (w.prefillCursor.order w.prefillSlots))

/-- The next prefill batch, if there is one. -/
def prefillPlan (w : Worker b) : PrefillPlan where
  batch :=
    { capacity := w.config.batching.maxPrefillTokens
      entries := w.prefillShares.flatMap Share.entries }
  shares := w.prefillShares.map fun share => (share.slot, share.count)
  cursor := w.prefillShares.foldl (fun cursor share => share.moveOn cursor) w.prefillCursor

theorem planPrefill_eq (w : Worker b) :
    w.planPrefill = .ok (if w.prefillSlots = [] then none else some w.prefillPlan) := by
  unfold planPrefill
  split
  · rename_i hnone
    rw [if_pos hnone]
  · rename_i hready
    rw [if_neg hready]
    dsimp only
    rw [foldlM_occupants PrefillPlan.serve (fun acc slot s hs => by rw [hs])
      (fun acc slot hs => by rw [hs]; rfl), PrefillPlan.foldlM_serve, PrefillPlan.foldl_withShare]
    rfl

theorem eq_prefillPlan {plan : PrefillPlan} (h : w.planPrefill = .ok (some plan)) :
    plan = w.prefillPlan := by
  rw [planPrefill_eq] at h
  split_ifs at h
  · cases h
  · exact (Option.some.inj (Except.ok.inj h)).symm

theorem prefillShares_of_prefillSlots (h : w.prefillSlots = []) : w.prefillShares = [] := by
  rw [prefillShares, h, (w.prefillCursor.order_perm []).eq_nil]
  rfl

/-- Every share belongs to a session, and leaves its last pending token. -/
theorem mem_prefillShares {share : Share} (h : share ∈ w.prefillShares) :
    w.sessions.get? share.slot = some share.session ∧
      share.count ≤ share.session.prefillReady := by
  have hmem := (Share.map_allot_prefix _ _).subset (List.mem_map_of_mem h)
  exact ⟨(mem_occupants.mp hmem).2, Share.count_le_of_mem_allot h⟩

/-- Only sessions that have something to write get a share. -/
theorem prefillReady_pos_of_mem_prefillShares {share : Share} (h : share ∈ w.prefillShares) :
    0 < share.session.prefillReady := by
  have hmem := (Share.map_allot_prefix _ _).subset (List.mem_map_of_mem h)
  obtain ⟨hslot, hs⟩ := mem_occupants.mp hmem
  obtain ⟨s, hs', hready⟩ := exists_of_mem_order hslot
  obtain rfl := Option.some.inj (hs.symm.trans hs')
  exact of_decide_eq_true hready

theorem prefillShares_nodup : (w.prefillShares.map Share.slot).Nodup := by
  have hperm := w.prefillCursor.order_perm w.prefillSlots
  have hserved : ((w.occupants (w.prefillCursor.order w.prefillSlots)).map Prod.fst).Nodup := by
    rw [map_fst_occupants]
    · exact hperm.nodup_iff.mpr (slotsWhere_nodup _)
    · intro slot hslot
      obtain ⟨s, hs, -⟩ := exists_of_mem_order hslot
      exact ⟨s, hs⟩
  have hfront := (Share.map_allot_prefix w.config.batching.maxPrefillTokens
    (w.occupants (w.prefillCursor.order w.prefillSlots))).sublist.map Prod.fst
  rw [List.map_map] at hfront
  exact hfront.nodup hserved

/-- No share is empty. -/
theorem count_pos_of_mem_prefillShares {share : Share} (h : share ∈ w.prefillShares) :
    0 < share.count :=
  Share.count_pos_of_mem_allot h (prefillReady_pos_of_mem_prefillShares h)

/-- The prefill batch holds the tokens of its shares. -/
theorem size_prefillPlan (w : Worker b) :
    w.prefillPlan.batch.size = (w.prefillShares.map Share.count).sum := by
  have hlength : ∀ share ∈ w.prefillShares, share.entries.length = share.count := by
    intro share hshare
    rw [Share.entries, Batch.length_runOf, Share.length_tokens (mem_prefillShares hshare).2]
  show (w.prefillShares.flatMap Share.entries).length = _
  rw [List.length_flatMap, List.map_congr_left hlength]

end Worker

/-! ### Decode -/

/-- The decode input of a session: the token that the next decode step writes. -/
def Session.input (s : Session) : Token := s.pending.headD 0

theorem Session.pending_of_decodeReady {s : Session} (h : s.decodeReady = true) :
    s.pending = [s.input] := by
  unfold decodeReady at h
  rw [Bool.and_eq_true, beq_iff_eq] at h
  obtain ⟨token, htoken⟩ := List.length_eq_one_iff.mp h.1
  rw [input, htoken]
  rfl

theorem Session.active_of_decodeReady {s : Session} (h : s.decodeReady = true) :
    ∃ g, s.generation = some g ∧ 0 < g.budget := by
  unfold decodeReady isProducing at h
  rw [Bool.and_eq_true] at h
  split at h
  · rename_i g hg
    rw [Bool.and_eq_true, decide_eq_true_iff] at h
    exact ⟨g, hg, h.2.2⟩
  · exact absurd h.2 Bool.false_ne_true

/-- The entry of a decode batch for a session. -/
def decodeEntry (served : Slot × Session) : BatchEntry :=
  { slot := served.1
    token := served.2.input
    position := served.2.position
    wantLogits := true }

/-- The plan after serving one session. -/
def DecodePlan.withTurn (plan : DecodePlan) (served : Slot × Session) : DecodePlan where
  batch :=
    { plan.batch with
      entries := plan.batch.entries ++ [decodeEntry served]
      owners := plan.batch.owners ++ [served.2.id] }
  cursor := plan.cursor.resumeAfter served.1

/-- Serving no more sessions than fit never fails. -/
theorem DecodePlan.foldlM_serve {served : List (Slot × Session)}
    (hready : ∀ entry ∈ served, entry.2.pending ≠ []) {plan : DecodePlan}
    (hfits : plan.batch.entries.length + served.length ≤ plan.batch.capacity) :
    served.foldlM (fun plan entry => plan.serve entry.1 entry.2) plan =
      .ok (served.foldl withTurn plan) := by
  induction served generalizing plan with
  | nil => rfl
  | cons entry rest ih =>
    obtain ⟨slot, s⟩ := entry
    rw [List.length_cons] at hfits
    obtain ⟨token, tokens, hpending⟩ :=
      List.exists_cons_of_ne_nil (hready (slot, s) List.mem_cons_self)
    have hroom : plan.batch.entries.length < plan.batch.capacity := by omega
    -- There is a token to write and a place to write it to.
    have hserve : plan.serve slot s = .ok (plan.withTurn (slot, s)) := by
      rw [serve, hpending]
      simp only [Batch.pushForLogits, Batch.addForLogits, Batch.push_of_room hroom]
      rw [withTurn, decodeEntry, Session.input, hpending]
      rfl
    rw [List.foldlM_cons, List.foldl_cons]
    change (plan.serve slot s >>= _) = _
    rw [hserve]
    refine ih (fun entry hentry => hready entry (List.mem_cons_of_mem _ hentry)) ?_
    show (plan.batch.entries ++ [_]).length + rest.length ≤ plan.batch.capacity
    rw [List.length_append, List.length_singleton]
    omega

theorem DecodePlan.foldl_withTurn (served : List (Slot × Session)) (plan : DecodePlan) :
    served.foldl withTurn plan =
      { batch :=
          { plan.batch with
            entries := plan.batch.entries ++ served.map decodeEntry
            owners := plan.batch.owners ++ served.map fun entry => entry.2.id }
        cursor := served.foldl (fun cursor entry => cursor.resumeAfter entry.1) plan.cursor } := by
  induction served generalizing plan with
  | nil => simp
  | cons entry rest ih => simp [ih, withTurn]

namespace Worker

variable {b : Backend} {w : Worker b}

/-- The sessions that the next decode batch serves. -/
def decodeServed (w : Worker b) : List (Slot × Session) :=
  w.occupants ((w.decodeCursor.order w.decodeSlots).take w.config.batching.maxDecodeSequences)

/-- The next decode batch, if there is one. -/
def decodePlan (w : Worker b) : DecodePlan where
  batch :=
    { capacity := w.config.batching.maxDecodeSequences
      entries := w.decodeServed.map decodeEntry
      owners := w.decodeServed.map fun entry => entry.2.id }
  cursor := w.decodeServed.foldl (fun cursor entry => cursor.resumeAfter entry.1) w.decodeCursor

theorem owners_decodePlan (w : Worker b) :
    w.decodePlan.batch.owners = w.decodeServed.map fun entry => entry.2.id :=
  rfl

theorem decodeServed_of_decodeSlots (h : w.decodeSlots = []) : w.decodeServed = [] := by
  rw [decodeServed, h, (w.decodeCursor.order_perm []).eq_nil, List.take_nil]
  rfl

theorem mem_decodeServed {slot : Slot} {s : Session} (h : (slot, s) ∈ w.decodeServed) :
    w.sessions.get? slot = some s ∧ s.decodeReady = true := by
  obtain ⟨hslot, hs⟩ := mem_occupants.mp h
  obtain ⟨s', hs', hready⟩ := exists_of_mem_order (List.mem_of_mem_take hslot)
  obtain rfl := Option.some.inj (hs.symm.trans hs')
  exact ⟨hs, hready⟩

/-- Who does not generate is not served. -/
theorem notMem_decodeServed_of_idle {slot : Slot} {s : Session}
    (hs : w.sessions.get? slot = some s) (hidle : s.generation = none) :
    slot ∉ w.decodeServed.map Prod.fst := by
  intro hmem
  obtain ⟨⟨slot, s'⟩, hserved, rfl⟩ := List.mem_map.mp hmem
  obtain ⟨hs', hready⟩ := mem_decodeServed hserved
  obtain rfl := Option.some.inj (hs.symm.trans hs')
  obtain ⟨g, hg, -⟩ := Session.active_of_decodeReady hready
  cases hidle.symm.trans hg

theorem decodeServed_slots :
    w.decodeServed.map Prod.fst =
      (w.decodeCursor.order w.decodeSlots).take w.config.batching.maxDecodeSequences := by
  refine map_fst_occupants fun slot hslot => ?_
  obtain ⟨s, hs, -⟩ := exists_of_mem_order (List.mem_of_mem_take hslot)
  exact ⟨s, hs⟩

theorem decodeServed_nodup : (w.decodeServed.map Prod.fst).Nodup := by
  rw [decodeServed_slots]
  exact (List.take_sublist _ _).nodup
    ((w.decodeCursor.order_perm _).nodup_iff.mpr (slotsWhere_nodup _))

theorem planDecode_eq (w : Worker b) :
    w.planDecode = .ok (if w.decodeSlots = [] then none else some w.decodePlan) := by
  unfold planDecode
  split
  · rename_i hnone
    rw [if_pos hnone]
  · rename_i hready
    have hlength : w.decodeServed.length ≤ w.config.batching.maxDecodeSequences := by
      rw [← List.length_map (f := Prod.fst), decodeServed_slots, List.length_take]
      exact Nat.min_le_left ..
    rw [if_neg hready]
    dsimp only
    rw [foldlM_occupants DecodePlan.serve (fun acc slot s hs => by rw [hs])
      (fun acc slot hs => by rw [hs]; rfl), DecodePlan.foldlM_serve, DecodePlan.foldl_withTurn]
    · rfl
    · rintro ⟨slot, s⟩ hmem
      rw [Session.pending_of_decodeReady (mem_decodeServed hmem).2]
      exact List.cons_ne_nil _ _
    · exact (Nat.zero_add _).symm ▸ hlength

theorem eq_decodePlan {plan : DecodePlan} (h : w.planDecode = .ok (some plan)) :
    plan = w.decodePlan := by
  rw [planDecode_eq] at h
  split_ifs at h
  · cases h
  · exact (Option.some.inj (Except.ok.inj h)).symm

/-! #### What the plan depends on -/

theorem decodeSlots_congr {w' : Worker b}
    (hready : ∀ slot s, s.decodeReady = true →
      (w'.sessions.get? slot = some s ↔ w.sessions.get? slot = some s)) :
    w'.decodeSlots = w.decodeSlots := by
  refine slotsWhere_congr fun slot => ?_
  rw [mem_slotsWhere, mem_slotsWhere]
  exact exists_congr fun s => and_congr_left (hready slot s)

theorem decodeServed_congr {w' : Worker b} (hconfig : w'.config = w.config)
    (hcursor : w'.decodeCursor = w.decodeCursor)
    (hready : ∀ slot s, s.decodeReady = true →
      (w'.sessions.get? slot = some s ↔ w.sessions.get? slot = some s)) :
    w'.decodeServed = w.decodeServed := by
  rw [decodeServed, decodeServed, decodeSlots_congr hready, hcursor, hconfig, occupants, occupants]
  refine List.filterMap_congr fun slot hslot => ?_
  obtain ⟨s, hs, hp⟩ := exists_of_mem_order (List.mem_of_mem_take hslot)
  rw [hs, (hready slot s hp).mpr hs]

/-- **The next decode batch** depends on the sessions that wait for a token, on the bound and on the
cursor, and on nothing else of the worker. -/
theorem planDecode_congr {w' : Worker b} (hconfig : w'.config = w.config)
    (hcursor : w'.decodeCursor = w.decodeCursor)
    (hready : ∀ slot s, s.decodeReady = true →
      (w'.sessions.get? slot = some s ↔ w.sessions.get? slot = some s)) :
    w'.planDecode = w.planDecode := by
  rw [planDecode_eq, planDecode_eq, decodeSlots_congr hready, decodePlan, decodePlan,
    decodeServed_congr hconfig hcursor hready, hconfig, hcursor]

end Worker

end Turnwise
