import Mathlib.Data.List.Sort
import Turnwise.Proofs.SlotArena
import Turnwise.Rotation

/-!
# The order of a rotation

`Rotation.Before` is the order in which a rotation serves slots: those at or after the cursor in
increasing order, then those before it in increasing order. The list `Rotation.order` is put
together from the two parts (`exists_order_eq`), so it is sorted by it (`order_pairwise`), and it
leaves nobody out (`order_perm`).

A slot that is waiting and is passed over sees the cursor move towards it, because everybody who was
served came before it. So whoever is before it afterwards was before it already, and was not served
(`passed_over`). Nothing here depends on who waits in later rounds: slots may come and go on both
sides of the cursor.
-/

namespace Turnwise.Rotation

variable {rotation : Rotation} {slots : List Slot} {slot : Slot}

/-- This is insertion sort, as the library has it. -/
theorem ascending_eq_insertionSort (slots : List Slot) :
    ascending slots = slots.insertionSort fun x y => x.index ≤ y.index := by
  have hinsert : insertSlot = List.orderedInsert fun x y => x.index ≤ y.index := by
    funext slot slots
    induction slots with
    | nil => rfl
    | cons first rest ih => rw [insertSlot, ih, List.orderedInsert_cons]
  rw [ascending, hinsert]
  rfl

theorem ascending_perm (slots : List Slot) : (ascending slots).Perm slots := by
  rw [ascending_eq_insertionSort]
  exact List.perm_insertionSort _ slots

/-- The order of service leaves nobody out and serves nobody twice. -/
theorem order_perm (rotation : Rotation) (slots : List Slot) :
    (rotation.order slots).Perm slots := by
  unfold order
  refine List.perm_append_comm.trans ?_
  rw [List.takeWhile_append_dropWhile]
  exact ascending_perm slots

/-- The first slot is served before the second one. -/
def Before (rotation : Rotation) (x y : Slot) : Prop :=
  (rotation.next ≤ x.index ∧ y.index < rotation.next) ∨
    (x.index < y.index ∧ (rotation.next ≤ x.index ↔ rotation.next ≤ y.index))

instance (rotation : Rotation) (x y : Slot) : Decidable (rotation.Before x y) :=
  inferInstanceAs (Decidable (_ ∨ _))

theorem not_before_self (rotation : Rotation) (slot : Slot) : ¬ rotation.Before slot slot := by
  unfold Before
  omega

/-! ### Lists in the order of service -/

/-- In an increasing list the slots before a place come first. -/
theorem dropWhile_eq_filter (hsorted : slots.Pairwise (·.index < ·.index)) (next : Nat) :
    slots.dropWhile (·.index < next) = slots.filter (next ≤ ·.index) := by
  induction slots with
  | nil => rfl
  | cons first rest ih =>
    obtain ⟨hfirst, hrest⟩ := List.pairwise_cons.mp hsorted
    by_cases hlt : first.index < next
    · rw [List.dropWhile_cons_of_pos (by simpa using hlt), ih hrest,
        List.filter_cons_of_neg (by simpa using hlt)]
    · rw [List.dropWhile_cons_of_neg (by simpa using hlt), List.filter_eq_self.mpr]
      intro slot hslot
      rw [decide_eq_true_iff]
      rcases List.mem_cons.mp hslot with rfl | hmem
      · omega
      · have hindex := hfirst slot hmem
        omega

theorem takeWhile_eq_filter (hsorted : slots.Pairwise (·.index < ·.index)) (next : Nat) :
    slots.takeWhile (·.index < next) = slots.filter (·.index < next) := by
  induction slots with
  | nil => rfl
  | cons first rest ih =>
    obtain ⟨hfirst, hrest⟩ := List.pairwise_cons.mp hsorted
    by_cases hlt : first.index < next
    · rw [List.takeWhile_cons_of_pos (by simpa using hlt), ih hrest,
        List.filter_cons_of_pos (by simpa using hlt)]
    · rw [List.takeWhile_cons_of_neg (by simpa using hlt), eq_comm, List.filter_eq_nil_iff]
      intro slot hslot
      rw [decide_eq_true_iff]
      rcases List.mem_cons.mp hslot with rfl | hmem
      · exact hlt
      · have hindex := hfirst slot hmem
        omega

theorem ascending_pairwise (hnodup : slots.Nodup) :
    (ascending slots).Pairwise (·.index < ·.index) := by
  have hdistinct : (ascending slots).Nodup := (ascending_perm slots).nodup_iff.mpr hnodup
  rw [ascending_eq_insertionSort] at hdistinct ⊢
  -- The library takes the laws of the order as instances.
  have htotal : Std.Total fun x y : Slot => x.index ≤ y.index :=
    ⟨fun x y => Nat.le_total x.index y.index⟩
  have htrans : IsTrans Slot fun x y => x.index ≤ y.index := ⟨fun _ _ _ => Nat.le_trans⟩
  have hsorted := List.pairwise_insertionSort (fun x y : Slot => x.index ≤ y.index) slots
  refine (hsorted.and hdistinct).imp fun {x y} h => ?_
  have hne : x.index ≠ y.index := fun heq => h.2 (Slot.eq_iff_index_eq.mpr heq)
  exact Nat.lt_of_le_of_ne h.1 hne

/-- First those at or after the cursor, then those before it, and each part in increasing order. -/
theorem exists_order_eq (rotation : Rotation) (hnodup : slots.Nodup) :
    ∃ ahead behind, rotation.order slots = ahead ++ behind ∧
      ahead.Pairwise (·.index < ·.index) ∧ (∀ slot ∈ ahead, rotation.next ≤ slot.index) ∧
      behind.Pairwise (·.index < ·.index) ∧ ∀ slot ∈ behind, slot.index < rotation.next := by
  have hsorted := ascending_pairwise hnodup
  refine ⟨_, _, ?_, hsorted.filter (rotation.next ≤ ·.index), fun slot hslot => ?_,
    hsorted.filter (·.index < rotation.next), fun slot hslot => ?_⟩
  · unfold order
    dsimp only
    rw [dropWhile_eq_filter hsorted, takeWhile_eq_filter hsorted]
  · exact of_decide_eq_true (List.mem_filter.mp hslot).2
  · exact of_decide_eq_true (List.mem_filter.mp hslot).2

/-- **The order of service is sorted.** -/
theorem order_pairwise (rotation : Rotation) (hnodup : slots.Nodup) :
    (rotation.order slots).Pairwise rotation.Before := by
  obtain ⟨ahead, behind, horder, hahead, hnext, hbehind, hlt⟩ := rotation.exists_order_eq hnodup
  rw [horder, List.pairwise_append]
  refine ⟨hahead.imp_of_mem fun {x y} hx hy hxy => ?_,
    hbehind.imp_of_mem fun {x y} hx hy hxy => ?_, fun x hx y hy => ?_⟩
  · exact .inr ⟨hxy, iff_of_true (hnext x hx) (hnext y hy)⟩
  · exact .inr ⟨hxy, iff_of_false (Nat.not_le.mpr (hlt x hx)) (Nat.not_le.mpr (hlt y hy))⟩
  · exact .inl ⟨hnext x hx, hlt y hy⟩

/-! ### Being passed over -/

/-- The next round begins after the last slot that was served. -/
theorem foldl_resumeAfter (rotation : Rotation) (served : List Slot) (last : Slot) :
    (served ++ [last]).foldl resumeAfter rotation = rotation.resumeAfter last := by
  rw [List.foldl_append]
  rfl

/-- The cursor after serving up to a slot that comes before the one that waits: whoever was served
is behind the waiting slot now. -/
theorem not_before_resumeAfter {last served : Slot} (hlast : rotation.Before last slot)
    (hserved : served = last ∨ rotation.Before served last) :
    ¬ (rotation.resumeAfter last).Before served slot := by
  unfold Before at *
  rcases hserved with rfl | hserved
  · simp only [resumeAfter]
    omega
  · simp only [resumeAfter]
    omega

theorem before_of_resumeAfter {last other : Slot} (hlast : rotation.Before last slot)
    (hother : (rotation.resumeAfter last).Before other slot) : rotation.Before other slot := by
  unfold Before at *
  simp only [resumeAfter] at hother
  omega

/-- If the next round begins with a slot before the waiting one, nobody comes in between. -/
theorem before_of_resumeAt {last other : Slot} (hlast : rotation.Before last slot)
    (hother : (rotation.resumeAt last).Before other slot) : rotation.Before other slot := by
  unfold Before at *
  simp only [resumeAt] at hother
  omega

/-- **Being passed over brings a slot nearer to its turn.** If a slot waits and a round serves
others, then the round is full, everybody in it was before the slot, and whoever is before the slot
at the next round was so at this one and was not served. -/
theorem passed_over (rotation : Rotation) (hnodup : slots.Nodup) (hwaits : slot ∈ slots)
    {bound : Nat} (hbound : 1 ≤ bound) (hpassed : slot ∉ (rotation.order slots).take bound) :
    ((rotation.order slots).take bound).length = bound ∧
      (∀ served ∈ (rotation.order slots).take bound, rotation.Before served slot) ∧
      ∀ other,
        (((rotation.order slots).take bound).foldl resumeAfter rotation).Before other slot →
          rotation.Before other slot ∧ other ∉ (rotation.order slots).take bound := by
  have hsorted := rotation.order_pairwise hnodup
  have hmem : slot ∈ (rotation.order slots).drop bound := by
    have hall := (rotation.order_perm slots).mem_iff.mpr hwaits
    rw [← List.take_append_drop bound (rotation.order slots)] at hall
    exact (List.mem_append.mp hall).resolve_left hpassed
  rw [← List.take_append_drop bound (rotation.order slots), List.pairwise_append] at hsorted
  obtain ⟨hround, -, hcross⟩ := hsorted
  have hbefore : ∀ served ∈ (rotation.order slots).take bound, rotation.Before served slot :=
    fun served hserved => hcross served hserved slot hmem
  have hlength : ((rotation.order slots).take bound).length = bound := by
    have hpos := List.length_pos_of_mem hmem
    rw [List.length_drop] at hpos
    rw [List.length_take]
    omega
  refine ⟨hlength, hbefore, fun other hother => ?_⟩
  -- The last one served decides where the cursor goes.
  obtain ⟨front, last, hround'⟩ : ∃ front last,
      (rotation.order slots).take bound = front ++ [last] := by
    have hne : (rotation.order slots).take bound ≠ [] := List.length_pos_iff.mp (by omega)
    exact ⟨_, _, (List.dropLast_append_getLast hne).symm⟩
  rw [hround'] at hround hbefore hother ⊢
  rw [foldl_resumeAfter] at hother
  have hlast := hbefore last (List.mem_append_right _ (List.mem_singleton_self last))
  refine ⟨before_of_resumeAfter hlast hother, fun hserved => ?_⟩
  refine not_before_resumeAfter hlast ?_ hother
  rcases List.mem_append.mp hserved with hfront | heq
  · exact Or.inr ((List.pairwise_append.mp hround).2.2 other hfront last
      (List.mem_singleton_self last))
  · exact Or.inl (List.mem_singleton.mp heq)

end Turnwise.Rotation
