import Mathlib.Algebra.BigOperators.Intervals
import Mathlib.Algebra.BigOperators.Pi
import Mathlib.Algebra.BigOperators.Ring.Finset
import Mathlib.Data.List.Nodup
import Mathlib.Tactic.SplitIfs
import Turnwise.SlotArena

/-!
# What an arena holds

`SlotArena.get?` is the view of an arena: the modules above this one know an arena by what it says
of each slot. Each operation has one equation that gives the view after it (`get?_modify`,
`get?_insertWith`, `get?_erase`), and the lists of occupied slots are read off the view as well
(`mem_toList`, `mem_slots`).

An arena keeps its vacant slots twice, as holes among the entries and on the stack of free slots.
`SlotArena.WellFormed` says that the two agree and that no slot is on the stack twice; without it a
slot could be handed out while it is occupied.

Sums over the values of an arena (`SlotArena.total`) are sums over its places (`total_eq_sum`), so a
change in one place changes them by what is in this place (`total_add_amountAt`).
-/

namespace Turnwise

theorem Slot.eq_iff_index_eq {slot slot' : Slot} : slot = slot' ↔ slot.index = slot'.index := by
  cases slot
  cases slot'
  simp

section Lists

variable {α : Type}

theorem sum_map_natCast (l : List α) (f : α → ℕ) :
    (l.map fun item => (f item : ℤ)).sum = (l.map f).sum := by
  rw [Nat.cast_list_sum, List.map_map]
  rfl

theorem sum_map_boole (l : List α) (p : α → Bool) :
    (l.map fun item => if p item then (1 : ℤ) else 0).sum = l.countP p := by
  rw [List.sum_map_ite, List.countP_eq_length_filter]
  simp

end Lists

namespace SlotArena

variable {α : Type} {arena : SlotArena α}

/-! ### Looking up -/

theorem get?_eq_some_iff {slot : Slot} {value : α} :
    arena.get? slot = some value ↔ arena.entries[slot.index]? = some (some value) := by
  rw [get?, Option.join_eq_some_iff]

theorem get?_ofCapacity (capacity : Nat) (slot : Slot) :
    (ofCapacity capacity : SlotArena α).get? slot = none := by
  rw [get?, ofCapacity, List.getElem?_replicate]
  split <;> rfl

/-- A slot beyond the last place is vacant. -/
theorem lt_length_of_get?_eq_some {slot : Slot} {value : α} (h : arena.get? slot = some value) :
    slot.index < arena.entries.length :=
  (List.getElem?_eq_some_iff.mp (get?_eq_some_iff.mp h)).1

theorem mem_toList {slot : Slot} {value : α} :
    (slot, value) ∈ arena.toList ↔ arena.get? slot = some value := by
  rw [get?_eq_some_iff, toList, List.mem_filterMap]
  constructor
  · rintro ⟨⟨entry, i⟩, hmem, h⟩
    obtain ⟨value', rfl, heq⟩ := Option.map_eq_some_iff.mp h
    obtain ⟨rfl, rfl⟩ := Prod.mk.inj heq
    exact List.mem_zipIdx_iff_getElem?.mp hmem
  · intro h
    exact ⟨(some value, slot.index), List.mem_zipIdx_iff_getElem?.mpr h, rfl⟩

theorem mem_slots {slot : Slot} : slot ∈ arena.slots ↔ ∃ value, arena.get? slot = some value := by
  rw [slots, List.mem_map]
  constructor
  · rintro ⟨⟨slot', value⟩, hmem, rfl⟩
    exact ⟨value, mem_toList.mp hmem⟩
  · rintro ⟨value, h⟩
    exact ⟨(slot, value), mem_toList.mpr h, rfl⟩

/-- The occupied slots are listed in increasing order. -/
theorem slots_pairwise : arena.slots.Pairwise (·.index < ·.index) := by
  rw [slots, toList, List.map_filterMap, List.pairwise_filterMap]
  have hidx : (arena.entries.zipIdx.map Prod.snd).Pairwise (· < ·) := by
    rw [List.zipIdx_map_snd]
    exact List.pairwise_lt_range'
  -- Dropping the holes keeps the order of the places.
  refine (List.pairwise_map.mp hidx).imp ?_
  rintro ⟨entry, i⟩ ⟨entry', j⟩ hij slot hslot slot' hslot'
  simp only [Option.map_map, Option.map_eq_some_iff] at hslot hslot'
  obtain ⟨_, _, rfl⟩ := hslot
  obtain ⟨_, _, rfl⟩ := hslot'
  exact hij

theorem slots_nodup : arena.slots.Nodup :=
  slots_pairwise.imp fun h heq => by rw [heq] at h; exact Nat.lt_irrefl _ h

/-! ### Changing a value -/

theorem get?_modify (slot slot' : Slot) (f : α → α) :
    (arena.modify slot f).get? slot' =
      if slot' = slot then (arena.get? slot').map f else arena.get? slot' := by
  rw [get?, modify, get?]
  by_cases h : slot' = slot
  · rw [if_pos h, h, List.getElem?_modify_eq]
    rcases arena.entries[slot.index]? with _ | _ | value <;> rfl
  · rw [if_neg h, List.getElem?_modify_ne _ _ fun heq => h (Slot.eq_iff_index_eq.mpr heq.symm)]

@[simp] theorem get?_modify_self (slot : Slot) (f : α → α) :
    (arena.modify slot f).get? slot = (arena.get? slot).map f := by
  rw [get?_modify, if_pos rfl]

theorem get?_modify_of_ne {slot slot' : Slot} (h : slot' ≠ slot) (f : α → α) :
    (arena.modify slot f).get? slot' = arena.get? slot' := by
  rw [get?_modify, if_neg h]

theorem get?_modify_of_eq_some {slot' : Slot} {value : α} (h : arena.get? slot' = some value)
    (slot : Slot) (f : α → α) :
    (arena.modify slot f).get? slot' = some (if slot' = slot then f value else value) := by
  rw [get?_modify, h]
  split_ifs <;> rfl

theorem get?_modify_eq_none_iff {slot slot' : Slot} {f : α → α} :
    (arena.modify slot f).get? slot' = none ↔ arena.get? slot' = none := by
  rw [get?_modify]
  split_ifs
  · exact Option.map_eq_none_iff
  · exact Iff.rfl

@[simp] theorem free_modify (slot : Slot) (f : α → α) : (arena.modify slot f).free = arena.free :=
  rfl

@[simp] theorem length_entries_modify (slot : Slot) (f : α → α) :
    (arena.modify slot f).entries.length = arena.entries.length :=
  List.length_modify ..

/-! ### Handing out and taking back -/

/-- The arena with a slot vacated, if it was occupied. -/
def erase (arena : SlotArena α) (slot : Slot) : SlotArena α :=
  match arena.remove slot with
  | some (_, arena) => arena
  | none => arena

theorem erase_of_get?_eq_none {slot : Slot} (h : arena.get? slot = none) :
    arena.erase slot = arena := by
  rw [erase, remove, h]

theorem erase_of_get?_eq_some {slot : Slot} {value : α} (h : arena.get? slot = some value) :
    arena.erase slot =
      { entries := arena.entries.set slot.index none, free := slot :: arena.free } := by
  rw [erase, remove, h]

@[simp] theorem length_entries_erase (slot : Slot) :
    (arena.erase slot).entries.length = arena.entries.length := by
  cases h : arena.get? slot with
  | none => rw [erase_of_get?_eq_none h]
  | some value => rw [erase_of_get?_eq_some h, List.length_set]

theorem get?_erase (slot slot' : Slot) :
    (arena.erase slot).get? slot' = if slot' = slot then none else arena.get? slot' := by
  cases h : arena.get? slot with
  | none =>
    rw [erase_of_get?_eq_none h]
    split_ifs with heq
    · rw [heq, h]
    · rfl
  | some value =>
    rw [erase_of_get?_eq_some h, get?, List.getElem?_set]
    by_cases heq : slot' = slot
    · rw [if_pos heq, if_pos (by rw [heq]), if_pos (lt_length_of_get?_eq_some h)]
      rfl
    · rw [if_neg heq, if_neg fun hidx => heq (Slot.eq_iff_index_eq.mpr hidx.symm), get?]

/-- The stack of free slots and the holes among the entries say the same. -/
structure WellFormed (arena : SlotArena α) : Prop where
  nodup : arena.free.Nodup
  mem_free : ∀ slot, slot ∈ arena.free ↔
    slot.index < arena.entries.length ∧ arena.get? slot = none

/-- What it means that a slot was handed out: it was on top of the stack, and nothing but its entry
has changed. -/
theorem insertWith_eq_some {make : Slot → α} {slot : Slot} {arena' : SlotArena α}
    (h : arena.insertWith make = some (slot, arena')) :
    ∃ free, arena.free = slot :: free ∧
      arena' = { entries := arena.entries.set slot.index (some (make slot)), free } := by
  unfold insertWith at h
  split at h
  · cases h
  · rename_i slot' free hfree
    obtain ⟨rfl, rfl⟩ := Prod.mk.inj (Option.some.inj h)
    exact ⟨free, hfree, rfl⟩

/-- A slot that is handed out was vacant, and then holds the new value; the others are as before. -/
theorem WellFormed.get?_insertWith (wf : arena.WellFormed) {make : Slot → α} {slot : Slot}
    {arena' : SlotArena α} (h : arena.insertWith make = some (slot, arena')) :
    arena.get? slot = none ∧
      ∀ slot', arena'.get? slot' = if slot' = slot then some (make slot) else arena.get? slot' := by
  obtain ⟨free, hfree, rfl⟩ := insertWith_eq_some h
  obtain ⟨hlt, hnone⟩ := (wf.mem_free slot).mp (by rw [hfree]; exact List.mem_cons_self)
  refine ⟨hnone, fun slot' => ?_⟩
  rw [get?, List.getElem?_set]
  by_cases heq : slot' = slot
  · rw [if_pos heq, if_pos (by rw [heq]), if_pos hlt]
    rfl
  · rw [if_neg heq, if_neg fun hidx => heq (Slot.eq_iff_index_eq.mpr hidx.symm), get?]

/-- Nobody loses a value to a new one. -/
theorem WellFormed.get?_insertWith_of_eq_some (wf : arena.WellFormed) {make : Slot → α}
    {slot : Slot} {arena' : SlotArena α} (h : arena.insertWith make = some (slot, arena'))
    {slot' : Slot} {value : α} (hvalue : arena.get? slot' = some value) :
    arena'.get? slot' = some value := by
  obtain ⟨hvacant, hget⟩ := wf.get?_insertWith h
  rw [hget, if_neg, hvalue]
  rintro rfl
  exact nomatch hvacant.symm.trans hvalue

theorem length_entries_insertWith {make : Slot → α} {slot : Slot} {arena' : SlotArena α}
    (h : arena.insertWith make = some (slot, arena')) :
    arena'.entries.length = arena.entries.length := by
  obtain ⟨free, _, rfl⟩ := insertWith_eq_some h
  exact List.length_set ..

/-! ### Agreement of the stack and the holes -/

theorem wellFormed_ofCapacity (capacity : Nat) :
    (ofCapacity capacity : SlotArena α).WellFormed where
  nodup := List.nodup_range.map fun i j h => Slot.mk.inj h
  mem_free slot := by
    rw [get?_ofCapacity, ofCapacity, List.mem_map, List.length_replicate]
    constructor
    · rintro ⟨i, hi, rfl⟩
      exact ⟨List.mem_range.mp hi, rfl⟩
    · rintro ⟨hlt, -⟩
      exact ⟨slot.index, List.mem_range.mpr hlt, rfl⟩

theorem WellFormed.modify (wf : arena.WellFormed) (slot : Slot) (f : α → α) :
    (arena.modify slot f).WellFormed where
  nodup := wf.nodup
  mem_free slot' := by
    rw [free_modify, wf.mem_free, length_entries_modify, get?_modify]
    split_ifs <;> simp

theorem WellFormed.insertWith (wf : arena.WellFormed) {make : Slot → α} {slot : Slot}
    {arena' : SlotArena α} (h : arena.insertWith make = some (slot, arena')) :
    arena'.WellFormed := by
  have hget := (wf.get?_insertWith h).2
  have hlen := length_entries_insertWith h
  obtain ⟨free, hfree, rfl⟩ := insertWith_eq_some h
  have hnodup : slot ∉ free ∧ free.Nodup := List.nodup_cons.mp (hfree ▸ wf.nodup)
  refine ⟨hnodup.2, fun slot' => ?_⟩
  -- The top of the stack is the only slot that either side has lost.
  rw [hget, hlen]
  by_cases heq : slot' = slot
  · rw [if_pos heq, heq]
    simp [hnodup.1]
  · rw [if_neg heq, ← wf.mem_free, hfree, List.mem_cons]
    simp [heq]

theorem WellFormed.erase (wf : arena.WellFormed) (slot : Slot) : (arena.erase slot).WellFormed := by
  cases h : arena.get? slot with
  | none =>
    rw [erase_of_get?_eq_none h]
    exact wf
  | some value =>
    -- An occupied slot is not on the stack, so it can be pushed there.
    have hnotin : slot ∉ arena.free := by
      intro hmem
      rw [((wf.mem_free slot).mp hmem).2] at h
      cases h
    constructor
    · rw [erase_of_get?_eq_some h]
      exact List.nodup_cons.mpr ⟨hnotin, wf.nodup⟩
    · intro slot'
      rw [get?_erase, length_entries_erase]
      by_cases heq : slot' = slot
      · rw [if_pos heq, heq, erase_of_get?_eq_some h]
        simp [lt_length_of_get?_eq_some h]
      · rw [if_neg heq, ← wf.mem_free, erase_of_get?_eq_some h, List.mem_cons]
        simp [heq]

/-- Every place is either occupied or free. -/
theorem WellFormed.length_slots_add_free (wf : arena.WellFormed) :
    arena.slots.length + arena.free.length = arena.entries.length := by
  have hoccupied : ∀ slot ∈ arena.slots, slot ∉ arena.free := by
    intro slot hslot hfree
    obtain ⟨value, hvalue⟩ := mem_slots.mp hslot
    exact nomatch ((wf.mem_free slot).mp hfree).2.symm.trans hvalue
  have hnodup : (arena.slots ++ arena.free).Nodup :=
    List.nodup_append'.mpr ⟨slots_nodup, wf.nodup, hoccupied⟩
  have hplaces : ((List.range arena.entries.length).map Slot.mk).Nodup :=
    List.nodup_range.map fun i j h => Slot.mk.inj h
  have hperm : (arena.slots ++ arena.free).Perm
      ((List.range arena.entries.length).map Slot.mk) := by
    refine (List.perm_ext_iff_of_nodup hnodup hplaces).mpr fun slot => ?_
    have hplace : slot ∈ (List.range arena.entries.length).map Slot.mk ↔
        slot.index < arena.entries.length := by
      simp [Slot.eq_iff_index_eq]
    rw [List.mem_append, mem_slots, wf.mem_free, hplace]
    constructor
    · rintro (⟨value, hvalue⟩ | ⟨hlt, -⟩)
      · exact lt_length_of_get?_eq_some hvalue
      · exact hlt
    · intro hlt
      cases hvalue : arena.get? slot with
      | some value => exact .inl ⟨value, rfl⟩
      | none => exact .inr ⟨hlt, rfl⟩
  have hlength := hperm.length_eq
  rwa [List.length_append, List.length_map, List.length_range] at hlength

/-! ### Sums -/

section Sums

variable {β M : Type} [AddCommMonoid M] {arena' : SlotArena β} {f : α → M} {f' : β → M}

/-- The sum of an amount over the values. -/
def total (arena : SlotArena α) (f : α → M) : M := (arena.toList.map fun entry => f entry.2).sum

/-- What a place contributes to a sum. -/
def amountAt (arena : SlotArena α) (f : α → M) (slot : Slot) : M :=
  ((arena.get? slot).map f).getD 0

theorem amountAt_of_get? {slot : Slot} {value : α} (h : arena.get? slot = some value)
    (f : α → M) : arena.amountAt f slot = f value := by
  rw [amountAt, h, Option.map_some, Option.getD_some]

theorem amountAt_of_vacant {slot : Slot} (h : arena.get? slot = none) (f : α → M) :
    arena.amountAt f slot = 0 := by
  rw [amountAt, h, Option.map_none, Option.getD_none]

/-- **A sum over the values is a sum over the places.** -/
theorem total_eq_sum (arena : SlotArena α) (f : α → M) :
    arena.total f = ∑ i ∈ Finset.range arena.entries.length, arena.amountAt f ⟨i⟩ := by
  obtain ⟨entries, free⟩ := arena
  induction entries using List.reverseRecOn with
  | nil => rfl
  | append_singleton entries entry ih =>
    have hfront : ∀ i ∈ Finset.range entries.length,
        (mk (entries ++ [entry]) free).amountAt f ⟨i⟩ = (mk entries free).amountAt f ⟨i⟩ := by
      intro i hi
      rw [amountAt, amountAt, get?, get?, List.getElem?_append_left (Finset.mem_range.mp hi)]
    have hlast : (mk (entries ++ [entry]) free).get? ⟨entries.length⟩ = entry := by
      rw [get?, List.getElem?_concat_length]
      rfl
    have hlist : (mk (entries ++ [entry]) free).toList =
        (mk entries free).toList ++
          (entry.map fun value => (Slot.mk entries.length, value)).toList := by
      unfold toList
      rw [List.zipIdx_append, List.filterMap_append]
      cases entry <;> simp
    rw [total] at ih
    rw [total, hlist, List.map_append, List.sum_append, ih, List.length_append,
      List.length_singleton, Finset.sum_range_succ, Finset.sum_congr rfl hfront, amountAt, hlast]
    cases entry <;> simp

theorem total_congr (hplaces : arena'.entries.length = arena.entries.length)
    (h : ∀ slot, arena'.amountAt f' slot = arena.amountAt f slot) :
    arena'.total f' = arena.total f := by
  rw [total_eq_sum, total_eq_sum, hplaces]
  exact Finset.sum_congr rfl fun i _ => h ⟨i⟩

/-- A change in one place. -/
theorem total_add_amountAt {arena' : SlotArena α} {slot : Slot}
    (hplaces : arena'.entries.length = arena.entries.length)
    (hplace : slot.index < arena.entries.length)
    (h : ∀ slot', slot' ≠ slot → arena'.get? slot' = arena.get? slot') (f : α → M) :
    arena'.total f + arena.amountAt f slot = arena.total f + arena'.amountAt f slot := by
  have hmem : slot.index ∈ Finset.range arena.entries.length := Finset.mem_range.mpr hplace
  have hothers : ∑ i ∈ (Finset.range arena.entries.length).erase slot.index,
      arena'.amountAt f ⟨i⟩ =
        ∑ i ∈ (Finset.range arena.entries.length).erase slot.index, arena.amountAt f ⟨i⟩ := by
    refine Finset.sum_congr rfl fun i hi => ?_
    rw [amountAt, h ⟨i⟩ fun heq => Finset.ne_of_mem_erase hi (congrArg Slot.index heq), amountAt]
  rw [total_eq_sum, total_eq_sum, hplaces, ← Finset.add_sum_erase _ _ hmem,
    ← Finset.add_sum_erase _ (fun i => arena.amountAt f ⟨i⟩) hmem, hothers]
  ac_rfl

theorem total_zero (arena : SlotArena α) : arena.total (fun _ => (0 : M)) = 0 := by
  simp [total]

/-- A sum with one amount in it. -/
theorem total_eq_of_get? (arena : SlotArena α) {slot : Slot} {value : α}
    (hs : arena.get? slot = some value)
    (h : ∀ slot' value', slot' ≠ slot → arena.get? slot' = some value' → f value' = 0) :
    arena.total f = f value := by
  have hplace := Finset.mem_range.mpr (lt_length_of_get?_eq_some hs)
  rw [total_eq_sum, Finset.sum_eq_single_of_mem slot.index hplace]
  · exact amountAt_of_get? hs f
  · intro i _ hi
    cases hvalue : arena.get? ⟨i⟩ with
    | none => exact amountAt_of_vacant hvalue f
    | some value' =>
      rw [amountAt_of_get? hvalue]
      exact h ⟨i⟩ value' (fun heq => hi (congrArg Slot.index heq)) hvalue

theorem total_eq_zero (arena : SlotArena α)
    (h : ∀ slot value, arena.get? slot = some value → f value = 0) : arena.total f = 0 := by
  refine List.sum_eq_zero fun amount hamount => ?_
  obtain ⟨⟨slot, value⟩, hmem, rfl⟩ := List.mem_map.mp hamount
  exact h slot value (mem_toList.mp hmem)

theorem total_apply {ι : Type} (arena : SlotArena α) (f : α → ι → ℤ) (i : ι) :
    arena.total f i = arena.total fun value => f value i := by
  rw [total, total, Pi.list_sum_apply, List.map_map]
  rfl

theorem total_one (arena : SlotArena α) :
    arena.total (fun _ => (1 : ℤ)) = arena.toList.length := by
  simp [total]

theorem total_boole (arena : SlotArena α) (p : α → Bool) :
    arena.total (fun value => if p value then (1 : ℤ) else 0) =
      arena.toList.countP fun entry => p entry.2 :=
  sum_map_boole arena.toList fun entry => p entry.2

theorem total_natCast (arena : SlotArena α) (f : α → ℕ) :
    arena.total (fun value => (f value : ℤ)) = (arena.total f : ℕ) :=
  sum_map_natCast arena.toList fun entry => f entry.2

end Sums

end SlotArena

end Turnwise
