import Mathlib.Data.Finset.Card
import Mathlib.Data.Set.Card
import Mathlib.Logic.Function.Basic
import Turnwise.Proofs.SlotArena

/-!
# Arenas as finite maps

Whatever calls are made on an arena, and whatever slots they name, it behaves as a map from the
slots below its capacity to values. The map is known from the calls and their answers alone
(`SlotArena.heldBy`): a value is held from the call that put it in until its slot is vacated, as the
calls in between have changed it.

One call keeps the agreement between an arena and the map (`Agrees.perform`), so every history does
(`agrees_run`). The stack of free slots agrees with the map as well, which is why a new value takes
a vacant slot and is refused only when there is none (`arena_run`).
-/

namespace Turnwise.SlotArena

variable {α : Type} {arena : SlotArena α} {capacity : Nat} {held : Slot → Option α}

/-! ### Changing all values -/

theorem get?_mapWithSlot (f : Slot → α → α) (slot : Slot) :
    (arena.mapWithSlot f).get? slot = (arena.get? slot).map (f slot) := by
  rw [get?, mapWithSlot, get?, List.getElem?_mapIdx]
  rcases arena.entries[slot.index]? with _ | _ | value <;> rfl

theorem WellFormed.mapWithSlot (wf : arena.WellFormed) (f : Slot → α → α) :
    (arena.mapWithSlot f).WellFormed where
  nodup := wf.nodup
  mem_free slot := by
    have hlength : (arena.mapWithSlot f).entries.length = arena.entries.length :=
      List.length_mapIdx
    rw [get?_mapWithSlot, hlength, Option.map_eq_none_iff]
    exact wf.mem_free slot

/-! ### Calls -/

/-- A call on an arena. -/
inductive Call (α : Type) where
  | insert (make : Slot → α)
  | remove (slot : Slot)
  | get (slot : Slot)
  /-- Looks a value up in order to change it. -/
  | change (slot : Slot) (f : α → α)
  | list
  /-- Lists the values in order to change them. -/
  | changeAll (f : Slot → α → α)

/-- What a call gives. -/
inductive Answer (α : Type) where
  | place (slot? : Option Slot)
  | value (value? : Option α)
  | entries (entries : List (Slot × α))

namespace Call

def perform (call : Call α) (arena : SlotArena α) : Answer α × SlotArena α :=
  match call with
  | insert make =>
    match arena.insertWith make with
    | some (slot, arena) => (.place (some slot), arena)
    | none => (.place none, arena)
  | remove slot =>
    match arena.remove slot with
    | some (value, arena) => (.value (some value), arena)
    | none => (.value none, arena)
  | get slot => (.value (arena.get? slot), arena)
  | change slot f => (.value (arena.get? slot), arena.modify slot f)
  | list => (.entries arena.toList, arena)
  | changeAll f => (.entries arena.toList, arena.mapWithSlot f)

/-- What is held after a call, given what was held before it and what it gave. -/
def note (held : Slot → Option α) : Call α → Answer α → Slot → Option α
  | insert make, .place (some slot) => Function.update held slot (some (make slot))
  | remove slot, _ => Function.update held slot none
  | change slot f, _ => Function.update held slot ((held slot).map f)
  | changeAll f, _ => fun slot => (held slot).map (f slot)
  | _, _ => held

end Call

/-- The calls so far with their answers. -/
abbrev History (α : Type) := List (Call α × Answer α)

/-- What is held after a history. The arena is not looked at. -/
def heldBy (history : History α) : Slot → Option α :=
  history.foldl (fun held entry => entry.1.note held entry.2) fun _ => none

/-- The calls made one after the other on a new arena: their history, and the arena in the end. -/
def run (capacity : Nat) (calls : List (Call α)) : History α × SlotArena α :=
  calls.foldl (fun (history, arena) call =>
    (history ++ [(call, (call.perform arena).1)], (call.perform arena).2))
    ([], ofCapacity capacity)

/-! ### Agreement -/

/-- The arena holds what the map says, and its stack of free slots is sound. -/
structure Agrees (arena : SlotArena α) (capacity : Nat) (held : Slot → Option α) : Prop where
  wellFormed : arena.WellFormed
  capacity_eq : arena.entries.length = capacity
  get?_eq : arena.get? = held

theorem agrees_ofCapacity (capacity : Nat) :
    Agrees (ofCapacity capacity : SlotArena α) capacity fun _ => none where
  wellFormed := wellFormed_ofCapacity capacity
  capacity_eq := List.length_replicate
  get?_eq := funext fun slot => get?_ofCapacity capacity slot

namespace Agrees

theorem mem_free (h : arena.Agrees capacity held) (slot : Slot) :
    slot ∈ arena.free ↔ slot.index < capacity ∧ held slot = none := by
  rw [h.wellFormed.mem_free, h.capacity_eq, h.get?_eq]

theorem insertWith_eq_none_iff (h : arena.Agrees capacity held) (make : Slot → α) :
    arena.insertWith make = none ↔ ∀ slot : Slot, slot.index < capacity → held slot ≠ none := by
  have hfree : arena.insertWith make = none ↔ arena.free = [] := by
    unfold insertWith
    split <;> simp [*]
  rw [hfree, List.eq_nil_iff_forall_not_mem]
  refine forall_congr' fun slot => ?_
  rw [h.mem_free, not_and]

/-- A new value takes a vacant slot, and nothing else changes. -/
theorem insertWith (h : arena.Agrees capacity held) {make : Slot → α} {slot : Slot}
    {arena' : SlotArena α} (hinsert : arena.insertWith make = some (slot, arena')) :
    slot.index < capacity ∧ held slot = none ∧
      arena'.Agrees capacity (Function.update held slot (some (make slot))) := by
  obtain ⟨hvacant, hget⟩ := h.wellFormed.get?_insertWith hinsert
  obtain ⟨free, hfree, -⟩ := insertWith_eq_some hinsert
  have hmem : slot ∈ arena.free := by
    rw [hfree]
    exact List.mem_cons_self
  refine ⟨((h.mem_free slot).mp hmem).1, h.get?_eq ▸ hvacant, h.wellFormed.insertWith hinsert,
    (length_entries_insertWith hinsert).trans h.capacity_eq, ?_⟩
  funext slot'
  rw [hget, Function.update_apply, h.get?_eq]

theorem remove_of_vacant (h : arena.Agrees capacity held) {slot : Slot} (hs : held slot = none) :
    arena.remove slot = none := by
  rw [remove, h.get?_eq, hs]

theorem erase (h : arena.Agrees capacity held) (slot : Slot) :
    (arena.erase slot).Agrees capacity (Function.update held slot none) where
  wellFormed := h.wellFormed.erase slot
  capacity_eq := (length_entries_erase slot).trans h.capacity_eq
  get?_eq := by
    funext slot'
    rw [get?_erase, Function.update_apply, h.get?_eq]

/-- The value that is taken out is the one held, and nothing else changes. -/
theorem remove_of_held (h : arena.Agrees capacity held) {slot : Slot} {value : α}
    (hs : held slot = some value) :
    ∃ arena', arena.remove slot = some (value, arena') ∧
      arena'.Agrees capacity (Function.update held slot none) := by
  have hremove : arena.remove slot = some (value, arena.erase slot) := by
    rw [← h.get?_eq] at hs
    rw [erase_of_get?_eq_some hs, remove, hs]
  exact ⟨_, hremove, h.erase slot⟩

theorem modify (h : arena.Agrees capacity held) (slot : Slot) (f : α → α) :
    (arena.modify slot f).Agrees capacity (Function.update held slot ((held slot).map f)) where
  wellFormed := h.wellFormed.modify slot f
  capacity_eq := (length_entries_modify slot f).trans h.capacity_eq
  get?_eq := by
    funext slot'
    rw [get?_modify, Function.update_apply, h.get?_eq]
    split_ifs with heq
    · rw [heq]
    · rfl

theorem mapWithSlot (h : arena.Agrees capacity held) (f : Slot → α → α) :
    (arena.mapWithSlot f).Agrees capacity fun slot => (held slot).map (f slot) where
  wellFormed := h.wellFormed.mapWithSlot f
  capacity_eq := List.length_mapIdx.trans h.capacity_eq
  get?_eq := by
    funext slot
    rw [get?_mapWithSlot, h.get?_eq]

/-- **One call** keeps the agreement. -/
theorem perform (h : arena.Agrees capacity held) (call : Call α) :
    (call.perform arena).2.Agrees capacity (call.note held (call.perform arena).1) := by
  cases call with
  | insert make =>
    simp only [Call.perform]
    cases hinsert : arena.insertWith make with
    | none => exact h
    | some result => exact (h.insertWith hinsert).2.2
  | remove slot =>
    have hsame : ((Call.remove slot).perform arena).2 = arena.erase slot := by
      rw [Call.perform, SlotArena.erase]
      cases arena.remove slot <;> rfl
    rw [hsame]
    exact h.erase slot
  | get slot => exact h
  | change slot f => exact h.modify slot f
  | list => exact h
  | changeAll f => exact h.mapWithSlot f

/-- The occupied slots are counted by what is left of the stack of free ones. -/
theorem size_eq (h : arena.Agrees capacity held) :
    arena.free.length ≤ arena.entries.length ∧
      arena.size = {slot | (held slot).isSome}.ncard := by
  have hlength := h.wellFormed.length_slots_add_free
  have hoccupied : {slot | (held slot).isSome} = (arena.slots.toFinset : Set Slot) := by
    ext slot
    simp [mem_slots, h.get?_eq, Option.isSome_iff_exists]
  rw [hoccupied, Set.ncard_coe_finset, List.toFinset_card_of_nodup slots_nodup, size]
  omega

end Agrees

/-! ### Histories -/

theorem run_concat (capacity : Nat) (calls : List (Call α)) (call : Call α) :
    run capacity (calls ++ [call]) =
      ((run capacity calls).1 ++ [(call, (call.perform (run capacity calls).2).1)],
        (call.perform (run capacity calls).2).2) := by
  simp [run]

theorem heldBy_concat (history : History α) (call : Call α) (answer : Answer α) :
    heldBy (history ++ [(call, answer)]) = call.note (heldBy history) answer := by
  simp [heldBy]

/-- Every history keeps the agreement. The induction is on the last call. -/
theorem agrees_run (capacity : Nat) (calls : List (Call α)) :
    (run capacity calls).2.Agrees capacity (heldBy (run capacity calls).1) := by
  induction calls using List.reverseRecOn with
  | nil => exact agrees_ofCapacity capacity
  | append_singleton calls call ih =>
    rw [run_concat, heldBy_concat]
    exact ih.perform call

/-- **An arena is a finite map.** After any calls on a new arena, with any slots for arguments: the
stack of free slots has no slot twice and has exactly the vacant ones, so the size is the number of
the occupied ones. A new value is refused just if every slot is occupied; else it takes a slot that
was vacant, is made for it, and no other slot changes. Taking a value out of a slot that is vacant
or does not exist gives nothing and changes nothing; otherwise it gives the value and vacates this
slot alone. Looking up and listing, in increasing order, show the values put in, as they were
changed since, and not taken out. -/
theorem arena_run (capacity : Nat) (calls : List (Call α)) :
    let arena := (run capacity calls).2
    let held := heldBy (run capacity calls).1
    (arena.free.Nodup ∧ ∀ slot, slot ∈ arena.free ↔ slot.index < capacity ∧ held slot = none) ∧
    (arena.capacity = capacity ∧ arena.free.length ≤ arena.entries.length ∧
      arena.size = {slot | (held slot).isSome}.ncard) ∧
    (∀ make, (arena.insertWith make = none ↔
        ∀ slot : Slot, slot.index < capacity → held slot ≠ none) ∧
      ∀ slot arena', arena.insertWith make = some (slot, arena') →
        slot.index < capacity ∧ held slot = none ∧
          arena'.get? = Function.update held slot (some (make slot))) ∧
    (∀ slot, (held slot = none → (Call.remove slot).perform arena = (.value none, arena)) ∧
      ∀ value, held slot = some value → ∃ arena',
        (Call.remove slot).perform arena = (.value (some value), arena') ∧
          arena'.get? = Function.update held slot none) ∧
    arena.get? = held ∧
    arena.toList.Pairwise (fun x y => x.1.index < y.1.index) ∧
    ∀ slot value, (slot, value) ∈ arena.toList ↔ held slot = some value := by
  intro arena held
  have h : arena.Agrees capacity held := agrees_run capacity calls
  refine ⟨⟨h.wellFormed.nodup, h.mem_free⟩, ⟨h.capacity_eq, h.size_eq⟩, fun make => ⟨?_, ?_⟩,
    fun slot => ⟨?_, ?_⟩, h.get?_eq, ?_, ?_⟩
  · exact h.insertWith_eq_none_iff make
  · intro slot arena' hinsert
    obtain ⟨hplace, hvacant, hagrees⟩ := h.insertWith hinsert
    exact ⟨hplace, hvacant, hagrees.get?_eq⟩
  · intro hvacant
    rw [Call.perform, h.remove_of_vacant hvacant]
  · intro value hvalue
    obtain ⟨arena', hremove, hagrees⟩ := h.remove_of_held hvalue
    refine ⟨arena', ?_, hagrees.get?_eq⟩
    rw [Call.perform, hremove]
  · have hslots : arena.slots.Pairwise fun x y => x.index < y.index := slots_pairwise
    rw [slots, List.pairwise_map] at hslots
    exact hslots
  · intro slot value
    rw [mem_toList, h.get?_eq]

end Turnwise.SlotArena
