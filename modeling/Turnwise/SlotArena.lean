import Turnwise.Identity

/-!
# Arenas of slots

A fixed number of places, numbered from zero, each vacant or holding a value. The numbers of the
vacant places are kept on a stack: in a new arena the lowest is on top, and a place that is vacated
goes on top, so it is the first to be handed out again.
-/

namespace Turnwise

/-- Places for values of one type, with a stack of the vacant ones. -/
structure SlotArena (α : Type) where
  entries : List (Option α)
  /-- The vacant places, the next one to be handed out first. -/
  free : List Slot
  deriving DecidableEq, Repr

namespace SlotArena

variable {α : Type}

/-- An arena in which every place is vacant. -/
def ofCapacity (capacity : Nat) : SlotArena α where
  entries := List.replicate capacity none
  free := (List.range capacity).map Slot.mk

/-- Occupies the next vacant place with a value that may depend on it; `none` if there is none. -/
def insertWith (arena : SlotArena α) (make : Slot → α) : Option (Slot × SlotArena α) :=
  match arena.free with
  | [] => none
  | slot :: free =>
      some (slot, { entries := arena.entries.set slot.index (some (make slot)), free })

def get? (arena : SlotArena α) (slot : Slot) : Option α := (arena.entries[slot.index]?).join

/-- Vacates a place and gives the value that was there; `none` if there was no value. -/
def remove (arena : SlotArena α) (slot : Slot) : Option (α × SlotArena α) :=
  match arena.get? slot with
  | none => none
  | some value =>
      some (value,
        { entries := arena.entries.set slot.index none, free := slot :: arena.free })

/-- Changes the value in a place, if there is one. -/
def modify (arena : SlotArena α) (slot : Slot) (f : α → α) : SlotArena α :=
  { arena with entries := arena.entries.modify slot.index (Option.map f) }

/-- The occupied places with their values, in the order of the places. -/
def toList (arena : SlotArena α) : List (Slot × α) :=
  arena.entries.zipIdx.filterMap fun (entry, i) => entry.map fun value => (⟨i⟩, value)

/-- Changes every value by a function that may depend on its place. -/
def mapWithSlot (arena : SlotArena α) (f : Slot → α → α) : SlotArena α :=
  { arena with entries := arena.entries.mapIdx fun i entry => entry.map (f ⟨i⟩) }

/-- The occupied places, in increasing order. -/
def slots (arena : SlotArena α) : List Slot := arena.toList.map Prod.fst

def capacity (arena : SlotArena α) : Nat := arena.entries.length

def size (arena : SlotArena α) : Nat := arena.entries.length - arena.free.length

def isEmpty (arena : SlotArena α) : Bool := arena.size == 0

end SlotArena

end Turnwise
