import Turnwise.Identity

/-!
# Rotation over slots

A cursor that decides in which order the slots of a worker are served. The slots at or after the
cursor come first, in increasing order, then those before it. Moving the cursor past the last slot
that was served gives every waiting slot its turn when fewer can be served at once than are waiting.
-/

namespace Turnwise

/-- The index at which the next round begins. -/
structure Rotation where
  next : Nat := 0
  deriving DecidableEq, Repr, Inhabited

namespace Rotation

/-- Puts a slot into an increasing list. -/
def insertSlot (slot : Slot) : List Slot → List Slot
  | [] => [slot]
  | first :: rest =>
      if slot.index ≤ first.index then slot :: first :: rest else first :: insertSlot slot rest

/-- The slots in increasing order. -/
def ascending (slots : List Slot) : List Slot := slots.foldr insertSlot []

/-- The slots in the order in which they are served. Plans of different states are often compared,
and never by sorting again, so the order is known by its lemmas only. -/
@[irreducible]
def order (rotation : Rotation) (slots : List Slot) : List Slot :=
  let sorted := ascending slots
  sorted.dropWhile (·.index < rotation.next) ++ sorted.takeWhile (·.index < rotation.next)

def resumeAt (_ : Rotation) (slot : Slot) : Rotation := ⟨slot.index⟩

def resumeAfter (_ : Rotation) (slot : Slot) : Rotation := ⟨slot.index + 1⟩

end Rotation

end Turnwise
