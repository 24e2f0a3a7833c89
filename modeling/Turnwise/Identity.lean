/-!
# Names of sessions, workers and slots

The names of the three things that the engine keeps apart: a
conversation (`SessionId`), the worker that holds it (`WorkerId`) and the row
of that worker's execution context that it occupies (`Slot`).

The three are numbers underneath, and distinct types, so that a slot is never
passed where a session is meant. Each has a written form (`session-3`,
`worker-0`, `slot-12`), which every message of the engine uses.
-/

namespace Turnwise

/-- A token of the model's vocabulary. -/
abbrev Token := Nat

/-- How many tokens there are at most: a token is a number of 32 bits. -/
def Token.limit : Nat := 0x100000000

/-- The token at a place of the vocabulary. From the limit on, places fold back onto the first
ones. -/
def Token.ofPlace (place : Nat) : Token := place % Token.limit

theorem Token.ofPlace_of_lt {place : Nat} (h : place < Token.limit) :
    Token.ofPlace place = place :=
  Nat.mod_eq_of_lt h

theorem Token.ofPlace_le (place : Nat) : Token.ofPlace place ≤ place := Nat.mod_le place _

/-- The name of one conversation. The router mints these in increasing order and never hands one
out twice. -/
structure SessionId where
  number : Nat
  deriving DecidableEq, Repr, Inhabited

/-- The place of a worker in the engine's pool. -/
structure WorkerId where
  number : Nat
  deriving DecidableEq, Repr, Inhabited

/-- A row of one worker's execution context. -/
structure Slot where
  index : Nat
  deriving DecidableEq, Repr, Inhabited

instance : ToString SessionId where
  toString id := s!"session-{id.number}"

instance : ToString WorkerId where
  toString id := s!"worker-{id.number}"

instance : ToString Slot where
  toString slot := s!"slot-{slot.index}"

end Turnwise
