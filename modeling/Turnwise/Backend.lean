import Turnwise.Batch

/-!
# Backends

What the engine needs of a model: tokens for texts and back, an execution context with one row of
tokens per slot, and a call that writes a batch into a context and returns logits.

A backend is a record of functions, so everything above it is stated for all backends. The call
returns a context whether or not it succeeds, because nothing stops a backend from writing before it
fails. A backend that remembers something between calls keeps it in its contexts.
-/

namespace Turnwise

/-- The capabilities of a loaded model. -/
structure Backend where
  /-- The state of one worker's rows. -/
  Context : Type
  name : String
  /-- The length of every row of logits. -/
  vocabularySize : Nat
  tokenize : String → Except Error (List Token)
  detokenize : List Token → Except Error String
  isEndOfGeneration : Token → Bool
  /-- A context with the given number of rows. -/
  newContext : Nat → Except Error Context
  /-- The number of rows of a context. -/
  slotCount : Context → Nat
  /-- The number of tokens in a row. -/
  residentLength : Context → Slot → Nat
  removeSlot : Context → Slot → Context
  /-- Writes every entry of a batch and returns a row of logits for each entry that asks for one, in
  the order of the entries. -/
  compute : Context → Batch → Context × Except Error (List Logits)

end Turnwise
