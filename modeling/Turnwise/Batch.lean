import Turnwise.Error
import Turnwise.Sampler

/-!
# Batches

The tokens that one call of the model writes, in order, and the sessions that own the logits it
returns. A batch may mix the rows of many sessions. Next to its entries it carries a list of owners:
the n-th row of logits belongs to the n-th owner.
-/

namespace Turnwise

/-- One token to be written. -/
structure BatchEntry where
  slot : Slot
  token : Token
  /-- The place of the token in its row, with the bound of `Session.position`. -/
  position : Nat
  wantLogits : Bool
  deriving DecidableEq, Repr

/-- A bounded list of entries, with the owners of the logits they ask for. -/
structure Batch where
  capacity : Nat
  entries : List BatchEntry := []
  owners : List SessionId := []
  deriving DecidableEq, Repr

namespace Batch

def ofCapacity (capacity : Nat) : Batch := { capacity }

/-- Adds an entry at the end; refused if the batch is full. -/
def push (batch : Batch) (entry : BatchEntry) : Batch × Except Error Unit :=
  if batch.capacity ≤ batch.entries.length then
    (batch, .error (.internal s!"batch capacity {batch.capacity} exceeded"))
  else ({ batch with entries := batch.entries ++ [entry] }, .ok ())

/-- Adds a token that is only to be written. -/
def addInput (batch : Batch) (slot : Slot) (token : Token) (position : Nat) :
    Batch × Except Error Unit :=
  batch.push { slot, token, position, wantLogits := false }

/-- Adds a token whose logits belong to a session. Its owner follows once the entry is in. -/
def addForLogits (batch : Batch) (owner : SessionId) (slot : Slot) (token : Token)
    (position : Nat) : Batch × Except Error Unit :=
  match batch.push { slot, token, position, wantLogits := true } with
  | (batch, .ok ()) => ({ batch with owners := batch.owners ++ [owner] }, .ok ())
  | (batch, .error e) => (batch, .error e)

/-- Adds a token that is only to be written, for a caller that gives up if it does not fit. -/
def pushInput (batch : Batch) (slot : Slot) (token : Token) (position : Nat) :
    Except Error Batch :=
  let (batch, result) := batch.addInput slot token position
  result.map fun () => batch

/-- Adds a token whose logits belong to a session, for a caller that gives up if it does not fit. -/
def pushForLogits (batch : Batch) (owner : SessionId) (slot : Slot) (token : Token)
    (position : Nat) : Except Error Batch :=
  let (batch, result) := batch.addForLogits owner slot token position
  result.map fun () => batch

def size (batch : Batch) : Nat := batch.entries.length

def isEmpty (batch : Batch) : Bool := batch.entries.isEmpty

def remaining (batch : Batch) : Nat := batch.capacity - batch.entries.length

/-- Pairs the rows that the model returned with their owners; refused unless there is exactly one
row for each. -/
def assignRows (batch : Batch) (rows : List Logits) : Except Error (List (SessionId × Logits)) :=
  if rows.length = batch.owners.length then .ok (batch.owners.zip rows)
  else
    .error <| .computeFailure
      s!"model returned {rows.length} logit rows for {batch.owners.length} requested"

end Batch

end Turnwise
