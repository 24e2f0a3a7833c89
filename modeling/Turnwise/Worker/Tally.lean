import Turnwise.Event

/-!
# Tallies

What a worker counts. A tally starts at zero; the counts of several workers are added up by whoever
reports them. The two gauges may go down as well as up.
-/

namespace Turnwise

/-- The counts of one worker. -/
structure Tally where
  /-- Prefill batches, and the tokens in them. -/
  prefillBatches : Nat := 0
  prefillBatchTokens : Nat := 0
  /-- Decode batches, and the sessions in them. -/
  decodeBatches : Nat := 0
  decodeBatchSequences : Nat := 0
  /-- Calls of the model, and the failed ones among them. -/
  computeCalls : Nat := 0
  computeFailures : Nat := 0
  tokensPrefilled : Nat := 0
  tokensGenerated : Nat := 0
  activeSessions : Int := 0
  activeGenerations : Int := 0
  /-- Generations that ended without an error, by reason. -/
  finished : FinishReason → Nat := fun _ => 0
  /-- Generations that ended with an error. -/
  failed : Nat := 0

namespace Tally

def countFinished (t : Tally) (reason : FinishReason) : Tally :=
  { t with finished := fun r => if r = reason then t.finished r + 1 else t.finished r }

/-- Counts the end of an active generation by its terminal event. -/
def generationEnded (t : Tally) (event : StreamEvent) : Tally :=
  let t := { t with activeGenerations := t.activeGenerations - 1 }
  match event with
  | .done reason => t.countFinished reason
  | .error _ => { t with failed := t.failed + 1 }
  | .chunk _ => t

def prefillBatch (t : Tally) (tokens : Nat) : Tally :=
  { t with
    prefillBatches := t.prefillBatches + 1
    prefillBatchTokens := t.prefillBatchTokens + tokens
    computeCalls := t.computeCalls + 1 }

def decodeBatch (t : Tally) (sequences : Nat) : Tally :=
  { t with
    decodeBatches := t.decodeBatches + 1
    decodeBatchSequences := t.decodeBatchSequences + sequences
    computeCalls := t.computeCalls + 1 }

def computeFailed (t : Tally) : Tally := { t with computeFailures := t.computeFailures + 1 }

end Tally

end Turnwise
