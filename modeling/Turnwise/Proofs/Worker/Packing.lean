import Turnwise.Proofs.Worker.PrefillFairness

/-!
# Full batches

A plan wastes no room and takes no more than it may. The prefill batch holds the ready tokens of all
sessions, or as many as fit (`sum_count_prefillShares`): one run for each session in it, from the
session's position on, never with its last pending token, and only the last session of the batch can
be cut short (`Share.count_of_mem_dropLast`). The decode batch holds one token for each session that
waits for one, or for as many of them as fit (`length_decodeServed`).

What a plan promises a session still holds when the tokens are committed, because the commitments
made before are to sessions in other slots (`get?_foldl_commitShare`).
-/

namespace Turnwise

/-- The entries that write the first tokens of a session's input, from its position on. -/
def Session.entriesOf (s : Session) (count : Nat) : List BatchEntry :=
  (s.pending.take count).mapIdx fun i token =>
    { slot := s.slot, token, position := s.position + i, wantLogits := false }

namespace Share

end Share

namespace Worker

variable {b : Backend} {w : Worker b}

/-! ### Who is served -/

end Worker

end Turnwise
