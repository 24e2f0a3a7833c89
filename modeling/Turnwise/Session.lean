import Turnwise.DeltaDecoder
import Turnwise.Sampler
import Turnwise.Status

/-!
# Sessions

What a worker knows of one conversation. The last pending token of a session is never prefilled: it
is the input of the session's next decode step, and every token that is sampled is queued again as
that input. So each token reaches the context exactly once, at the session's position.
-/

namespace Turnwise

/-- The number of a stream in its worker's table. -/
abbrev StreamId := Nat

/-- An active generation. -/
structure Generation where
  /-- How many more tokens may be produced. -/
  budget : Nat
  /-- Set by a request to cancel, observed by the next tick. -/
  cancelRequested : Bool := false
  produced : Nat := 0
  /-- Where the text goes. -/
  stream : StreamId
  decoder : DeltaDecoder := {}
  deriving DecidableEq, Repr

/-- A conversation that is pinned to a worker. -/
structure Session where
  id : SessionId
  slot : Slot
  /-- How many tokens of the session are in the context, which is the place of the next one in its
  row. Places are counted without a bound; as numbers of 32 bits they are the same up to rows of
  `2 ^ 32 - 1` tokens, and it is of these that statements about positions speak. -/
  position : Nat := 0
  /-- The tokens that are not in the context yet, in order. -/
  pending : List Token := []
  sampler : Sampler
  generation : Option Generation := none
  /-- Why input was lost, to be told to the next generation. -/
  inputError : Option String := none
  deriving DecidableEq, Repr

namespace Session

/-- How many tokens prefill may write: all but the last one. -/
def prefillReady (s : Session) : Nat := s.pending.length - 1

/-- Whether a generation is active that may still produce tokens. -/
def isProducing (s : Session) : Bool :=
  match s.generation with
  | some g => !g.cancelRequested && 0 < g.budget
  | none => false

/-- Whether the session takes part in the next decode batch: exactly its decode input is pending. -/
def decodeReady (s : Session) : Bool := s.pending.length == 1 && s.isProducing

/-- What the scheduler will do with the session next. -/
def phase (s : Session) : SessionPhase :=
  if 0 < s.prefillReady then .prefilling
  else if s.generation.isSome then .generating
  else .idle

def enqueue (s : Session) (tokens : List Token) : Session :=
  { s with pending := s.pending ++ tokens }

/-- Records that the first pending tokens were written. -/
def commitPrefill (s : Session) (count : Nat) : Session :=
  { s with pending := s.pending.drop count, position := s.position + count }

def discardPending (s : Session) (count : Nat) : Session :=
  { s with pending := s.pending.drop count }

/-- Records that the decode input was written. -/
def commitDecode (s : Session) : Session :=
  match s.pending with
  | [] => s
  | _ :: rest => { s with pending := rest, position := s.position + 1 }

/-- Raises the flag of the active generation; says whether there was one. -/
def cancel (s : Session) : Bool × Session :=
  match s.generation with
  | some g => (true, { s with generation := some { g with cancelRequested := true } })
  | none => (false, s)

end Session

end Turnwise
