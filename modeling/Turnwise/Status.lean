import Turnwise.Identity

/-!
# Views of sessions and workers

The views that a worker gives of itself: one of a single session
(`SessionSnapshot`) and one of the whole worker (`WorkerStatus`).
-/

namespace Turnwise

/-- What the scheduler will do with a session next. -/
inductive SessionPhase where
  /-- Nothing, until more input or a request to generate arrives. -/
  | idle
  /-- Queued input is being written into the context. -/
  | prefilling
  /-- One token per turn is being produced. -/
  | generating
  deriving DecidableEq, Repr, Inhabited

namespace SessionPhase

def label : SessionPhase → String
  | idle => "idle"
  | prefilling => "prefilling"
  | generating => "generating"

def all : List SessionPhase := [idle, prefilling, generating]

def ofLabel? (name : String) : Option SessionPhase :=
  all.find? fun phase => phase.label == name

end SessionPhase

/-- A session as its worker sees it at one moment. -/
structure SessionSnapshot where
  session : SessionId
  worker : WorkerId
  slot : Slot
  /-- How many tokens of the session were written into the context. -/
  position : Nat
  pendingTokens : Nat
  /-- How many tokens the execution context itself reports for the session's row. -/
  residentTokens : Nat
  phase : SessionPhase
  /-- How many tokens were drawn from the session's sampler. -/
  samplerDraws : Nat
  deriving DecidableEq, Repr

/-- A worker as it sees itself at one moment. -/
structure WorkerStatus where
  worker : WorkerId
  sessions : Nat
  generating : Nat
  capacity : Nat
  ticks : Nat
  deriving DecidableEq, Repr

end Turnwise
