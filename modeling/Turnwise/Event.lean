/-!
# Events on a stream

What a generation tells its consumer: pieces of text, and at the end
exactly one terminal event that says why it stopped.
-/

namespace Turnwise

/-- Why a generation stopped without an error. -/
inductive FinishReason where
  /-- The budget of new tokens is used up. -/
  | length
  | endOfGeneration
  /-- The worker saw a request to cancel. -/
  | cancelled
  /-- The consumer fell behind or went away. -/
  | sinkUnavailable
  | sessionEnded
  | shutdown
  deriving DecidableEq, Repr, Inhabited

namespace FinishReason

/-- The stable name of a reason, used in messages, metrics and JSON. -/
def label : FinishReason → String
  | length => "length"
  | endOfGeneration => "end_of_generation"
  | cancelled => "cancelled"
  | sinkUnavailable => "sink_unavailable"
  | sessionEnded => "session_ended"
  | shutdown => "shutdown"

def all : List FinishReason :=
  [length, endOfGeneration, cancelled, sinkUnavailable, sessionEnded, shutdown]

def ofLabel? (name : String) : Option FinishReason :=
  all.find? fun reason => reason.label == name

end FinishReason

/-- One event on a generation's stream. -/
inductive StreamEvent where
  /-- Text that the generation has completed since the last chunk. -/
  | chunk (text : String)
  | done (reason : FinishReason)
  | error (cause : String)
  deriving DecidableEq, Repr, Inhabited

def StreamEvent.isTerminal : StreamEvent → Bool
  | chunk _ => false
  | done _ | error _ => true

end Turnwise
