import Turnwise.Identity

/-!
# Causes of failure

Everything that can go wrong in the engine, by cause, with the text
that callers see.

The causes divide in two. `Error.isRoutingFailure` holds of those that arise
while a worker is picked or reached; only these count against a worker's
health. The others are answers of a worker that was reached.
-/

namespace Turnwise

/-- The causes for which a request is refused or a generation fails. -/
inductive Error where
  /-- A configuration value is missing, malformed or out of range. -/
  | config (detail : String)
  /-- A YAML text does not parse, or a value in it has the wrong shape. -/
  | yaml (detail : String)
  /-- A file could not be read. -/
  | io (detail : String)
  /-- The session is not known where it was looked for. -/
  | unknownSession (session : SessionId)
  /-- The worker's queue is closed or its thread is gone. -/
  | workerUnavailable (detail : String)
  | workerAtCapacity (worker : WorkerId) (capacity : Nat)
  | queueFull (detail : String)
  | timeout (detail : String)
  /-- The model could not run a batch. -/
  | computeFailure (detail : String)
  /-- Text could not be turned into tokens, or tokens into text. -/
  | tokenization (detail : String)
  | sampling (detail : String)
  | invalidInput (detail : String)
  | internal (detail : String)
  deriving DecidableEq, Repr, Inhabited

namespace Error

/-- The text of an error, as acknowledgements and streams carry it. -/
def message : Error → String
  | config detail => s!"Configuration error: {detail}"
  | yaml detail => s!"YAML error: {detail}"
  | io detail => s!"I/O error: {detail}"
  | unknownSession session => s!"Unknown session: {session}"
  | workerUnavailable detail => s!"Worker unavailable: {detail}"
  | workerAtCapacity worker capacity => s!"Worker {worker} at capacity ({capacity} sessions)"
  | queueFull detail => s!"Queue full: {detail}"
  | timeout detail => s!"Operation timed out: {detail}"
  | computeFailure detail => s!"Compute failure: {detail}"
  | tokenization detail => s!"Tokenization error: {detail}"
  | sampling detail => s!"Sampling error: {detail}"
  | invalidInput detail => s!"Invalid input: {detail}"
  | internal detail => s!"Internal error: {detail}"

/-- Whether the failure happened while a worker was being picked or reached. -/
def isRoutingFailure : Error → Bool
  | workerUnavailable _ | workerAtCapacity _ _ | queueFull _ | timeout _ => true
  | _ => false

end Error

end Turnwise
