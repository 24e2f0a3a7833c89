import Turnwise.Event
import Turnwise.Json.Reader
import Turnwise.Status

/-!
# The JSON form of the protocol types

The JSON form of the types that travel between callers, the router and
the workers: stream events, finish reasons, session phases, snapshots and
worker statuses.

Each type has a writer (`toJson`) and a reader (`ofJson?`). The writers emit
fields in the order in which the types declare them. The readers take fields in
any order, skip unknown ones, and refuse repeated and missing ones; they also
take an array that holds exactly the fields in order. Integers are refused when
they exceed the width that the protocol gives them.
-/

namespace Turnwise

namespace Json

/-! ### Shapes that several types share -/

/-- The number of values of a 32-bit unsigned integer. -/
def word32 : Nat := UInt32.size

/-- The number of values of a 64-bit unsigned integer. -/
def word64 : Nat := UInt64.size

/-- An unsigned integer literal below a bound. -/
def naturalBelow? (bound : Nat) : Json → Option Nat
  | natural n => if n < bound then some n else none
  | _ => none

/-- The name of a variant without content: a string, or an object whose only field has that name and
the value `null`. -/
def variantName? : Json → Option String
  | string name => name
  | object [(name, null)] => name
  | _ => none

/-- The values of the named fields, in the order of the names. An object must hold each name exactly
once and may hold others; an array must hold as many items as there are names. -/
def recordFields? (names : List String) : Json → Option (List Json)
  | array items => if items.length = names.length then some items else none
  | object fields =>
      if fields.all fun field => field.1.isSome then
        names.mapM fun name =>
          match fields.filter fun field => field.1 == some name with
          | [(_, value)] => some value
          | _ => none
      else none
  | _ => none

end Json

open Json (word32 word64 naturalBelow?)

/-! ### Reasons and phases -/

/-- A finish reason is written as its label. -/
def FinishReason.toJson (reason : FinishReason) : Json := .text reason.label

def FinishReason.ofJson? (document : Json) : Option FinishReason :=
  document.variantName?.bind FinishReason.ofLabel?

/-- A phase is written as its label. -/
def SessionPhase.toJson (phase : SessionPhase) : Json := .text phase.label

def SessionPhase.ofJson? (document : Json) : Option SessionPhase :=
  document.variantName?.bind SessionPhase.ofLabel?

/-! ### Stream events -/

/-- An event is written as its kind beside its content. -/
def StreamEvent.toJson : StreamEvent → Json
  | chunk text => .record [("type", .text "chunk"), ("data", .text text)]
  | done reason => .record [("type", .text "done"), ("data", reason.toJson)]
  | error cause => .record [("type", .text "error"), ("data", .text cause)]

/-- Whether an object names one field before it names another. -/
def Json.namesFirst (first second : String) : Json → Bool
  | object fields =>
      let names := fields.map (·.1)
      (names.find? fun name => name == some first || name == some second) == some (some first)
  | _ => false

/-- A variant whose content is an empty object, as one whose content is `null`. -/
def Json.withoutContent : Json → Json
  | object [(name, object [])] => object [(name, null)]
  | document => document

/-- Reads the content of an event of the given kind. -/
def StreamEvent.ofContent? (kind : String) (content : Json) : Option StreamEvent :=
  match kind, content with
  | "chunk", .string (some text) => some (chunk text)
  | "done", content => (FinishReason.ofJson? content).map done
  | "error", .string (some cause) => some (error cause)
  | _, _ => none

/-- Reads an event. A content that stands in front of its kind is read with more lenience: an empty
object there is no content of a variant. -/
def StreamEvent.ofJson? (document : Json) : Option StreamEvent := do
  match ← document.recordFields? ["type", "data"] with
  | [kind, content] =>
    let content := if document.namesFirst "data" "type" then content.withoutContent else content
    StreamEvent.ofContent? (← kind.variantName?) content
  | _ => none

/-! ### Snapshots -/

/-- The fields of a snapshot, in the order of its written form. -/
def SessionSnapshot.fieldNames : List String :=
  ["session_id", "worker_id", "seq_slot", "position", "pending_tokens", "resident_tokens", "phase",
    "sampler_draws"]

def SessionSnapshot.toJson (snapshot : SessionSnapshot) : Json :=
  .record (SessionSnapshot.fieldNames.zip
    [.natural snapshot.session.number, .natural snapshot.worker.number,
      .natural snapshot.slot.index, .natural snapshot.position, .natural snapshot.pendingTokens,
      .natural snapshot.residentTokens, snapshot.phase.toJson, .natural snapshot.samplerDraws])

def SessionSnapshot.ofJson? (document : Json) : Option SessionSnapshot := do
  match ← document.recordFields? SessionSnapshot.fieldNames with
  | [session, worker, slot, position, pending, resident, phase, draws] =>
      some
        { session := ⟨← session.naturalBelow? word64⟩
          worker := ⟨← worker.naturalBelow? word64⟩
          slot := ⟨← slot.naturalBelow? word32⟩
          position := ← position.naturalBelow? word32
          pendingTokens := ← pending.naturalBelow? word64
          residentTokens := ← resident.naturalBelow? word64
          phase := ← SessionPhase.ofJson? phase
          samplerDraws := ← draws.naturalBelow? word64 }
  | _ => none

/-! ### Worker statuses -/

/-- The fields of a worker status, in the order of its written form. -/
def WorkerStatus.fieldNames : List String :=
  ["worker_id", "sessions", "generating", "capacity", "ticks"]

def WorkerStatus.toJson (status : WorkerStatus) : Json :=
  .record (WorkerStatus.fieldNames.zip
    [.natural status.worker.number, .natural status.sessions, .natural status.generating,
      .natural status.capacity, .natural status.ticks])

def WorkerStatus.ofJson? (document : Json) : Option WorkerStatus := do
  match ← document.recordFields? WorkerStatus.fieldNames with
  | [worker, sessions, generating, capacity, ticks] =>
      some
        { worker := ⟨← worker.naturalBelow? word64⟩
          sessions := ← sessions.naturalBelow? word64
          generating := ← generating.naturalBelow? word64
          capacity := ← capacity.naturalBelow? word64
          ticks := ← ticks.naturalBelow? word64 }
  | _ => none

/-! ### Texts -/

def StreamEvent.parse? (text : String) : Option StreamEvent :=
  (Json.parse? text).bind StreamEvent.ofJson?

def FinishReason.parse? (text : String) : Option FinishReason :=
  (Json.parse? text).bind FinishReason.ofJson?

def SessionPhase.parse? (text : String) : Option SessionPhase :=
  (Json.parse? text).bind SessionPhase.ofJson?

def SessionSnapshot.parse? (text : String) : Option SessionSnapshot :=
  (Json.parse? text).bind SessionSnapshot.ofJson?

def WorkerStatus.parse? (text : String) : Option WorkerStatus :=
  (Json.parse? text).bind WorkerStatus.ofJson?

end Turnwise
