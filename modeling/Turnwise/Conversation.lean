import Turnwise.ByteModel
import Turnwise.Config.Layers
import Turnwise.Engine
import Turnwise.Wire

/-!
# A conversation

The program's run: one session of an engine on the byte-level model, to which the prompts are fed
one by one. Each prompt is echoed, the reply follows, and the view of the session closes the
transcript. The first failure ends the run; what was written before it stays.
-/

namespace Turnwise

/-- What a run has written so far, and why it ended early, if it did. -/
structure Transcript where
  output : String := ""
  failure : Option String := none
  deriving DecidableEq, Repr, Inhabited

namespace Transcript

def write (t : Transcript) (text : String) : Transcript := { t with output := t.output ++ text }

def fail (t : Transcript) (failure : String) : Transcript := { t with failure := some failure }

/-- The first line that a failed run reports. -/
def errorLine (t : Transcript) : Option String := t.failure.map ("Error: " ++ ·)

def exitCode (t : Transcript) : UInt32 := if t.failure.isSome then 1 else 0

end Transcript

namespace Conversation

/-- The prompts of a run that is given none. -/
def defaultPrompts : List String := ["Hello there.", " Tell me more."]

/-- How many tokens a reply has at most. -/
def replyLength : Nat := 48

/-- The model: it ends a generation once a session holds 96 tokens. -/
def model : Backend := ByteModel.backend { endAfter := some 96 }

/-- Writes what a finished stream delivered. -/
def writeReply (t : Transcript) (reply : Collected) : Transcript :=
  let t := t.write reply.text
  match reply.terminal with
  | some (.error cause) => t.fail s!"generation failed: {cause}"
  | some (.done reason) => t.write s!"\n[{reason.label}]\n"
  | _ => t

/-- Feeds one prompt to a session and writes the reply. -/
def turn (session : SessionId) (t : Transcript) (engine : Engine model) (prompt : String) :
    Transcript × Engine model :=
  match engine.appendInput session prompt with
  | (.error e, engine) => (t.fail e.message, engine)
  | (.ok _, engine) =>
    let t := t.write s!"> {prompt}\n"
    match engine.generate session replyLength with
    | (.error e, engine) => (t.fail e.message, engine)
    | (.ok (index, stream), engine) =>
      let (reply, engine) := engine.collect session index stream
      (writeReply t reply, engine)

/-- Feeds the prompts one after the other, up to the first failure. -/
def turns (session : SessionId) (t : Transcript) (engine : Engine model) :
    List String → Transcript × Engine model
  | [] => (t, engine)
  | prompt :: rest =>
    match turn session t engine prompt with
    | (t, engine) => if t.failure.isSome then (t, engine) else turns session t engine rest

/-- Writes the view of the session, ends it and stops the engine. -/
def finish (session : SessionId) (t : Transcript) (engine : Engine model) : Transcript :=
  match engine.snapshot session with
  | (.error _, _) => t.fail "failed to read session snapshot"
  | (.ok view, engine) =>
    let t := t.write (view.toJson.pretty ++ "\n")
    match engine.endSession session with
    | (.error e, _) => t.fail e.message
    | (.ok _, engine) =>
      match engine.shutdown with
      | (.error _, _) => t.fail "engine shutdown failed"
      | (.ok _, _) => t

/-- The run under a configuration. -/
def runWith (config : Config) (prompts : List String) : Transcript :=
  let prompts := if prompts.isEmpty then defaultPrompts else prompts
  match Engine.start model config with
  | .error _ => ({} : Transcript).fail "failed to start engine"
  | .ok engine =>
    match engine.createSession with
    | (.error _, _) => ({} : Transcript).fail "failed to create session"
    | (.ok session, engine) =>
      match turns session {} engine prompts with
      | (t, engine) => if t.failure.isSome then t else finish session t engine

/-- The run under the configuration that a file and the environment make up. -/
def run (prompts : List String) (file : Option ConfigFile)
    (environment : List (String × String)) : Transcript :=
  match Config.load file environment with
  | .error _ => ({} : Transcript).fail "failed to load configuration"
  | .ok config => runWith config prompts

end Conversation

end Turnwise
