import Turnwise.Conversation

/-!
# The program

Runs a conversation whose prompts are the arguments. A variable of the environment names the
configuration file, if there is one.
-/

namespace Turnwise.Program

/-- The variables of the environment, as the system lists them for this process. -/
def environment : IO (List (String × String)) := do
  let bytes ← try IO.FS.readBinFile "/proc/self/environ" catch _ => pure ByteArray.empty
  let entries := (Utf8.decodeFrom none bytes.toList).splitOnP (· == '\x00')
  pure <| entries.filterMap fun entry =>
    match entry.dropWhile (· != '=') with
    | _ :: value => some (String.ofList (entry.takeWhile (· != '=')), String.ofList value)
    | [] => none

/-- The configuration file at a path, which may lack the ending of the file's name. -/
def readFile (path : String) : IO ConfigFile := do
  for candidate in [path, path ++ ".yaml", path ++ ".yml"] do
    try return .text (← IO.FS.readFile candidate) catch _ => pure ()
  return .unreadable .missing

def run (prompts : List String) : IO UInt32 := do
  let file ← (← IO.getEnv "SEQLOOP_CONFIG").mapM readFile
  let transcript := Conversation.run prompts file (← environment)
  IO.print transcript.output
  if let some line := transcript.errorLine then IO.eprintln line
  return transcript.exitCode

end Turnwise.Program

def main (args : List String) : IO UInt32 := Turnwise.Program.run args
