import Turnwise.Event
import Turnwise.Identity

/-!
# Streams

The bounded queue between a generation, which holds the sink, and its consumer, who holds the
handle. A stream keeps every event that was ever put on it and the number that its consumer has
taken; what lies between is buffered and takes up room.

A chunk is accepted only while two places are free. So the terminal event, which needs one, always
fits, and a slow consumer loses text but never the end of the stream.
-/

namespace Turnwise

/-- What became of a chunk. -/
inductive ChunkDelivery where
  | sent
  /-- Only the place for the terminal event is left. -/
  | full
  /-- The consumer has dropped the handle. -/
  | closed
  deriving DecidableEq, Repr

/-- A generation's output, from both ends. -/
structure Stream where
  session : SessionId
  /-- How many events fit into the buffer. -/
  capacity : Nat
  /-- Every event ever put on the stream, the oldest first. -/
  log : List StreamEvent := []
  /-- How many of them the consumer has taken. -/
  taken : Nat := 0
  sinkOpen : Bool := true
  handleOpen : Bool := true
  deriving DecidableEq, Repr

namespace Stream

/-- A new stream with room for the given number of events, or for two if that is less. -/
def ofCapacity (session : SessionId) (capacity : Nat) : Stream :=
  { session, capacity := max capacity 2 }

/-- The events that wait for the consumer. -/
def buffered (s : Stream) : List StreamEvent := s.log.drop s.taken

def room (s : Stream) : Nat := s.capacity - s.buffered.length

/-! ### The sink's side -/

def put (s : Stream) (event : StreamEvent) : Stream := { s with log := s.log ++ [event] }

def offer (s : Stream) (text : String) : ChunkDelivery × Stream :=
  if !s.handleOpen then (.closed, s)
  else if s.room < 2 then (.full, s)
  else (.sent, s.put (.chunk text))

/-- Whether an event put on the stream now would reach its consumer. -/
def delivers (s : Stream) : Bool := s.handleOpen && 0 < s.room

/-- Delivers the terminal event, if there is someone to take it, and closes the sink. -/
def finish (s : Stream) (event : StreamEvent) : Stream :=
  { (if s.delivers then s.put event else s) with sinkOpen := false }

def dropSink (s : Stream) : Stream := { s with sinkOpen := false }

/-! ### The consumer's side -/

/-- Takes up to `n` of the events that wait. -/
def take (s : Stream) (n : Nat) : List StreamEvent × Stream :=
  let events := s.buffered.take n
  (events, { s with taken := s.taken + events.length })

def takeAll (s : Stream) : List StreamEvent × Stream := s.take s.buffered.length

/-- Drops the handle. What was not taken is lost. -/
def dropHandle (s : Stream) : Stream := { s with handleOpen := false }

end Stream

/-- Everything that a finished stream delivered. -/
structure Collected where
  session : SessionId
  text : String := ""
  chunks : Nat := 0
  /-- The terminal event, if the stream ended with one. -/
  terminal : Option StreamEvent := none
  deriving DecidableEq, Repr

/-- Sums up events, up to and including the first terminal one. -/
def Collected.add (collected : Collected) : List StreamEvent → Collected
  | [] => collected
  | .chunk text :: rest =>
      { collected with text := collected.text ++ text, chunks := collected.chunks + 1 }.add rest
  | terminal :: _ => { collected with terminal := some terminal }

/-- Sums up the events of a session's stream. -/
def Collected.ofEvents (session : SessionId) (events : List StreamEvent) : Collected :=
  ({ session } : Collected).add events

end Turnwise
