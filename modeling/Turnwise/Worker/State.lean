import Turnwise.Rotation
import Turnwise.Session
import Turnwise.SlotArena
import Turnwise.Stream
import Turnwise.Worker.Tally

/-!
# The state of a worker

A worker owns one execution context and every session that is pinned to it. Sessions live in an
arena at the index of their context row, and an index leads from session ids to slots. Two cursors
say where the next prefill and the next decode begin.

The streams that the worker has opened are part of its state, because both ends act on them: the
worker puts events on a stream, and between two steps of the worker the consumer takes some of them
or drops the handle.
-/

namespace Turnwise

/-! ### The index of sessions -/

/-- Where each live session is. -/
structure SessionIndex where
  entries : List (SessionId × Slot) := []
  deriving DecidableEq, Repr, Inhabited

namespace SessionIndex

def find? (index : SessionIndex) (id : SessionId) : Option Slot := index.entries.lookup id

/-- Notes the slot of a session that is not in the index yet. -/
def insert (index : SessionIndex) (id : SessionId) (slot : Slot) : SessionIndex :=
  { entries := (id, slot) :: index.entries }

def erase (index : SessionIndex) (id : SessionId) : SessionIndex :=
  { entries := index.entries.filter fun entry => entry.1 != id }

end SessionIndex

/-! ### The table of streams -/

/-- The streams that a worker has opened, in order. -/
structure Streams where
  entries : List Stream := []
  deriving DecidableEq, Repr, Inhabited

namespace Streams

def get? (streams : Streams) (id : StreamId) : Option Stream := streams.entries[id]?

/-- Adds a stream, and gives its number. -/
def add (streams : Streams) (s : Stream) : StreamId × Streams :=
  (streams.entries.length, { entries := streams.entries ++ [s] })

def modify (streams : Streams) (id : StreamId) (f : Stream → Stream) : Streams :=
  { entries := streams.entries.modify id f }

/-- Whether the consumer of a stream has dropped the handle. -/
def isClosed (streams : Streams) (id : StreamId) : Bool :=
  match streams.get? id with
  | some s => !s.handleOpen
  | none => true

def offer (streams : Streams) (id : StreamId) (text : String) : ChunkDelivery × Streams :=
  match streams.get? id with
  | some s => ((s.offer text).1, streams.modify id fun s => (s.offer text).2)
  | none => (.closed, streams)

/-- Ends a stream with its terminal event. -/
def finish (streams : Streams) (id : StreamId) (event : StreamEvent) : Streams :=
  streams.modify id (Stream.finish · event)

end Streams

/-! ### Workers -/

/-- A worker on a backend. -/
structure Worker (b : Backend) where
  id : WorkerId
  context : b.Context
  config : WorkerConfig
  sessions : SlotArena Session
  index : SessionIndex := {}
  prefillCursor : Rotation := {}
  decodeCursor : Rotation := {}
  ticks : Nat := 0
  streams : Streams := {}
  tally : Tally := {}

namespace Worker

variable {b : Backend}

/-- A worker without sessions. It holds as many as both its configuration and its context allow. -/
def start (id : WorkerId) (context : b.Context) (config : WorkerConfig) : Worker b where
  id
  context
  config
  sessions := .ofCapacity (min config.maxSessions (b.slotCount context))

/-- The slot and the record of a live session. -/
def find? (w : Worker b) (id : SessionId) : Option (Slot × Session) :=
  (w.index.find? id).bind fun slot => (w.sessions.get? slot).map fun s => (slot, s)

def modifySession (w : Worker b) (slot : Slot) (f : Session → Session) : Worker b :=
  { w with sessions := w.sessions.modify slot f }

/-- Puts the text that is still held on a generation's stream, as far as there is room for it. -/
def flushHeld (b : Backend) (g : Generation) (streams : Streams) : Streams :=
  match (g.decoder.flush b.detokenize).2 with
  | .ok (some text) => (streams.offer g.stream text).2
  | _ => streams

/-- Ends a generation's stream. Held text goes out first, unless the end is an error. -/
def closeStream (b : Backend) (g : Generation) (event : StreamEvent) (streams : Streams) :
    Streams :=
  match event with
  | .done _ => (flushHeld b g streams).finish g.stream event
  | _ => streams.finish g.stream event

/-- Ends the generation of the session in a slot, if it has one. -/
def finishGeneration (w : Worker b) (slot : Slot) (event : StreamEvent) : Worker b :=
  match (w.sessions.get? slot).bind Session.generation with
  | none => w
  | some g =>
      { w with
        sessions := w.sessions.modify slot fun s => { s with generation := none }
        streams := closeStream b g event w.streams
        tally := w.tally.generationEnded event }

end Worker

end Turnwise
