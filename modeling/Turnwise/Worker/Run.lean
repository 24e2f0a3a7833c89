import Turnwise.Worker.Tick

/-!
# Running a worker

How a worker spends its time: it handles the commands that wait, ticks as long as ticks do
something, and shuts down after a request to, or once nobody can send it commands any more.

`Worker.workLeft` bounds the number of ticks that do something if no command arrives: each of them
writes a pending token, spends a token of some budget, or ends a generation.
-/

namespace Turnwise.Worker

variable {b : Backend}

/-- Handles the commands that wait, up to and including the first request to shut down. Gives one
answer for each command handled. -/
def handleQueue (w : Worker b) : List Command → List Ack × Worker b
  | [] => ([], w)
  | command :: rest =>
      let (ack, w) := w.handle command
      if command = .shutdown then ([ack], w)
      else
        let (acks, w) := w.handleQueue rest
        (ack :: acks, w)

/-- The whole life of a worker whose senders have left after queueing some commands: it handles them
without a tick in between, and shuts down. -/
def runClosed (w : Worker b) (commands : List Command) : List Ack × Worker b :=
  let (acks, w) := w.handleQueue commands
  (acks, w.shutdown)

/-- The tokens that prefill may write and the tokens that generations may still produce. -/
def workLeft (w : Worker b) : Nat :=
  w.sessions.toList.foldl
    (fun sum entry =>
      sum + (entry.2.prefillReady + (entry.2.generation.map Generation.budget).getD 0))
    0

/-- Ticks until a tick does nothing, but at most `limit` times; gives the number of ticks that did
something. -/
def runUntilIdle (w : Worker b) : Nat → Nat × Worker b
  | 0 => (0, w)
  | limit + 1 =>
      let turn := w.tick
      if turn.report.didWork then
        let (count, w) := turn.worker.runUntilIdle limit
        (count + 1, w)
      else (0, turn.worker)

end Turnwise.Worker
