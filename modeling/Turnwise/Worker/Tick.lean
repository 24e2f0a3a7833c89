import Turnwise.Worker.Command

/-!
# Ticks

One scheduling pass of a worker, in three stages.

* The *sweep* ends the generations that were cancelled or lost their consumer.
* The *prefill* stage writes pending input, all but the last token of each session, as far as one
  batch holds it.
* The *decode* stage writes the last pending token of the sessions whose turn it is, and samples one
  token for each from the logits.

The two batches are planned before anything is written: `Worker.planPrefill` and
`Worker.planDecode` say what would be submitted and where the cursor goes, and the stages carry a
plan out. What a tick did is gathered in a report.
-/

namespace Turnwise

/-- What one tick did. -/
structure TickReport where
  /-- The sessions whose input was written, with the number of tokens. -/
  prefilled : List (SessionId × Nat) := []
  /-- The sessions whose decode input was written. -/
  decoded : List SessionId := []
  /-- The sessions whose generation ended, with the terminal event. -/
  finished : List (SessionId × StreamEvent) := []
  deriving DecidableEq, Repr

/-- Whether there may be more to do at once. -/
def TickReport.didWork (report : TickReport) : Bool :=
  !report.prefilled.isEmpty || !report.decoded.isEmpty || !report.finished.isEmpty

/-! ### Plans -/

/-- What the prefill stage is about to submit. -/
structure PrefillPlan where
  batch : Batch
  /-- The slots served, in order, with the number of tokens of each. -/
  shares : List (Slot × Nat) := []
  /-- Where the next prefill begins. -/
  cursor : Rotation

/-- What the decode stage is about to submit. -/
structure DecodePlan where
  batch : Batch
  /-- Where the next decode begins. -/
  cursor : Rotation

/-- Adds tokens of one row at consecutive positions. -/
def Batch.pushRun (slot : Slot) : Batch → List Token → Nat → Except Error Batch
  | batch, [], _ => .ok batch
  | batch, token :: rest, position => do
      (← batch.pushInput slot token position).pushRun slot rest (position + 1)

/-- Serves one session: as many of its tokens as are ready and fit. A full batch serves nobody. The
next prefill begins with this session if some of its tokens did not fit, and after it otherwise. -/
def PrefillPlan.serve (plan : PrefillPlan) (slot : Slot) (s : Session) :
    Except Error PrefillPlan := do
  if plan.batch.remaining = 0 then pure plan
  else
    let count := min s.prefillReady plan.batch.remaining
    let batch ← plan.batch.pushRun slot (s.pending.take count) s.position
    pure
      { batch
        shares := plan.shares ++ [(slot, count)]
        cursor :=
          if count < s.prefillReady then plan.cursor.resumeAt slot
          else plan.cursor.resumeAfter slot }

/-- Serves one session: its one pending token, with a request for logits. -/
def DecodePlan.serve (plan : DecodePlan) (slot : Slot) (s : Session) : Except Error DecodePlan :=
  match s.pending with
  | [] => pure plan
  | token :: _ => do
      let batch ← plan.batch.pushForLogits s.id slot token s.position
      pure { batch, cursor := plan.cursor.resumeAfter slot }

namespace Worker

variable {b : Backend}

/-- The slots whose sessions satisfy a condition, in increasing order. -/
def slotsWhere (w : Worker b) (p : Session → Bool) : List Slot :=
  (w.sessions.toList.filter fun entry => p entry.2).map Prod.fst

def prefillSlots (w : Worker b) : List Slot := w.slotsWhere fun s => 0 < s.prefillReady

/-- The slots that wait for a token. -/
def decodeSlots (w : Worker b) : List Slot := w.slotsWhere Session.decodeReady

/-- The next prefill batch; `none` if there is no input to write. -/
def planPrefill (w : Worker b) : Except Error (Option PrefillPlan) :=
  match w.prefillSlots with
  | [] => .ok none
  | ready => do
      let empty : PrefillPlan :=
        { batch := .ofCapacity w.config.batching.maxPrefillTokens, cursor := w.prefillCursor }
      let plan ← (w.prefillCursor.order ready).foldlM
        (fun plan slot =>
          match w.sessions.get? slot with
          | some s => plan.serve slot s
          | none => pure plan)
        empty
      pure (some plan)

/-- The next decode batch; `none` if no session waits for a token. -/
def planDecode (w : Worker b) : Except Error (Option DecodePlan) :=
  match w.decodeSlots with
  | [] => .ok none
  | ready => do
      let bound := w.config.batching.maxDecodeSequences
      let empty : DecodePlan := { batch := .ofCapacity bound, cursor := w.decodeCursor }
      let plan ← ((w.decodeCursor.order ready).take bound).foldlM
        (fun plan slot =>
          match w.sessions.get? slot with
          | some s => plan.serve slot s
          | none => pure plan)
        empty
      pure (some plan)

end Worker

/-! ### Stages -/

/-- A worker in the middle of a tick, with the report so far. -/
structure Turn (b : Backend) where
  worker : Worker b
  report : TickReport := {}

namespace Turn

variable {b : Backend}

def update (t : Turn b) (f : Worker b → Worker b) : Turn b := { t with worker := f t.worker }

/-- Ends the generation of the session in a slot, and reports it. -/
def finish (t : Turn b) (id : SessionId) (slot : Slot) (event : StreamEvent) : Turn b where
  worker := t.worker.finishGeneration slot event
  report := { t.report with finished := t.report.finished ++ [(id, event)] }

/-! #### Sweep -/

/-- Why the sweep ends a generation, if it does. A request to cancel comes before a lost
consumer. -/
def sweepEvent? (streams : Streams) (g : Generation) : Option StreamEvent :=
  if g.cancelRequested then some (.done .cancelled)
  else if streams.isClosed g.stream then some (.done .sinkUnavailable)
  else none

def sweepSlot (t : Turn b) (slot : Slot) : Turn b :=
  match t.worker.sessions.get? slot with
  | none => t
  | some s =>
      match s.generation.bind (sweepEvent? t.worker.streams) with
      | none => t
      | some event => t.finish s.id slot event

/-- Ends the generations that were cancelled or lost their consumer. -/
def sweep (t : Turn b) : Turn b := t.worker.sessions.slots.foldl sweepSlot t

/-! #### Prefill -/

/-- Records that a session's share was written. -/
def commitShare (t : Turn b) (share : Slot × Nat) : Turn b :=
  match t.worker.sessions.get? share.1 with
  | none => t
  | some s =>
      { worker := t.worker.modifySession share.1 (Session.commitPrefill · share.2)
        report := { t.report with prefilled := t.report.prefilled ++ [(s.id, share.2)] } }

/-- Drops a session's share after a failed call. The failure ends the session's generation; without
one, it is kept for the next. -/
def dropShare (cause : String) (t : Turn b) (share : Slot × Nat) : Turn b :=
  match t.worker.sessions.get? share.1 with
  | none => t
  | some s =>
      let t := t.update fun w => w.modifySession share.1 (Session.discardPending · share.2)
      if s.generation.isSome then t.finish s.id share.1 (.error cause)
      else
        t.update fun w => w.modifySession share.1 fun s => { s with inputError := some cause }

/-- Submits a prefill batch and records what became of it. -/
def runPrefill (t : Turn b) (plan : PrefillPlan) : Turn b :=
  let w := t.worker
  let (context, result) := b.compute w.context plan.batch
  let t := { t with
    worker := { w with
      context
      prefillCursor := plan.cursor
      tally := w.tally.prefillBatch plan.batch.size } }
  match result with
  | .ok _ =>
      (plan.shares.foldl commitShare t).update fun w =>
        { w with
          tally :=
            { w.tally with tokensPrefilled := w.tally.tokensPrefilled + plan.batch.size } }
  | .error e =>
      plan.shares.foldl (dropShare e.message)
        (t.update fun w => { w with tally := w.tally.computeFailed })

/-- Writes pending input, as far as one batch holds it. -/
def prefill (t : Turn b) : Turn b :=
  match t.worker.planPrefill with
  | .ok (some plan) => t.runPrefill plan
  | _ => t

/-! #### Decode -/

/-- Accounts for a sampled token of the session in a slot: the budget shrinks, and the text that the
token completes goes out. Gives the terminal event if the generation is over. A token that ends the
generation has no text; a stream that does not take the text ends the generation; so does the last
token of the budget. -/
def advance (w : Worker b) (slot : Slot) (token : Token) : Option StreamEvent × Worker b :=
  match (w.sessions.get? slot).bind Session.generation with
  | none => (none, w)
  | some g =>
      let g := { g with budget := g.budget - 1, produced := g.produced + 1 }
      let store (g : Generation) : Worker b :=
        w.modifySession slot fun s => { s with generation := some g }
      if b.isEndOfGeneration token then (some (.done .endOfGeneration), store g)
      else
        let (decoder, result) := g.decoder.push b.detokenize token
        let g := { g with decoder }
        let ending : Option StreamEvent := if g.budget = 0 then some (.done .length) else none
        match result with
        | .error e => (some (.error e.message), store g)
        | .ok none => (ending, store g)
        | .ok (some text) =>
            let (delivery, streams) := w.streams.offer g.stream text
            let w := { store g with streams }
            match delivery with
            | .sent => (ending, w)
            | .full | .closed => (some (.done .sinkUnavailable), w)

/-- Takes a row of logits for its owner: the decode input counts as written, and a token is sampled,
queued and accounted for. -/
def acceptRow (t : Turn b) (row : SessionId × Logits) : Turn b :=
  match t.worker.find? row.1 with
  | none => t
  | some (slot, s) =>
      let t : Turn b :=
        { worker := t.worker.modifySession slot Session.commitDecode
          report := { t.report with decoded := t.report.decoded ++ [row.1] } }
      match s.sampler.sample row.2 with
      | .error e => t.finish row.1 slot (.error e.message)
      | .ok (token, sampler) =>
          let w := t.worker.modifySession slot fun s => { s with sampler }.enqueue [token]
          let w := { w with
            tally := { w.tally with tokensGenerated := w.tally.tokensGenerated + 1 } }
          match advance w slot token with
          | (none, w) => { t with worker := w }
          | (some event, w) => { t with worker := w }.finish row.1 slot event

/-- Ends the generation of an owner after a failed call. -/
def failOwner (cause : String) (t : Turn b) (owner : SessionId) : Turn b :=
  match t.worker.find? owner with
  | none => t
  | some (slot, _) => t.finish owner slot (.error cause)

/-- Submits a decode batch and records what became of it. -/
def runDecode (t : Turn b) (plan : DecodePlan) : Turn b :=
  let w := t.worker
  let (context, result) := b.compute w.context plan.batch
  let t := { t with
    worker := { w with
      context
      decodeCursor := plan.cursor
      tally := w.tally.decodeBatch plan.batch.size } }
  match result.bind plan.batch.assignRows with
  | .ok rows => rows.foldl acceptRow t
  | .error e =>
      plan.batch.owners.foldl (failOwner e.message)
        (t.update fun w => { w with tally := w.tally.computeFailed })

/-- Produces one token for each session whose turn it is. -/
def decode (t : Turn b) : Turn b :=
  match t.worker.planDecode with
  | .ok (some plan) => t.runDecode plan
  | _ => t

end Turn

namespace Worker

variable {b : Backend}

/-- A worker at the beginning of a tick. -/
def beginTick (w : Worker b) : Turn b := { worker := { w with ticks := w.ticks + 1 } }

/-- One scheduling pass. -/
def tick (w : Worker b) : Turn b := w.beginTick.sweep.prefill.decode

end Worker

end Turnwise
