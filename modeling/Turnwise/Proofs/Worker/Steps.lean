import Turnwise.Proofs.DeltaDecoder
import Turnwise.Proofs.Worker.Frame

/-!
# What a step does to its session

The steps of a tick work on a whole worker, but each of them is about one session and the stream
that this session holds. Here each step gets two facts: its frame (`ActsOn`), and what becomes of
the session and the stream, as functions that know nothing of the worker.

* `Session.Quiet` is a change to a session that no stream notices.
* `Generation.close` is the end of a generation, seen from its stream.
* `Generation.advance` is what a sampled token does to a generation and its stream.
* `Session.accept` is a turn of decoding, and `Session.lose` the loss of a share after a failed
  call.
-/

namespace Turnwise

/-! ### Sessions by themselves -/

namespace Session

variable (s : Session)

/-- The session without its generation. -/
def idle : Session := { s with generation := none }

@[simp] theorem seat_idle : s.idle.seat = s.seat := rfl

@[simp] theorem seat_enqueue (tokens : List Token) : (s.enqueue tokens).seat = s.seat := rfl

@[simp] theorem seat_commitPrefill (count : Nat) : (s.commitPrefill count).seat = s.seat := rfl

@[simp] theorem seat_discardPending (count : Nat) : (s.discardPending count).seat = s.seat := rfl

theorem commitDecode_of_pending {s : Session} {token : Token} {rest : List Token}
    (h : s.pending = token :: rest) :
    s.commitDecode = { s with pending := rest, position := s.position + 1 } := by
  rw [commitDecode, h]

@[simp] theorem seat_commitDecode : s.commitDecode.seat = s.seat := by
  unfold commitDecode
  split <;> rfl

@[simp] theorem generation_commitDecode : s.commitDecode.generation = s.generation := by
  unfold commitDecode
  split <;> rfl

/-- The session after a failed call that was to write the first `count` of its tokens. -/
def lose (cause : String) (count : Nat) : Session :=
  match s.generation with
  | some _ => (s.discardPending count).idle
  | none => { s.discardPending count with inputError := some cause }

/-- Who does not generate keeps the cause of a loss. -/
theorem lose_of_idle {s : Session} (hidle : s.generation = none) (cause : String) (count : Nat) :
    s.lose cause count = { s.discardPending count with inputError := some cause } := by
  rw [lose, hidle]

/-- Who has lost input does not generate. -/
theorem generation_lose (cause : String) (count : Nat) :
    (s.lose cause count).generation = none := by
  unfold lose
  split
  · rfl
  · assumption

end Session

/-- A change that leaves a session in its place and its generation on its stream. -/
structure Session.Quiet (f : Session → Session) : Prop where
  seat : ∀ s, (f s).seat = s.seat
  stream : ∀ s, (f s).generation.map Generation.stream = s.generation.map Generation.stream

namespace Session

theorem quiet_enqueue (tokens : List Token) : Quiet (enqueue · tokens) :=
  ⟨fun _ => rfl, fun _ => rfl⟩

theorem quiet_commitPrefill (count : Nat) : Quiet (commitPrefill · count) :=
  ⟨fun _ => rfl, fun _ => rfl⟩

theorem quiet_discardPending (count : Nat) : Quiet (discardPending · count) :=
  ⟨fun _ => rfl, fun _ => rfl⟩

theorem quiet_inputError (cause : Option String) :
    Quiet fun s => { s with inputError := cause } :=
  ⟨fun _ => rfl, fun _ => rfl⟩

theorem quiet_commitDecode : Quiet commitDecode :=
  ⟨seat_commitDecode, fun s => by rw [generation_commitDecode]⟩

theorem quiet_queue (sampler : Sampler) (token : Token) :
    Quiet fun s => { s with sampler }.enqueue [token] :=
  ⟨fun _ => rfl, fun _ => rfl⟩

theorem quiet_cancel : Quiet fun s => s.cancel.2 := by
  constructor
  · intro s
    unfold cancel
    split <;> rfl
  · intro s
    unfold cancel
    split
    · rename_i g hg
      rw [hg]
      rfl
    · rfl

end Session

/-! ### Generations and their streams -/

namespace Generation

variable (b : Backend) (g : Generation)

/-- The text that is still held goes out, if there is room for it. -/
def flushTo (s : Stream) : Stream :=
  match (g.decoder.flush b.detokenize).2 with
  | .ok (some text) => (s.offer text).2
  | _ => s

/-- The stream of a generation that ends. -/
def close (event : StreamEvent) (s : Stream) : Stream :=
  match event with
  | .done _ => (g.flushTo b s).finish event
  | _ => s.finish event

/-- The generation after one more token, but for its decoder. -/
def spend : Generation := { g with budget := g.budget - 1, produced := g.produced + 1 }

/-- What a sampled token does: the terminal event if the generation is over, the generation, and its
stream. -/
def advance (token : Token) (s : Stream) : Option StreamEvent × Generation × Stream :=
  if b.isEndOfGeneration token then (some (.done .endOfGeneration), g.spend, s)
  else
    let (decoder, result) := g.decoder.push b.detokenize token
    let ending : Option StreamEvent := if g.spend.budget = 0 then some (.done .length) else none
    match result with
    | .error e => (some (.error e.message), { g.spend with decoder }, s)
    | .ok none => (ending, { g.spend with decoder }, s)
    | .ok (some text) =>
        match s.offer text with
        | (.sent, s) => (ending, { g.spend with decoder }, s)
        | (_, s) => (some (.done .sinkUnavailable), { g.spend with decoder }, s)

/-- Whatever becomes of the text, the token is paid for, and nothing but the decoder changes. -/
theorem exists_spend_of_advance (token : Token) (s : Stream) :
    ∃ decoder, (g.advance b token s).2.1 = { g.spend with decoder } := by
  unfold advance
  split
  · exact ⟨g.spend.decoder, rfl⟩
  · dsimp only
    split
    · exact ⟨_, rfl⟩
    · exact ⟨_, rfl⟩
    · split <;> exact ⟨_, rfl⟩

theorem extends_flushTo (s : Stream) : s.Extends (g.flushTo b s) := by
  unfold flushTo
  split
  · exact s.extends_offer _
  · exact .refl s

theorem extends_close (event : StreamEvent) (s : Stream) : s.Extends (g.close b event s) := by
  unfold close
  split
  · exact (g.extends_flushTo b s).trans (Stream.extends_finish _ _)
  · exact s.extends_finish event

end Generation

/-- One turn of decoding: the session's decode input is written, and it gets a row of logits. -/
def Session.accept (b : Backend) (s : Session) (g : Generation) (stream : Stream)
    (logits : Logits) : Session × Stream :=
  match s.sampler.sample logits with
  | .error e => (s.commitDecode.idle, g.close b (.error e.message) stream)
  | .ok (token, sampler) =>
      let s := { s.commitDecode with sampler }.enqueue [token]
      match g.advance b token stream with
      | (none, g, stream) => ({ s with generation := some g }, stream)
      | (some event, g, stream) => (s.idle, g.close b event stream)

section Accept

variable {b : Backend} {s : Session} {g g' : Generation} {stream stream' : Stream} {logits : Logits}
  {token : Token} {sampler : Sampler}

theorem Session.accept_of_error {e : Error} (hsample : s.sampler.sample logits = .error e)
    (g : Generation) (stream : Stream) :
    s.accept b g stream logits = (s.commitDecode.idle, g.close b (.error e.message) stream) := by
  rw [accept, hsample]

/-- A turn whose token is the last one. -/
theorem Session.accept_of_some (hsample : s.sampler.sample logits = .ok (token, sampler))
    {event : StreamEvent} (hadvance : g.advance b token stream = (some event, g', stream')) :
    s.accept b g stream logits =
      (({ s.commitDecode with sampler }.enqueue [token]).idle, g'.close b event stream') := by
  rw [accept, hsample]
  dsimp only
  rw [hadvance]

/-- A turn after which the generation goes on. -/
theorem Session.accept_of_none {input : Token} (hinput : s.pending = [input])
    (hsample : s.sampler.sample logits = .ok (token, sampler))
    (hadvance : g.advance b token stream = (none, g', stream')) :
    s.accept b g stream logits =
      ({ s with
          pending := [token]
          position := s.position + 1
          sampler
          generation := some g' }, stream') := by
  rw [accept, hsample, commitDecode_of_pending hinput]
  dsimp only
  rw [hadvance]
  rfl

/-- A generation that goes on has a budget left. -/
theorem Generation.budget_pos_of_advance (h : g.advance b token stream = (none, g', stream')) :
    0 < g'.budget := by
  have hlength : (if g.spend.budget = 0 then some (StreamEvent.done .length) else none) = none →
      0 < g.spend.budget := by
    intro hnone
    split_ifs at hnone with hzero
    exact Nat.pos_of_ne_zero hzero
  suffices hpos : (g.advance b token stream).1 = none →
      0 < (g.advance b token stream).2.1.budget by
    rw [h] at hpos
    exact hpos rfl
  unfold advance
  by_cases hend : b.isEndOfGeneration token = true
  · rw [if_pos hend]
    exact nofun
  · rw [if_neg hend]
    rcases g.decoder.push b.detokenize token with ⟨decoder, e | _ | text⟩
    · exact nofun
    · exact hlength
    · dsimp only
      rcases stream.offer text with ⟨_ | _ | _, stream'⟩
      · exact hlength
      · exact nofun
      · exact nofun

/-- **What a turn of decoding makes of a session.** Its one pending token counts as written. If
sampling fails there is nothing in its place and the generation is over; otherwise the sampled token
is, and a generation that goes on has a budget left. -/
theorem Session.accept_fst {input : Token} (hinput : s.pending = [input]) (stream : Stream)
    (logits : Logits) :
    (∃ e, s.sampler.sample logits = .error e ∧
      (s.accept b g stream logits).1 =
        { s with pending := [], position := s.position + 1, generation := none }) ∨
    ∃ token sampler generation, s.sampler.sample logits = .ok (token, sampler) ∧
      (s.accept b g stream logits).1 =
        { s with pending := [token], position := s.position + 1, sampler, generation } ∧
      ∀ g', generation = some g' → 0 < g'.budget := by
  rcases hsample : s.sampler.sample logits with e | ⟨token, sampler⟩
  · refine Or.inl ⟨e, rfl, ?_⟩
    rw [accept_of_error hsample, commitDecode_of_pending hinput]
    rfl
  · right
    rcases hadvance : g.advance b token stream with ⟨_ | event, g', stream'⟩
    · refine ⟨token, sampler, some g', rfl, ?_, fun g'' heq => ?_⟩
      · rw [accept_of_none hinput hsample hadvance]
      · obtain rfl := Option.some.inj heq
        exact Generation.budget_pos_of_advance hadvance
    · refine ⟨token, sampler, none, rfl, ?_, nofun⟩
      rw [accept_of_some hsample hadvance, commitDecode_of_pending hinput]
      rfl

end Accept

namespace Worker

variable {b : Backend} {w : Worker b} {slot : Slot} {s : Session} {g : Generation}

theorem actsOn_quiet {f : Session → Session} (hf : Session.Quiet f) (w : Worker b) (slot : Slot) :
    ActsOn [slot] w (w.modifySession slot f) :=
  ActsOn.modifySession _ (fun s _ => hf.seat s) fun s _ => Or.inl (hf.stream s)

/-! ### The end of a generation -/

theorem closeStream_eq_modify (event : StreamEvent) (streams : Streams) :
    closeStream b g event streams = streams.modify g.stream (g.close b event) := by
  have hflush : flushHeld b g streams = streams.modify g.stream (g.flushTo b) := by
    unfold flushHeld Generation.flushTo
    have hid : streams = streams.modify g.stream fun s => s :=
      congrArg Streams.mk (List.modify_id ..).symm
    rcases (g.decoder.flush b.detokenize).2 with _ | _ | text
    · exact hid
    · exact hid
    · exact streams.offer_snd g.stream text
  unfold closeStream Generation.close
  cases event with
  | done reason =>
    simp only [hflush, Streams.finish, Streams.modify, List.modify_modify_eq]
    rfl
  | chunk text => rfl
  | error cause => rfl

theorem finishGeneration_of_generation (hs : w.sessions.get? slot = some s)
    (hg : s.generation = some g) (event : StreamEvent) :
    w.finishGeneration slot event =
      { w with
        sessions := w.sessions.modify slot Session.idle
        streams := w.streams.modify g.stream (g.close b event)
        tally := w.tally.generationEnded event } := by
  rw [finishGeneration, hs, Option.bind_some, hg]
  simp only [closeStream_eq_modify]
  rfl

theorem finishGeneration_of_holder_eq_none (h : w.holder slot = none) (event : StreamEvent) :
    w.finishGeneration slot event = w := by
  rw [holder, Option.map_eq_none_iff] at h
  rw [finishGeneration, h]

theorem actsOn_finishGeneration (w : Worker b) (slot : Slot) (event : StreamEvent) :
    ActsOn [slot] w (w.finishGeneration slot event) := by
  cases hheld : w.holder slot with
  | none =>
    rw [finishGeneration_of_holder_eq_none hheld]
    exact ActsOn.self ..
  | some stream =>
    obtain ⟨s, g, hs, hg, rfl⟩ := holder_eq_some_iff.mp hheld
    rw [finishGeneration_of_generation hs hg]
    -- First the stream is closed, while the session still holds it; then the session lets go.
    have hstream : ActsOn [slot] w
        { w with streams := w.streams.modify g.stream (g.close b event) } :=
      ActsOn.modifyStream hheld (g.extends_close b event)
    have hsession := hstream.trans_self
      (ActsOn.modifySession slot (f := Session.idle) (fun _ _ => rfl)
        fun _ _ => Or.inr rfl)
    exact hsession.withTally _

theorem get?_finishGeneration (hs : w.sessions.get? slot = some s) (event : StreamEvent) :
    (w.finishGeneration slot event).sessions.get? slot = some s.idle := by
  cases hg : s.generation with
  | none =>
    have hidle : s.idle = s := by
      rw [Session.idle, ← hg]
    rw [finishGeneration_of_holder_eq_none (by rw [holder, hs, Option.bind_some, hg]; rfl), hs,
      hidle]
  | some g =>
    rw [finishGeneration_of_generation hs hg]
    show (w.sessions.modify slot Session.idle).get? slot = _
    rw [SlotArena.get?_modify_self, hs, Option.map_some]

theorem stream_finishGeneration (hs : w.sessions.get? slot = some s) (hg : s.generation = some g)
    (event : StreamEvent) :
    (w.finishGeneration slot event).streams.get? g.stream =
      (w.streams.get? g.stream).map (g.close b event) := by
  rw [finishGeneration_of_generation hs hg]
  show (w.streams.modify g.stream _).get? g.stream = _
  rw [Streams.get?_modify, if_pos rfl]

/-! ### Sampled tokens -/

/-- Storing a generation on the same stream. -/
theorem actsOn_store (hs : w.sessions.get? slot = some s) (hg : s.generation = some g)
    {g' : Generation} (hstream : g'.stream = g.stream) :
    ActsOn [slot] w (w.modifySession slot fun s => { s with generation := some g' }) := by
  refine ActsOn.modifySession _ (fun _ _ => rfl) fun s' hs' => Or.inl ?_
  obtain rfl : s = s' := Option.some.inj (hs.symm.trans hs')
  rw [hg, Option.map_some, Option.map_some, hstream]

theorem stream_advance (b : Backend) (g : Generation) (token : Token) (stream : Stream) :
    (g.advance b token stream).2.1.stream = g.stream := by
  obtain ⟨decoder, hspend⟩ := g.exists_spend_of_advance b token stream
  rw [hspend]
  rfl

/-- **A sampled token is a matter of the generation and its stream.** -/
theorem advance_eq (hs : w.sessions.get? slot = some s) (hg : s.generation = some g)
    {stream : Stream} (hstream : w.streams.get? g.stream = some stream) (token : Token) :
    (Turn.advance w slot token).1 = (g.advance b token stream).1 ∧
      (Turn.advance w slot token).2.sessions =
        w.sessions.modify slot (fun s =>
          { s with generation := some (g.advance b token stream).2.1 }) ∧
      (Turn.advance w slot token).2.streams.get? g.stream =
        some (g.advance b token stream).2.2 := by
  unfold Turn.advance Generation.advance
  rw [hs, Option.bind_some, hg]
  dsimp only
  by_cases hend : b.isEndOfGeneration token = true
  · rw [if_pos hend, if_pos hend]
    exact ⟨rfl, rfl, hstream⟩
  · rw [if_neg hend, if_neg hend]
    rcases g.decoder.push b.detokenize token with ⟨decoder, e | _ | text⟩
    · exact ⟨rfl, rfl, hstream⟩
    · exact ⟨rfl, rfl, hstream⟩
    -- A piece of text: both sides go by what became of the offer.
    · have hfst := w.streams.offer_fst hstream text
      have hsnd : (w.streams.offer g.stream text).2.get? g.stream = some (stream.offer text).2 := by
        rw [w.streams.offer_snd, Streams.get?_modify, if_pos rfl, hstream, Option.map_some]
      rcases hw : w.streams.offer g.stream text with ⟨delivery, streams⟩
      rcases hst : stream.offer text with ⟨delivery', stream'⟩
      rw [hw, hst] at hfst hsnd
      obtain rfl : delivery = delivery' := hfst
      simp only [hw, hst]
      cases delivery <;> exact ⟨rfl, rfl, hsnd⟩

/-- What the worker does about a sampled token, also where the table has no such stream. -/
theorem advance_cases (hs : w.sessions.get? slot = some s) (hg : s.generation = some g)
    (token : Token) :
    ∃ g' : Generation, g'.stream = g.stream ∧
      ((Turn.advance w slot token).2 =
          w.modifySession slot (fun s => { s with generation := some g' }) ∨
        ∃ text, text ≠ "" ∧ (Turn.advance w slot token).2 =
          { w.modifySession slot (fun s => { s with generation := some g' }) with
            streams := w.streams.modify g.stream fun s => (s.offer text).2 }) := by
  unfold Turn.advance
  rw [hs, Option.bind_some, hg]
  dsimp only
  by_cases hend : b.isEndOfGeneration token = true
  · rw [if_pos hend]
    exact ⟨g.spend, rfl, Or.inl rfl⟩
  · rw [if_neg hend]
    rcases hpush : g.decoder.push b.detokenize token with ⟨decoder, e | _ | text⟩
    · exact ⟨{ g.spend with decoder }, rfl, Or.inl rfl⟩
    · exact ⟨{ g.spend with decoder }, rfl, Or.inl rfl⟩
    · have htext := g.decoder.push_ne_empty b.detokenize token text (by rw [hpush])
      refine ⟨{ g.spend with decoder }, rfl, Or.inr ⟨text, htext, ?_⟩⟩
      dsimp only
      rw [← w.streams.offer_snd]
      rcases w.streams.offer g.stream text with ⟨_ | _ | _, streams⟩ <;> rfl

theorem advance_of_holder_eq_none (h : w.holder slot = none) (token : Token) :
    Turn.advance w slot token = (none, w) := by
  rw [holder, Option.map_eq_none_iff] at h
  unfold Turn.advance
  rw [h]

/-- What ends a generation is the last event of its stream. -/
theorem isTerminal_advance {token : Token} {event : StreamEvent}
    (h : (Turn.advance w slot token).1 = some event) : event.isTerminal = true := by
  have hlength : ∀ budget : Nat,
      (if budget = 0 then some (StreamEvent.done .length) else none) = some event →
        event.isTerminal = true := by
    intro budget hevent
    split_ifs at hevent
    exact Option.some.inj hevent ▸ rfl
  revert h
  unfold Turn.advance
  rcases (w.sessions.get? slot).bind Session.generation with _ | g
  · exact nofun
  · dsimp only
    by_cases hend : b.isEndOfGeneration token = true
    · rw [if_pos hend]
      exact fun h => Option.some.inj h ▸ rfl
    · rw [if_neg hend]
      rcases g.decoder.push b.detokenize token with ⟨decoder, e | _ | text⟩
      · exact fun h => Option.some.inj h ▸ rfl
      · exact hlength _
      · dsimp only
        rcases w.streams.offer g.stream text with ⟨_ | _ | _, streams⟩
        · exact hlength _
        · exact fun h => Option.some.inj h ▸ rfl
        · exact fun h => Option.some.inj h ▸ rfl

theorem actsOn_advance (w : Worker b) (slot : Slot) (token : Token) :
    ActsOn [slot] w (Turn.advance w slot token).2 := by
  cases hheld : w.holder slot with
  | none =>
    rw [advance_of_holder_eq_none hheld]
    exact ActsOn.self ..
  | some stream =>
    obtain ⟨s, g, hs, hg, rfl⟩ := holder_eq_some_iff.mp hheld
    obtain ⟨g', hg', h | ⟨text, -, h⟩⟩ := advance_cases hs hg token
    · rw [h]
      exact actsOn_store hs hg hg'
    · rw [h]
      let w' := { w with streams := w.streams.modify g.stream fun s => (s.offer text).2 }
      have hstream : ActsOn [slot] w w' :=
        ActsOn.modifyStream hheld fun s => s.extends_offer text
      have hsession : ActsOn [slot] w'
          (w'.modifySession slot fun s => { s with generation := some g' }) :=
        actsOn_store (w := w') hs hg hg'
      exact hstream.trans_self hsession

end Worker

/-! ### The steps of a tick -/

namespace Turn

open Worker

variable {b : Backend} {t : Turn b} {slot : Slot} {s : Session} {g : Generation}

/-! #### Sweep -/

theorem sweepSlot_worker (hs : t.worker.sessions.get? slot = some s) :
    (t.sweepSlot slot).worker =
      match s.generation.bind (sweepEvent? t.worker.streams) with
      | none => t.worker
      | some event => t.worker.finishGeneration slot event := by
  unfold sweepSlot
  rw [hs]
  dsimp only
  cases s.generation.bind (sweepEvent? t.worker.streams) <;> rfl

theorem actsOn_sweepSlot (t : Turn b) (slot : Slot) :
    ActsOn [slot] t.worker (t.sweepSlot slot).worker := by
  cases hs : t.worker.sessions.get? slot with
  | none =>
    unfold sweepSlot
    rw [hs]
    exact ActsOn.self ..
  | some s =>
    rw [sweepSlot_worker hs]
    split
    · exact ActsOn.self ..
    · exact actsOn_finishGeneration ..

/-! #### Prefill -/

theorem commitShare_worker (hs : t.worker.sessions.get? slot = some s) (count : Nat) :
    (t.commitShare (slot, count)).worker =
      t.worker.modifySession slot (Session.commitPrefill · count) := by
  unfold commitShare
  rw [hs]

theorem actsOn_commitShare (t : Turn b) (share : Slot × Nat) :
    ActsOn [share.1] t.worker (t.commitShare share).worker := by
  obtain ⟨slot, count⟩ := share
  cases hs : t.worker.sessions.get? slot with
  | none =>
    unfold commitShare
    rw [hs]
    exact ActsOn.self ..
  | some s =>
    rw [commitShare_worker hs]
    exact actsOn_quiet (Session.quiet_commitPrefill count) t.worker slot

/-- A lost share: the session loses the tokens, and its generation, if it has one, ends. -/
theorem dropShare_worker (hs : t.worker.sessions.get? slot = some s) (cause : String)
    (count : Nat) :
    (dropShare cause t (slot, count)).worker =
      match s.generation with
      | some _ =>
          (t.worker.modifySession slot (Session.discardPending · count)).finishGeneration slot
            (.error cause)
      | none =>
          (t.worker.modifySession slot (Session.discardPending · count)).modifySession slot
            fun s => { s with inputError := some cause } := by
  unfold dropShare
  rw [hs]
  cases hg : s.generation with
  | none => simp [hg, update]
  | some g => simp [hg, update, finish]

theorem actsOn_dropShare (cause : String) (t : Turn b) (share : Slot × Nat) :
    ActsOn [share.1] t.worker (dropShare cause t share).worker := by
  obtain ⟨slot, count⟩ := share
  cases hs : t.worker.sessions.get? slot with
  | none =>
    unfold dropShare
    rw [hs]
    exact ActsOn.self ..
  | some s =>
    have hdiscard := actsOn_quiet (Session.quiet_discardPending count) t.worker slot
    rw [dropShare_worker hs]
    split
    · exact hdiscard.trans_self (actsOn_finishGeneration ..)
    · exact hdiscard.trans_self (actsOn_quiet (Session.quiet_inputError _) _ slot)

theorem get?_dropShare (hs : t.worker.sessions.get? slot = some s) (cause : String)
    (count : Nat) :
    (dropShare cause t (slot, count)).worker.sessions.get? slot = some (s.lose cause count) := by
  let discarded := t.worker.modifySession slot (Session.discardPending · count)
  have hdiscard : discarded.sessions.get? slot = some (s.discardPending count) := by
    show (t.worker.sessions.modify slot _).get? slot = _
    rw [SlotArena.get?_modify_self, hs, Option.map_some]
  rw [dropShare_worker hs, Session.lose]
  cases s.generation with
  | some g => exact get?_finishGeneration hdiscard _
  | none =>
    show (discarded.sessions.modify slot _).get? slot = _
    rw [SlotArena.get?_modify_self, hdiscard, Option.map_some]

theorem stream_dropShare {cause : String} {count : Nat}
    (hs : t.worker.sessions.get? slot = some s) (hg : s.generation = some g) :
    (dropShare cause t (slot, count)).worker.streams.get? g.stream =
      (t.worker.streams.get? g.stream).map (g.close b (.error cause)) := by
  have hdiscard : (t.worker.modifySession slot (Session.discardPending · count)).sessions.get?
      slot = some (s.discardPending count) := by
    rw [modifySession, SlotArena.get?_modify_self, hs, Option.map_some]
  rw [dropShare_worker hs, hg]
  exact stream_finishGeneration hdiscard hg _

/-! #### Decode -/

theorem actsOn_failOwner (cause : String) (t : Turn b) {owner : SessionId} (slot : Slot)
    (hslot : t.worker.index.find? owner = some slot) :
    ActsOn [slot] t.worker (failOwner cause t owner).worker := by
  unfold failOwner
  split
  · exact ActsOn.self ..
  · rename_i slot' s hfind
    obtain rfl : slot = slot' :=
      Option.some.inj (hslot.symm.trans (find?_eq_some_iff.mp hfind).1)
    exact actsOn_finishGeneration ..

theorem get?_failOwner (cause : String) {owner : SessionId}
    (hfind : t.worker.find? owner = some (slot, s)) :
    (failOwner cause t owner).worker.sessions.get? slot = some s.idle := by
  unfold failOwner
  rw [hfind]
  exact get?_finishGeneration (find?_eq_some_iff.mp hfind).2 _

theorem stream_failOwner {cause : String} {owner : SessionId}
    (hfind : t.worker.find? owner = some (slot, s)) (hg : s.generation = some g) :
    (failOwner cause t owner).worker.streams.get? g.stream =
      (t.worker.streams.get? g.stream).map (g.close b (.error cause)) := by
  unfold failOwner
  rw [hfind]
  exact stream_finishGeneration (find?_eq_some_iff.mp hfind).2 hg _

/-- The decode input counts as written, and a sampled token is queued in its place. -/
def queueSampled (w : Worker b) (slot : Slot) (token : Token) (sampler : Sampler) : Worker b :=
  let w := (w.modifySession slot Session.commitDecode).modifySession slot
    fun s => { s with sampler }.enqueue [token]
  { w with tally := { w.tally with tokensGenerated := w.tally.tokensGenerated + 1 } }

theorem actsOn_queueSampled (w : Worker b) (slot : Slot) (token : Token) (sampler : Sampler) :
    ActsOn [slot] w (queueSampled w slot token sampler) := by
  have hcommit := actsOn_quiet Session.quiet_commitDecode w slot
  have hqueue := hcommit.trans_self (actsOn_quiet (Session.quiet_queue sampler token) _ slot)
  exact hqueue.withTally _

theorem get?_queueSampled {w : Worker b} (hs : w.sessions.get? slot = some s) (token : Token)
    (sampler : Sampler) :
    (queueSampled w slot token sampler).sessions.get? slot =
      some ({ s.commitDecode with sampler }.enqueue [token]) := by
  show ((w.sessions.modify slot Session.commitDecode).modify slot _).get? slot = _
  rw [SlotArena.get?_modify_self, SlotArena.get?_modify_self, hs]
  rfl

/-- The worker after a row of logits: the sampler decides between an error and one more token. -/
theorem acceptRow_worker {owner : SessionId} (hfind : t.worker.find? owner = some (slot, s))
    (logits : Logits) :
    (t.acceptRow (owner, logits)).worker =
      match s.sampler.sample logits with
      | .error e =>
          (t.worker.modifySession slot Session.commitDecode).finishGeneration slot
            (.error e.message)
      | .ok (token, sampler) =>
          match advance (queueSampled t.worker slot token sampler) slot token with
          | (none, w) => w
          | (some event, w) => w.finishGeneration slot event := by
  unfold acceptRow queueSampled
  rw [hfind]
  dsimp only
  rcases s.sampler.sample logits with e | ⟨token, sampler⟩
  · rfl
  · dsimp only
    rcases advance _ slot token with ⟨_ | event, w⟩ <;> rfl

theorem actsOn_acceptRow (t : Turn b) (row : SessionId × Logits) (slot : Slot)
    (hslot : t.worker.index.find? row.1 = some slot) :
    ActsOn [slot] t.worker (t.acceptRow row).worker := by
  obtain ⟨owner, logits⟩ := row
  cases hs : t.worker.sessions.get? slot with
  | none =>
    have hfind : t.worker.find? owner = none := by
      rw [Worker.find?, hslot, Option.bind_some, hs, Option.map_none]
    unfold acceptRow
    rw [hfind]
    exact ActsOn.self ..
  | some s =>
    rw [acceptRow_worker (find?_eq_some_iff.mpr ⟨hslot, hs⟩)]
    split
    · have hcommit := actsOn_quiet Session.quiet_commitDecode t.worker slot
      exact hcommit.trans_self (actsOn_finishGeneration ..)
    · rename_i token sampler _
      have hadvanced := (actsOn_queueSampled t.worker slot token sampler).trans_self
        (actsOn_advance _ slot token)
      split
      · rename_i heq
        rwa [heq] at hadvanced
      · rename_i heq
        rw [heq] at hadvanced
        exact hadvanced.trans_self (actsOn_finishGeneration ..)

theorem context_acceptRow (t : Turn b) (row : SessionId × Logits) :
    (t.acceptRow row).worker.context = t.worker.context := by
  cases hslot : t.worker.index.find? row.1 with
  | none =>
    unfold acceptRow Worker.find?
    rw [hslot, Option.bind_none]
  | some slot => exact (actsOn_acceptRow t row slot hslot).context

theorem context_failOwner (cause : String) (t : Turn b) (owner : SessionId) :
    (failOwner cause t owner).worker.context = t.worker.context := by
  cases hslot : t.worker.index.find? owner with
  | none =>
    unfold failOwner Worker.find?
    rw [hslot, Option.bind_none]
  | some slot => exact (actsOn_failOwner cause t slot hslot).context

/-- **A turn of decoding is a matter of the session and its stream.** -/
theorem acceptRow_eq {owner : SessionId} (hfind : t.worker.find? owner = some (slot, s))
    (hg : s.generation = some g) {stream : Stream}
    (hstream : t.worker.streams.get? g.stream = some stream) (logits : Logits) :
    (t.acceptRow (owner, logits)).worker.sessions.get? slot =
        some (s.accept b g stream logits).1 ∧
      (t.acceptRow (owner, logits)).worker.streams.get? g.stream =
        some (s.accept b g stream logits).2 := by
  have hs := (find?_eq_some_iff.mp hfind).2
  rw [acceptRow_worker hfind, Session.accept]
  rcases s.sampler.sample logits with e | ⟨token, sampler⟩
  -- The sampler fails, and the generation ends with its error.
  · have hcommitted : (t.worker.modifySession slot Session.commitDecode).sessions.get? slot =
        some s.commitDecode := by
      rw [modifySession, SlotArena.get?_modify_self, hs, Option.map_some]
    have hgeneration : s.commitDecode.generation = some g := s.generation_commitDecode.trans hg
    constructor
    · exact get?_finishGeneration hcommitted _
    · rw [stream_finishGeneration hcommitted hgeneration]
      exact congrArg (Option.map _) hstream
  -- There is a token. What `advance` makes of it, it stores; then the generation may be over.
  · dsimp only
    have hqueued := get?_queueSampled hs token sampler
    have hgeneration : ({ s.commitDecode with sampler }.enqueue [token]).generation = some g :=
      s.generation_commitDecode.trans hg
    obtain ⟨hevent, hsessions, hstreams⟩ :=
      advance_eq (w := queueSampled t.worker slot token sampler) hqueued hgeneration hstream token
    rcases hw : advance (queueSampled t.worker slot token sampler) slot token with ⟨event?, w⟩
    rcases hadvance : g.advance b token stream with ⟨event?', g', stream'⟩
    have hsame : g'.stream = g.stream := by
      rw [← stream_advance b g token stream, hadvance]
    rw [hw, hadvance] at hevent hsessions hstreams
    obtain rfl : event? = event?' := hevent
    have hstored : w.sessions.get? slot =
        some { { s.commitDecode with sampler }.enqueue [token] with generation := some g' } := by
      rw [hsessions, SlotArena.get?_modify_self, hqueued, Option.map_some]
    cases event? with
    | none => exact ⟨hstored, hstreams⟩
    | some event =>
      constructor
      · exact get?_finishGeneration hstored _
      · show (w.finishGeneration slot event).streams.get? g.stream = _
        rw [← hsame, stream_finishGeneration hstored rfl, hsame, hstreams, Option.map_some]

end Turn

end Turnwise
