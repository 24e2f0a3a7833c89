import Turnwise.Proofs.Worker.Consistency
import Turnwise.Proofs.Worker.Containment
import Turnwise.Proofs.Worker.Delivery

/-!
# Withdrawn generations

A generation is *withdrawn* if its session was told to cancel it, or if its consumer has dropped the
handle (`Generation.Withdrawn`). The next tick ends it in its first stage, before anything is
planned, so that it takes no more part in the tick. `Worker.Withdraws` says what this comes to: the
generation is over, no token is drawn for it, it is reported once, and a consumer who still listens
gets the text that was held back, if there is room for it, and the end.

The session stays, and the later stages treat it like any session without a generation
(`Worker.Rests`). It may have input written in the same tick, and may lose input if this call fails;
otherwise its row and its queue together stay as they are (`Worker.whole_tick`).

* `Generation.Holds` names the text that is held back, and `Generation.log_flushTo` and
  `Stream.Flowing.log_close` say what of it gets through.
* `Worker.withdrawn_run` puts this together, for any number of withdrawn generations in one tick.
-/

namespace Turnwise

/-! ### Streams of generations that end -/

/-- A generation holds back the text of its last tokens. -/
structure Generation.Holds (b : Backend) (g : Generation) (text : String) : Prop where
  held : g.decoder.held ≠ []
  text : b.detokenize g.decoder.held = .ok text

/-- Nobody wants the rest of a generation, and this is the end that it gets. A request to cancel
comes before a lost consumer. -/
inductive Generation.Withdrawn (g : Generation) (stream : Stream) : StreamEvent → Prop
  | cancelled (hflag : g.cancelRequested = true) : Withdrawn g stream (.done .cancelled)
  | abandoned (hflag : g.cancelRequested = false) (hhandle : stream.handleOpen = false) :
      Withdrawn g stream (.done .sinkUnavailable)

section Streams

variable {b : Backend} {g : Generation} {stream : Stream}

theorem Generation.holds_of_flush {text : String}
    (h : (g.decoder.flush b.detokenize).2 = .ok (some text)) : g.Holds b text := by
  unfold DeltaDecoder.flush at h
  split_ifs at h with hempty
  · cases h
  · have hheld : g.decoder.held ≠ [] := fun hnil => hempty (List.isEmpty_iff.mpr hnil)
    cases htext : b.detokenize g.decoder.held with
    | error e =>
      rw [htext] at h
      cases h
    | ok text' =>
      rw [htext] at h
      have hsame : DeltaDecoder.nonempty text' = some text := Except.ok.inj h
      unfold DeltaDecoder.nonempty at hsame
      split_ifs at hsame
      obtain rfl := Option.some.inj hsame
      exact ⟨hheld, htext⟩

/-- What is put on a stream by an offer. -/
theorem Stream.log_offer (stream : Stream) (text : String) :
    (stream.offer text).2.log = stream.log ∨
      stream.handleOpen = true ∧ (stream.offer text).2.log = stream.log ++ [.chunk text] := by
  unfold offer
  split_ifs with hclosed hroom
  · exact .inl rfl
  · exact .inl rfl
  · exact .inr ⟨by simpa using hclosed, rfl⟩

/-- The text that is held goes out, or nothing does. -/
theorem Generation.log_flushTo (b : Backend) (g : Generation) (stream : Stream) :
    (g.flushTo b stream).log = stream.log ∨
      stream.handleOpen = true ∧
        ∃ text, g.Holds b text ∧ (g.flushTo b stream).log = stream.log ++ [.chunk text] := by
  unfold flushTo
  split
  · rename_i text htext
    rcases stream.log_offer text with hsame | ⟨hopen, hsent⟩
    · exact .inl hsame
    · exact .inr ⟨hopen, text, holds_of_flush htext, hsent⟩
  · exact .inl rfl

/-- **What the consumer hears of the end of a generation**: the text that was held, or nothing of
it, and the reason; without a handle nothing. -/
theorem Stream.Flowing.log_close (hflow : stream.Flowing) (b : Backend) (g : Generation)
    (reason : FinishReason) :
    (stream.handleOpen = false → (g.close b (.done reason) stream).log = stream.log) ∧
      (stream.handleOpen = true → ∃ pieces,
        (g.close b (.done reason) stream).log = stream.log ++ pieces ++ [.done reason] ∧
          (pieces = [] ∨ ∃ text, g.Holds b text ∧ pieces = [.chunk text])) := by
  have hhandle : (g.flushTo b stream).handleOpen = stream.handleOpen :=
    (g.extends_flushTo b stream).handleOpen
  have hlog : (g.close b (.done reason) stream).log =
      if stream.handleOpen then (g.flushTo b stream).log ++ [.done reason]
      else (g.flushTo b stream).log := by
    rw [← hhandle]
    exact (Generation.flowing_flushTo hflow).finish_log (.done reason)
  rw [hlog]
  rcases g.log_flushTo b stream with hsame | ⟨hopen, text, hholds, hsent⟩
  · rw [hsame]
    constructor
    · intro hclosed
      rw [if_neg (by rw [hclosed]; exact Bool.false_ne_true)]
    · intro hopen
      rw [if_pos hopen]
      exact ⟨[], by rw [List.append_nil], .inl rfl⟩
  · rw [hsent]
    constructor
    · intro hclosed
      cases hopen.symm.trans hclosed
    · intro _
      rw [if_pos hopen]
      exact ⟨[.chunk text], rfl, .inr ⟨text, hholds, rfl⟩⟩

end Streams

/-- A share of a batch is none of the sampler's business, and begins no generation. -/
theorem AfterPrefill.keeps {s s' : Session} {count : Nat} (h : AfterPrefill s count s') :
    s'.id = s.id ∧ s'.sampler = s.sampler ∧ (s.generation = none → s'.generation = none) := by
  cases h with
  | written => exact ⟨rfl, rfl, fun hidle => hidle⟩
  | lost cause =>
    rw [Session.lose_eq]
    exact ⟨rfl, rfl, fun _ => rfl⟩

/-- Writing a share moves it from the queue of its session to the row. -/
theorem Prefilled.whole {failed : Prop} {streams streams' : Streams} {s s' : Session}
    {row row' : List Token} {effects : List Effect}
    (h : Prefilled failed streams streams' s row s' row' effects) (hsucceeds : ¬ failed) :
    row' ++ s'.pending = row ++ s.pending := by
  cases h with
  | skipped => rfl
  | @written count =>
    show row ++ s.pending.take count ++ s.pending.drop count = row ++ s.pending
    rw [List.append_assoc, List.take_append_drop]
  | lost hfails => exact absurd hfails hsucceeds

namespace Worker

variable {b : Backend} {w : Worker b} {slot : Slot} {s s' : Session} {g : Generation}
  {stream : Stream} {event : StreamEvent}

/-! ### Sessions without a generation -/

/-- A session without a generation has none after the rest of the tick, and nothing was drawn from
its sampler. The decode stage leaves it alone altogether. -/
structure Rests (w : Worker b) (slot : Slot) (s s' : Session) : Prop where
  decodeStage : w.decodeStage.sessions.get? slot = some s'
  tick : w.tick.worker.sessions.get? slot = some s'
  id : s'.id = s.id
  idle : s'.generation = none
  sampler : s'.sampler = s.sampler

theorem exists_rests (hw : w.Seated) (hs : w.prefillStage.sessions.get? slot = some s)
    (hidle : s.generation = none) : ∃ s', w.Rests slot s s' := by
  have hlater : ∃ s', w.decodeStage.sessions.get? slot = some s' ∧ s'.id = s.id ∧
      s'.sampler = s.sampler ∧ s'.generation = none := by
    by_cases hslot : slot ∈ w.prefillStage.prefillShares.map Share.slot
    · obtain ⟨share, hshare, rfl⟩ := List.mem_map.mp hslot
      obtain rfl := Option.some.inj (hs.symm.trans (mem_prefillShares hshare).1)
      obtain ⟨s', hs', hafter⟩ := w.beginTick.sweep.prefill_of_share hshare
      obtain ⟨hid, hsampler, hidle'⟩ := hafter.keeps
      exact ⟨s', hs', hid, hsampler, hidle' hidle⟩
    · obtain ⟨context, hacts⟩ := w.actsOn_prefillStage
      exact ⟨s, (hacts.session slot hslot).trans hs, rfl, rfl, hidle⟩
  obtain ⟨s', hs', hid, hsampler, hidle'⟩ := hlater
  have hunserved := notMem_decodeServed_of_idle hs' hidle'
  exact ⟨s', hs', (hw.get?_tick_of_unserved hunserved).trans hs', hid, hidle', hsampler⟩

namespace Rests

variable (h : w.Rests slot s s') (hw : w.Seated)

include h hw

/-- It gets no turn of decoding. -/
theorem notMem_decoded (hsound : w.StreamsSound) : s.id ∉ w.tick.report.decoded := by
  rw [decoded_tick hw hsound, ← h.id]
  intro hmem
  have hserved := mem_decodeServed_of_decoded hmem
  exact hw.decodeStage.notMem_ids Prod.snd (fun _ hentry => (mem_decodeServed hentry).1)
    h.decodeStage (notMem_decodeServed_of_idle h.decodeStage h.idle) hserved

/-- Neither of the later stages reports an end in its name. -/
theorem endings_eq_nil (hs : w.prefillStage.sessions.get? slot = some s)
    (hidle : s.generation = none) :
    w.prefillStage.prefillReport.endings s.id = [] ∧
      w.decodeStage.decodeReport.endings s.id = [] := by
  constructor
  · by_cases hslot : slot ∈ w.prefillStage.prefillShares.map Share.slot
    · obtain ⟨share, hshare, rfl⟩ := List.mem_map.mp hslot
      obtain rfl := Option.some.inj (hs.symm.trans (mem_prefillShares hshare).1)
      rcases hcompute : (b.compute w.prefillStage.context w.prefillStage.prefillPlan.batch).2 with
        e | logits
      · rw [hw.prefillStage.endings_prefillReport_of_error hcompute hshare, hidle]
        rfl
      · exact endings_prefillReport_of_ok hcompute _
    · exact hw.prefillStage.endings_prefillReport_of_notMem hs hslot
  · have hunserved := notMem_decodeServed_of_idle h.decodeStage h.idle
    rw [← h.id]
    exact hw.decodeStage.endings_decodeReport_of_notMem h.decodeStage hunserved

end Rests

/-! ### The sweep -/

theorem Runs.isClosed_eq (h : w.Runs slot s g stream) :
    w.streams.isClosed g.stream = !stream.handleOpen := by
  unfold Streams.isClosed
  rw [h.stream]

theorem Runs.sweepEvent?_of_withdrawn (h : w.Runs slot s g stream)
    (hwithdrawn : g.Withdrawn stream event) :
    Turn.sweepEvent? w.streams g = some event := by
  unfold Turn.sweepEvent?
  rw [h.isClosed_eq]
  cases hwithdrawn with
  | cancelled hflag => rw [if_pos hflag]
  | abandoned hflag hhandle => simp [hflag, hhandle]

/-- A generation that is wanted goes through the sweep as it is. -/
theorem Runs.prefillStage_of_wanted (h : w.Runs slot s g stream) (hsound : w.StreamsSound)
    (hflag : g.cancelRequested = false) (hhandle : stream.handleOpen = true) :
    w.prefillStage.Runs slot s g stream := by
  have hnone : Turn.sweepEvent? w.streams g = none := by
    unfold Turn.sweepEvent?
    simp [h.isClosed_eq, hflag, hhandle]
  obtain ⟨hs, hstream⟩ :=
    w.beginTick.sweep_kept hsound.beginTick.distinct h.session h.generation h.stream hnone
  exact ⟨hs, h.generation, hstream⟩

/-- A withdrawn generation is over after the sweep, and nobody holds its stream. -/
theorem Runs.prefillStage_of_withdrawn (h : w.Runs slot s g stream) (hsound : w.StreamsSound)
    (hwithdrawn : g.Withdrawn stream event) :
    w.prefillStage.sessions.get? slot = some s.idle ∧
      w.prefillStage.Leaves slot s.id g.stream (g.close b event stream) none := by
  have hbegin := hsound.beginTick
  obtain ⟨hs, hstream⟩ := w.beginTick.sweep_ended hbegin.distinct h.session h.generation h.stream
    (h.sweepEvent?_of_withdrawn hwithdrawn)
  have hheld : w.beginTick.worker.holder slot = some g.stream := h.holder
  have hidle := holder_eq_none_of_generation hs rfl
  exact ⟨hs, hstream, w.beginTick.actsOn_sweep.unheld hbegin.distinct hheld hidle⟩

/-! ### Ticks -/

/-- What a tick makes of a generation that was withdrawn before it. -/
structure Withdraws (w : Worker b) (slot : Slot) (s : Session) (g : Generation) (stream : Stream)
    (event : StreamEvent) : Prop where
  /-- The session is there without a generation, and nothing was drawn from its sampler. -/
  ended : ∃ s', w.tick.worker.sessions.get? slot = some s' ∧ s'.id = s.id ∧ s'.generation = none ∧
    s'.sampler = s.sampler
  undecoded : s.id ∉ w.tick.report.decoded
  /-- The report has one end of the session, and it is this one. -/
  reported : w.tick.report.endings s.id = [event]
  /-- Who still listens gets the text that was held back, or nothing of it, and then the end. -/
  told : ∃ stream', w.tick.worker.streams.get? g.stream = some stream' ∧
    (stream.handleOpen = false → stream'.log = stream.log) ∧
    (stream.handleOpen = true → ∃ pieces, stream'.log = stream.log ++ pieces ++ [event] ∧
      (pieces = [] ∨ ∃ text, g.Holds b text ∧ pieces = [.chunk text]))

/-- **A withdrawn generation is over in one tick.** -/
theorem Runs.withdraws (h : w.Runs slot s g stream) (hw : w.Seated) (hsound : w.StreamsSound)
    (hwithdrawn : g.Withdrawn stream event) : w.Withdraws slot s g stream event := by
  obtain ⟨hs, hleaves⟩ := h.prefillStage_of_withdrawn hsound hwithdrawn
  obtain ⟨s', hrests⟩ := exists_rests hw hs rfl
  obtain ⟨hprefill, hdecode⟩ := hrests.endings_eq_nil hw hs rfl
  constructor
  case ended => exact ⟨s', hrests.tick, hrests.id, hrests.idle, hrests.sampler⟩
  case undecoded => exact hrests.notMem_decoded hw hsound
  case reported =>
    have hsweep := hw.endings_sweep h.session
    rw [h.generation, Option.bind_some, h.sweepEvent?_of_withdrawn hwithdrawn] at hsweep
    rw [endings_tick hw hsound, hsweep]
    show _ ++ w.prefillStage.prefillReport.endings s.idle.id ++
      w.decodeStage.decodeReport.endings s.idle.id = _
    rw [hprefill, hdecode]
    rfl
  case told =>
    have hrest : w.tick.worker.Leaves slot s.id g.stream (g.close b event stream) none :=
      hleaves.of_stepInvariant fun hP hstage => hP.decode (hP.prefill hstage)
    obtain ⟨reason, rfl⟩ : ∃ reason, event = .done reason := by
      cases hwithdrawn with
      | cancelled => exact ⟨.cancelled, rfl⟩
      | abandoned => exact ⟨.sinkUnavailable, rfl⟩
    exact ⟨_, hrest.1, (h.flowing hsound).log_close b g reason⟩

section ByteModel

variable {params : ByteModel.Params} {w : Worker (ByteModel.backend params)}

theorem whole_decodeStage (hw : w.Seated) (hsound : w.StreamsSound)
    (hs : w.prefillStage.sessions.get? slot = some s)
    (hs' : w.decodeStage.sessions.get? slot = some s')
    (hkept : slot ∈ w.prefillStage.prefillShares.map Share.slot → ¬ w.prefillStage.PrefillFails) :
    w.decodeStage.row slot ++ s'.pending = w.prefillStage.row slot ++ s.pending := by
  by_cases hslot : slot ∈ w.prefillStage.prefillShares.map Share.slot
  · have hsucceeds := hkept hslot
    obtain ⟨s'', hs'', hprefilled⟩ := w.beginTick.sweep.prefill_at hw.prefillStage
      hsound.prefillStage.distinct hs
    obtain rfl := Option.some.inj (hs'.symm.trans hs'')
    exact hprefilled.whole hsucceeds
  · obtain ⟨context, hacts⟩ := w.actsOn_prefillStage
    have hsame := (hacts.session slot hslot).trans hs
    obtain rfl := Option.some.inj (hs'.symm.trans hsame)
    have hrow : w.decodeStage.row slot = w.prefillStage.row slot :=
      w.beginTick.sweep.row_prefill_of_notMem hslot
    rw [hrow]

/-- **Nothing of a session without a generation gets lost in a tick**, unless a prefill call with a
share of it fails. -/
theorem Rests.whole_tick (h : w.Rests slot s s') (hw : w.Seated) (hsound : w.StreamsSound)
    (hs : w.prefillStage.sessions.get? slot = some s)
    (hkept : slot ∈ w.prefillStage.prefillShares.map Share.slot → ¬ w.prefillStage.PrefillFails) :
    w.tick.worker.row slot ++ s'.pending = w.row slot ++ s.pending := by
  have hunserved := notMem_decodeServed_of_idle h.decodeStage h.idle
  have hdecode : w.tick.worker.row slot = w.decodeStage.row slot :=
    w.beginTick.sweep.prefill.row_decode_of_notMem hunserved
  have hsweep : w.prefillStage.row slot = w.row slot := row_sweep w.beginTick slot
  rw [hdecode, whole_decodeStage hw hsound hs h.decodeStage hkept, hsweep]

end ByteModel

/-! ### Runs -/

/-- **Cancellations and lost consumers take effect in one tick.** On any backend and after any run,
let a session generate when a tick begins:

* if its generation is withdrawn, it is over after the tick, and what the tick draws, reports and
  says of it is as in `Worker.Withdraws`;
* if it is not, then the sweep leaves the session and the stream as they are.

Over the byte model the row of a session whose generation was withdrawn, followed by its queue, is
after the tick what it was before it, unless the tick submits a prefill batch with tokens of this
session and the call fails. -/
theorem withdrawn_run :
    (∀ (b : Backend) (worker : WorkerId) (context : b.Context) (config : WorkerConfig)
      (actions : List Action) (slot : Slot) (s : Session) (g : Generation),
      let w := (start worker context config).run actions
      w.sessions.get? slot = some s → s.generation = some g →
      ∃ stream, w.streams.get? g.stream = some stream ∧
        (∀ event, g.Withdrawn stream event → w.Withdraws slot s g stream event) ∧
        (g.cancelRequested = false → stream.handleOpen = true →
          w.prefillStage.Runs slot s g stream)) ∧
    ∀ (params : ByteModel.Params) (worker : WorkerId) (context : ByteModel.Context)
      (config : WorkerConfig) (actions : List Action) (slot : Slot) (s : Session) (g : Generation)
      (stream : Stream) (event : StreamEvent),
      let w : Worker (ByteModel.backend params) := (start worker context config).run actions
      w.Runs slot s g stream → g.Withdrawn stream event →
      (∀ plan e, w.prefillStage.planPrefill = .ok (some plan) →
        (ByteModel.compute params w.prefillStage.context plan.batch).2 = .error e →
          slot ∉ plan.shares.map Prod.fst) →
      ∃ s', w.tick.worker.sessions.get? slot = some s' ∧
        w.tick.worker.row slot ++ s'.pending = w.row slot ++ s.pending := by
  constructor
  · intro b worker context config actions slot s g w hs hg
    have hw : w.Seated := seated_run worker context config actions
    have hsound : w.StreamsSound := streamsSound_run worker context config actions
    obtain ⟨stream, hstream, -⟩ :=
      hsound.flowing slot g.stream (holder_eq_some_iff.mpr ⟨s, g, hs, hg, rfl⟩)
    have hruns : w.Runs slot s g stream := ⟨hs, hg, hstream⟩
    exact ⟨stream, hstream, fun event hwithdrawn => hruns.withdraws hw hsound hwithdrawn,
      fun hflag hhandle => hruns.prefillStage_of_wanted hsound hflag hhandle⟩
  · intro params worker context config actions slot s g stream event w hruns hwithdrawn hkept
    have hw : w.Seated := seated_run (b := ByteModel.backend params) worker context config actions
    have hsound : w.StreamsSound :=
      streamsSound_run (b := ByteModel.backend params) worker context config actions
    obtain ⟨hs, -⟩ := hruns.prefillStage_of_withdrawn hsound hwithdrawn
    obtain ⟨s', hrests⟩ := exists_rests hw hs rfl
    refine ⟨s', hrests.tick, hrests.whole_tick hw hsound hs fun hslot hfails => ?_⟩
    obtain ⟨e, hfails⟩ := hfails
    have hslots : w.prefillStage.prefillSlots ≠ [] := by
      intro hnone
      rw [prefillShares_of_prefillSlots hnone] at hslot
      exact List.not_mem_nil hslot
    have hplan : w.prefillStage.planPrefill = .ok (some w.prefillStage.prefillPlan) := by
      rw [planPrefill_eq, if_neg hslots]
    refine hkept _ e hplan hfails ?_
    rw [prefillPlan, List.map_map]
    exact hslot

/-- A session whose generation is cancelled while the text of a token is held back. -/
def cancelledHalves : List Action :=
  [.command (.createSession ⟨1⟩ {}), .command (.appendInput ⟨1⟩ "x"),
    .command (.generate ⟨1⟩ 3 3), .tick, .command (.cancel ⟨1⟩)]

/-- A session with three tokens of input, whose consumer is gone before anything is written. -/
def abandonedInput : List Action :=
  [.command (.createSession ⟨1⟩ {}), .command (.appendInput ⟨1⟩ "abc"),
    .command (.generate ⟨1⟩ 3 3), .drop 0]

/-- The first session says what it holds and that it was cancelled; the second one has two of its
tokens written in the tick in which its generation ends. -/
theorem withdrawn_run_pair :
    let w := halvesWorker.run cancelledHalves
    let v : Worker (ByteModel.backend {}) :=
      (start ⟨0⟩ (ByteModel.Context.mk [[]]) {}).run abandonedInput
    (∃ s g stream, w.Runs ⟨0⟩ s g stream ∧ g.Withdrawn stream (.done .cancelled) ∧
      g.Holds halves "\uFFFD" ∧ w.Withdraws ⟨0⟩ s g stream (.done .cancelled)) ∧
    (∃ s g stream s', v.Runs ⟨0⟩ s g stream ∧ g.Withdrawn stream (.done .sinkUnavailable) ∧
      v.prefillStage.prefillPlan.shares = [(⟨0⟩, 2)] ∧
      v.tick.worker.sessions.get? ⟨0⟩ = some s' ∧
      v.tick.worker.row ⟨0⟩ ++ s'.pending = [97, 98, 99]) := by
  intro w v
  obtain ⟨hany, hbytes⟩ := withdrawn_run
  constructor
  -- The cancelled generation holds a byte that is no character by itself.
  · let g : Generation :=
      { budget := 2, produced := 1, stream := 0, cancelRequested := true,
        decoder := { held := [0] } }
    let s : Session :=
      { id := ⟨1⟩, slot := ⟨0⟩, position := 1, pending := [0],
        sampler := { Sampler.ofConfig {} with draws := 1 }, generation := some g }
    have hs : w.sessions.get? ⟨0⟩ = some s := by decide +kernel
    have hholds : g.Holds halves "\uFFFD" := ⟨by decide, by decide +kernel⟩
    have hflag : g.cancelRequested = true := rfl
    obtain ⟨stream, hstream, hover, -⟩ := hany halves ⟨0⟩ () {} cancelledHalves ⟨0⟩ s g hs rfl
    exact ⟨s, g, stream, ⟨hs, rfl, hstream⟩, .cancelled hflag, hholds, hover _ (.cancelled hflag)⟩
  -- The abandoned one has three letters before it, of which the tick writes two.
  · let g : Generation := { budget := 3, stream := 0 }
    let s : Session :=
      { id := ⟨1⟩, slot := ⟨0⟩, pending := [97, 98, 99], sampler := .ofConfig {},
        generation := some g }
    let stream : Stream := { session := ⟨1⟩, capacity := 3, handleOpen := false }
    have hs : v.sessions.get? ⟨0⟩ = some s := by decide +kernel
    have hstream : v.streams.get? 0 = some stream := by decide +kernel
    have hruns : v.Runs ⟨0⟩ s g stream := ⟨hs, rfl, hstream⟩
    have hwithdrawn : g.Withdrawn stream (.done .sinkUnavailable) := .abandoned rfl rfl
    have hsucceeds : (ByteModel.compute {} v.prefillStage.context
        v.prefillStage.prefillPlan.batch).2.toOption.isSome = true := by
      decide +kernel
    -- The call succeeds, so no share of the session is lost.
    have hkept : ∀ plan e, v.prefillStage.planPrefill = .ok (some plan) →
        (ByteModel.compute {} v.prefillStage.context plan.batch).2 = .error e →
          (⟨0⟩ : Slot) ∉ plan.shares.map Prod.fst := by
      intro plan e hplan hfails
      obtain rfl := eq_prefillPlan hplan
      rw [hfails] at hsucceeds
      cases hsucceeds
    obtain ⟨s', hs', hwhole⟩ := hbytes {} ⟨0⟩ (ByteModel.Context.mk [[]]) {} abandonedInput ⟨0⟩ s g
      stream (.done .sinkUnavailable) hruns hwithdrawn hkept
    have hrow : v.row ⟨0⟩ = [] := by decide +kernel
    change _ = v.row ⟨0⟩ ++ _ at hwhole
    rw [hrow] at hwhole
    exact ⟨s, g, stream, s', hruns, hwithdrawn, by decide +kernel, hs', hwhole⟩

end Worker

end Turnwise
