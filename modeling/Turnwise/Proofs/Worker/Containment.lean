import Turnwise.Proofs.Worker.Generations
import Turnwise.Proofs.Worker.Report

/-!
# Failed calls are contained

A batch mixes the rows of many sessions, so a call that fails concerns many sessions at once. What a
failure costs each of them is bounded: a failed prefill call takes the tokens that it was to write,
and a failed decode call takes nothing (`Worker.contained_run`). Either ends the generations of the
batch with the error of the call, which is the last event of their streams and what the report says
of them. Sessions outside of the batch are left alone, and so is the rest of the tick: the sessions
in a failed prefill batch were not waiting for a token, so the decode stage serves the sessions that
it would have served.

The two stages may fail in one tick. No generation is in both batches, because one that has lost
input is over before the decode stage plans its batch.
-/

namespace Turnwise

/-- A session that has lost input keeps all else but its generation. Without one it keeps the cause
for the next. -/
theorem Session.lose_eq (s : Session) (cause : String) (count : Nat) :
    s.lose cause count =
      { s with
        pending := s.pending.drop count
        generation := none
        inputError := if s.generation.isSome then s.inputError else some cause } := by
  unfold lose discardPending idle
  cases hg : s.generation with
  | none => rfl
  | some g => rfl

namespace Worker

variable {b : Backend} {w : Worker b} {slot : Slot} {s : Session} {g : Generation}
  {stream : Stream} {e : Error} {share : Share}

/-! ### Prefill -/

/-- A share leaves the last pending token. -/
theorem count_lt_of_mem_prefillShares (h : share ∈ w.prefillShares) :
    share.count < share.session.pending.length := by
  have hpos := prefillReady_pos_of_mem_prefillShares h
  have hcount := (mem_prefillShares h).2
  unfold Session.prefillReady at hpos hcount
  omega

/-- Who waits for a token has nothing else to write. -/
theorem not_decodeReady_of_mem_prefillShares (h : share ∈ w.prefillShares) :
    share.session.decodeReady ≠ true := by
  intro hready
  have hpos := prefillReady_pos_of_mem_prefillShares h
  rw [Session.prefillReady, Session.pending_of_decodeReady hready] at hpos
  exact Nat.lt_irrefl 0 hpos

/-- The prefill stage, as a step from `Worker.prefillStage` to `Worker.decodeStage`. -/
theorem actsOn_prefillStage (w : Worker b) :
    ∃ context, ActsOn (w.prefillStage.prefillShares.map Share.slot)
      { w.prefillStage with context, prefillCursor := w.prefillStage.prefillPlan.cursor }
      w.decodeStage :=
  w.beginTick.sweep.actsOn_prefill

/-- What a failed prefill call leaves of a session in its batch. -/
theorem get?_decodeStage_of_lost
    (hfails : (b.compute w.prefillStage.context w.prefillStage.prefillPlan.batch).2 = .error e)
    (hshare : share ∈ w.prefillStage.prefillShares) :
    w.decodeStage.sessions.get? share.slot = some (share.session.lose e.message share.count) :=
  (Turn.prefill_lost w.beginTick.sweep hfails hshare).1

/-- A session that has lost input is not served in the same tick. -/
theorem notMem_decodeServed_of_lost
    (hfails : (b.compute w.prefillStage.context w.prefillStage.prefillPlan.batch).2 = .error e)
    (hshare : share ∈ w.prefillStage.prefillShares) :
    share.slot ∉ w.decodeStage.decodeServed.map Prod.fst :=
  notMem_decodeServed_of_idle (get?_decodeStage_of_lost hfails hshare) (Session.generation_lose ..)

/-- **The tick goes on after a failed prefill call**: the decode stage submits what it would have
submitted before the call. -/
theorem planDecode_of_prefill_error
    (hfails : (b.compute w.prefillStage.context w.prefillStage.prefillPlan.batch).2 = .error e) :
    w.decodeStage.planDecode = w.prefillStage.planDecode := by
  obtain ⟨context, hacts⟩ := w.actsOn_prefillStage
  refine planDecode_congr hacts.config hacts.decodeCursor fun slot s hready => ?_
  by_cases hslot : slot ∈ w.prefillStage.prefillShares.map Share.slot
  -- A session that has a share is not ready before the call, and does not generate after it.
  · obtain ⟨share, hshare, rfl⟩ := List.mem_map.mp hslot
    obtain ⟨g, hg, -⟩ := Session.active_of_decodeReady hready
    have hlost := get?_decodeStage_of_lost hfails hshare
    constructor
    · intro hs
      obtain rfl := Option.some.inj (hlost.symm.trans hs)
      exact nomatch (Session.generation_lose ..).symm.trans hg
    · intro hs
      obtain rfl := Option.some.inj ((mem_prefillShares hshare).1.symm.trans hs)
      exact absurd hready (not_decodeReady_of_mem_prefillShares hshare)
  · exact iff_of_eq (congrArg (· = some s) (hacts.session slot hslot))

/-! ### Reports -/

/-- The sweep has not ended a generation that is there after it. -/
theorem Runs.endings_sweep (h : w.prefillStage.Runs slot s g stream) (hw : w.Seated)
    (hsound : w.StreamsSound) :
    (TickReport.gather w.sweepNews w.sessions.toList).endings s.id = [] := by
  obtain ⟨s₀, hs₀, -⟩ := w.beginTick.actsOn_sweep.get?_of_get? h.session
  obtain ⟨s', hs', hswept⟩ := w.beginTick.sweep_at hsound.beginTick.distinct hs₀
  obtain rfl := Option.some.inj (h.session.symm.trans hs')
  cases hswept with
  | kept hkeep => exact (hw.endings_sweep hs₀).trans (congrArg Option.toList hkeep)
  | ended => exact nomatch h.generation

/-- A failed prefill call has not ended a generation that is there after it. -/
theorem Runs.endings_prefillReport (h : w.decodeStage.Runs slot s g stream) (hw : w.Seated)
    (hsound : w.StreamsSound) : w.prefillStage.prefillReport.endings s.id = [] := by
  obtain ⟨s₁, hruns, hid, hkept⟩ :=
    w.beginTick.sweep.runs_before_prefill hsound.prefillStage.distinct h
  rw [← hid]
  rcases hkept with hsucceeds | hslot
  · rcases hcompute : (b.compute w.prefillStage.context w.prefillStage.prefillPlan.batch).2 with
      e | logits
    · exact absurd hcompute (hsucceeds e)
    · exact endings_prefillReport_of_ok hcompute s₁.id
  · exact hw.prefillStage.endings_prefillReport_of_notMem hruns.session hslot

/-- A generation that loses input is reported once, with the error of the call. -/
theorem Runs.endings_of_lost (h : w.prefillStage.Runs share.slot share.session g stream)
    (hw : w.Seated) (hsound : w.StreamsSound)
    (hfails : (b.compute w.prefillStage.context w.prefillStage.prefillPlan.batch).2 = .error e)
    (hshare : share ∈ w.prefillStage.prefillShares) :
    w.tick.report.endings share.session.id = [.error e.message] := by
  have hlost := get?_decodeStage_of_lost hfails hshare
  have hid : (share.session.lose e.message share.count).id = share.session.id := by
    rw [Session.lose_eq]
  have hdecode := hw.decodeStage.endings_decodeReport_of_notMem hlost
    (notMem_decodeServed_of_lost hfails hshare)
  rw [hid] at hdecode
  rw [endings_tick hw hsound, h.endings_sweep hw hsound,
    hw.prefillStage.endings_prefillReport_of_error hfails hshare, hdecode, h.generation]
  rfl

/-! ### Decode -/

/-- The call of a decode batch fails, and this is what the generations are told: the model returns
an error, or it does not return one row of logits for each owner. -/
inductive LosesDecode (w : Worker b) (batch : Batch) : String → Prop
  | failed {e : Error} (h : (b.compute w.context batch).2 = .error e) :
      LosesDecode w batch e.message
  | miscounted {rows : List Logits} (h : (b.compute w.context batch).2 = .ok rows)
      (hcount : rows.length ≠ batch.owners.length) :
      LosesDecode w batch <| Error.message <| .computeFailure
        s!"model returned {rows.length} logit rows for {batch.owners.length} requested"

theorem LosesDecode.assignRows {batch : Batch} {cause : String} (h : w.LosesDecode batch cause) :
    ∃ e, (b.compute w.context batch).2.bind batch.assignRows = .error e ∧ e.message = cause := by
  cases h with
  | @failed e h => exact ⟨e, by rw [h]; rfl, rfl⟩
  | @miscounted rows h hcount =>
    refine ⟨_, ?_, rfl⟩
    rw [h]
    show batch.assignRows rows = _
    rw [Batch.assignRows, if_neg hcount]

/-- The decode stage, as a step from `Worker.decodeStage` to the end of the tick. -/
theorem Seated.actsOn_decodeStage (hw : w.Seated) :
    ∃ context, ActsOn (w.decodeStage.decodeServed.map Prod.fst)
      { w.decodeStage with context, decodeCursor := w.decodeStage.decodePlan.cursor }
      w.tick.worker := by
  have hstage : w.beginTick.sweep.prefill.worker = w.decodeStage := rfl
  have hseated : w.beginTick.sweep.prefill.worker.Seated := hw.decodeStage
  have hacts := Turn.actsOn_decode hseated
  rw [hstage, ← tick] at hacts
  exact hacts

/-- Whom the decode stage does not serve is after the tick as before that stage. -/
theorem Seated.get?_tick_of_unserved (hw : w.Seated)
    (hslot : slot ∉ w.decodeStage.decodeServed.map Prod.fst) :
    w.tick.worker.sessions.get? slot = w.decodeStage.sessions.get? slot := by
  obtain ⟨context, hacts⟩ := hw.actsOn_decodeStage
  exact hacts.session slot hslot

/-- With a row for each owner the decode stage serves them all, and the report says so. -/
theorem decoded_tick_of_rows (hw : w.Seated) (hsound : w.StreamsSound) {rows : List Logits}
    (hrows : (b.compute w.decodeStage.context w.decodeStage.decodePlan.batch).2 = .ok rows)
    (hlength : rows.length = w.decodeStage.decodePlan.batch.owners.length) :
    w.tick.report.decoded = w.decodeStage.decodePlan.batch.owners := by
  have hassigned : (b.compute w.decodeStage.context w.decodeStage.decodePlan.batch).2.bind
      w.decodeStage.decodePlan.batch.assignRows =
        .ok (w.decodeStage.decodePlan.batch.owners.zip rows) := by
    rw [hrows]
    exact if_pos hlength
  rw [decoded_tick hw hsound, decoded_decodeReport_of_ok hassigned, owners_decodePlan]

/-- Who is served generates, and somebody listens. -/
theorem StreamsSound.runs_of_served (hsound : w.StreamsSound)
    (h : (slot, s) ∈ w.decodeStage.decodeServed) :
    ∃ g stream, w.decodeStage.Runs slot s g stream ∧ stream.handleOpen = true := by
  obtain ⟨hs, hready⟩ := mem_decodeServed h
  obtain ⟨g, hg, -⟩ := Session.active_of_decodeReady hready
  obtain ⟨stream, hstream, -⟩ := hsound.decodeStage.flowing slot g.stream
    (holder_eq_some_iff.mpr ⟨s, g, hs, hg, rfl⟩)
  have hruns : w.decodeStage.Runs slot s g stream := ⟨hs, hg, hstream⟩
  obtain ⟨s₁, hruns₁, -⟩ :=
    w.beginTick.sweep.runs_before_prefill hsound.prefillStage.distinct hruns
  exact ⟨g, stream, hruns, Runs.listened hruns₁ hsound⟩

/-- **A failed decode call** ends the generations of its batch and does nothing else to their
sessions. -/
theorem decode_lost (hw : w.Seated) (hsound : w.StreamsSound)
    (hfails : (b.compute w.decodeStage.context w.decodeStage.decodePlan.batch).2.bind
      w.decodeStage.decodePlan.batch.assignRows = .error e)
    (hserved : (slot, s) ∈ w.decodeStage.decodeServed) :
    w.tick.worker.sessions.get? slot = some { s with generation := none } ∧
      ∃ (g : Generation) (stream stream' : Stream),
        w.decodeStage.Runs slot s g stream ∧
        w.tick.worker.streams.get? g.stream = some stream' ∧
        stream'.log = stream.log ++ [.error e.message] ∧
        w.tick.report.endings s.id = [.error e.message] := by
  obtain ⟨g, stream, hruns, hopen⟩ := hsound.runs_of_served hserved
  obtain ⟨s₁, hruns₁, hid, -⟩ :=
    w.beginTick.sweep.runs_before_prefill hsound.prefillStage.distinct hruns
  obtain ⟨hs', hstream'⟩ := Turn.decode_failed (t := w.beginTick.sweep.prefill) hw.decodeStage
    hsound.decodeStage.distinct hfails hserved hruns.generation hruns.stream
  rw [← tick] at hs' hstream'
  refine ⟨hs', g, stream, _, hruns, hstream', ?_, ?_⟩
  · show (stream.finish (.error e.message)).log = _
    rw [(hruns.flowing hsound.decodeStage).finish_log, if_pos hopen]
  · have hsweep := Runs.endings_sweep hruns₁ hw hsound
    rw [hid] at hsweep
    rw [endings_tick hw hsound, hsweep, hruns.endings_prefillReport hw hsound,
      hw.decodeStage.endings_decodeReport_of_error hfails hserved]
    rfl

/-- **A failed prefill call** takes the tokens of its batch, and the generations with them, and what
it leaves of these sessions is there after the tick. -/
theorem prefill_lost (hw : w.Seated) (hsound : w.StreamsSound)
    (hfails : (b.compute w.prefillStage.context w.prefillStage.prefillPlan.batch).2 = .error e)
    (hshare : share ∈ w.prefillStage.prefillShares) :
    w.tick.worker.sessions.get? share.slot = w.decodeStage.sessions.get? share.slot ∧
      ∀ g, share.session.generation = some g → ∃ stream stream',
        w.prefillStage.streams.get? g.stream = some stream ∧
        w.tick.worker.streams.get? g.stream = some stream' ∧
        stream'.log = stream.log ++ [.error e.message] ∧
        w.tick.report.endings share.session.id = [.error e.message] := by
  refine ⟨hw.get?_tick_of_unserved (notMem_decodeServed_of_lost hfails hshare), fun g hg => ?_⟩
  have hs := (mem_prefillShares hshare).1
  obtain ⟨stream, hstream, -⟩ := hsound.prefillStage.flowing share.slot g.stream
    (holder_eq_some_iff.mpr ⟨share.session, g, hs, hg, rfl⟩)
  have hruns : w.prefillStage.Runs share.slot share.session g stream := ⟨hs, hg, hstream⟩
  obtain ⟨stream', hstream', hlog⟩ := hruns.log_of_lost hsound hfails hshare
  exact ⟨stream, stream', hstream, hstream', hlog, hruns.endings_of_lost hw hsound hfails hshare⟩

/-! ### Runs -/

/-- **Failed calls are contained.** On any backend, after any run, let a tick begin, and let
`w.prefillStage` and `w.decodeStage` be the worker before the second and before the third stage of
it.

If a prefill batch is submitted and the call fails with `e`:
* every session in the batch loses just the tokens that were to be written, which are not all it
  has, and nothing gives it more in this tick; its position and its sampler stay;
* if it generates, then its stream has the error as its last event, and that is all that the report
  says of its generations; if it does not, it keeps the cause;
* every other session is after the stage as it was before it;
* the decode stage submits the batch that it would have submitted before the call, and if it gets a
  row for each owner, then the report says so.

If a decode batch is submitted and the call fails, or does not return a row for each owner, and the
generations are told so as `cause`:
* every session in the batch keeps its position, its queue and its sampler; its generation is over,
  its stream has the error as its last event, and that is all that the report says of it;
* every other session is after the stage as it was before it. -/
theorem contained_run (id : WorkerId) (context : b.Context) (config : WorkerConfig)
    (actions : List Action) :
    let w := (start id context config).run actions
    (∀ plan e, w.prefillStage.planPrefill = .ok (some plan) →
      (b.compute w.prefillStage.context plan.batch).2 = .error e →
      (∀ slot count, (slot, count) ∈ plan.shares → ∃ s s',
        w.prefillStage.sessions.get? slot = some s ∧ count < s.pending.length ∧
        s' =
          { s with
            pending := s.pending.drop count
            generation := none
            inputError := if s.generation.isSome then s.inputError else some e.message } ∧
        w.decodeStage.sessions.get? slot = some s' ∧
        w.tick.worker.sessions.get? slot = some s' ∧
        ∀ g, s.generation = some g → ∃ stream stream',
          w.prefillStage.streams.get? g.stream = some stream ∧
          w.tick.worker.streams.get? g.stream = some stream' ∧
          stream'.log = stream.log ++ [.error e.message] ∧
          w.tick.report.endings s.id = [.error e.message]) ∧
      (∀ slot, slot ∉ plan.shares.map Prod.fst →
        w.decodeStage.sessions.get? slot = w.prefillStage.sessions.get? slot) ∧
      w.decodeStage.planDecode = w.prefillStage.planDecode ∧
      ∀ plan' rows, w.decodeStage.planDecode = .ok (some plan') →
        (b.compute w.decodeStage.context plan'.batch).2 = .ok rows →
        rows.length = plan'.batch.owners.length →
          w.tick.report.decoded = plan'.batch.owners) ∧
    ∀ plan cause, w.decodeStage.planDecode = .ok (some plan) →
      w.decodeStage.LosesDecode plan.batch cause →
      (∀ owner ∈ plan.batch.owners, ∃ slot s g stream stream',
        w.decodeStage.find? owner = some (slot, s) ∧
        w.tick.worker.sessions.get? slot = some { s with generation := none } ∧
        s.generation = some g ∧
        w.decodeStage.streams.get? g.stream = some stream ∧
        w.tick.worker.streams.get? g.stream = some stream' ∧
        stream'.log = stream.log ++ [.error cause] ∧
        w.tick.report.endings owner = [.error cause]) ∧
      ∀ slot s, w.decodeStage.sessions.get? slot = some s → s.id ∉ plan.batch.owners →
        w.tick.worker.sessions.get? slot = some s := by
  intro w
  have hw : w.Seated := seated_run id context config actions
  have hsound : w.StreamsSound := streamsSound_run id context config actions
  constructor
  -- The prefill call fails.
  · intro plan e hplan hfails
    obtain rfl := eq_prefillPlan hplan
    refine ⟨fun slot count hmem => ?_, fun slot hslot => ?_, planDecode_of_prefill_error hfails, ?_⟩
    · obtain ⟨share, hshare, heq⟩ := List.mem_map.mp hmem
      obtain ⟨rfl, rfl⟩ := Prod.mk.inj heq
      obtain ⟨hlast, htold⟩ := prefill_lost hw hsound hfails hshare
      have hlost := get?_decodeStage_of_lost hfails hshare
      rw [Session.lose_eq] at hlost
      exact ⟨share.session, _, (mem_prefillShares hshare).1, count_lt_of_mem_prefillShares hshare,
        rfl, hlost, hlast.trans hlost, htold⟩
    -- Any other session is none that the stage is about.
    · obtain ⟨context, hacts⟩ := w.actsOn_prefillStage
      rw [prefillPlan, List.map_map] at hslot
      exact hacts.session slot hslot
    · intro plan' rows hplan' hrows hlength
      obtain rfl := eq_decodePlan hplan'
      exact decoded_tick_of_rows hw hsound hrows hlength
  -- The decode call fails, in either way.
  · intro plan cause hplan hlost
    obtain rfl := eq_decodePlan hplan
    obtain ⟨e, hfails, rfl⟩ := hlost.assignRows
    refine ⟨fun owner howner => ?_, fun slot s hs howner => ?_⟩
    -- An owner of the batch is one of the sessions that are served.
    · rw [owners_decodePlan] at howner
      obtain ⟨⟨slot, s⟩, hserved, rfl⟩ := List.mem_map.mp howner
      obtain ⟨hs', g, stream, stream', hruns, hstream', hlog, hendings⟩ :=
        decode_lost hw hsound hfails hserved
      have hfind := find?_eq_some_iff.mpr ⟨hw.decodeStage.find?_id hruns.session, hruns.session⟩
      exact ⟨slot, s, g, stream, stream', hfind, hs', hruns.generation, hruns.stream, hstream',
        hlog, hendings⟩
    -- A session that is served owns a row of the batch, and this one does not.
    · refine (hw.get?_tick_of_unserved fun hmem => howner ?_).trans hs
      obtain ⟨⟨slot, s'⟩, hserved, rfl⟩ := List.mem_map.mp hmem
      obtain rfl := Option.some.inj (hs.symm.trans (mem_decodeServed hserved).1)
      rw [owners_decodePlan]
      exact List.mem_map.mpr ⟨_, hserved, rfl⟩

/-- Two sessions that generate. One has a byte to write that the model refuses, and the other waits
for a token after this byte. -/
def refusedPair : List Action :=
  [.command (.createSession ⟨1⟩ {}), .command (.createSession ⟨2⟩ {}),
    .command (.appendInput ⟨1⟩ "xa"), .command (.appendInput ⟨2⟩ "x"),
    .command (.generate ⟨1⟩ 4 2), .command (.generate ⟨2⟩ 4 2)]

/-- Both calls of a tick fail. The first session loses the byte, and the second keeps it. -/
theorem contained_run_pair :
    let backend := ByteModel.backend { failOn := some 120 }
    let w : Worker backend := (start ⟨0⟩ (ByteModel.Context.mk [[], []]) {}).run refusedPair
    (w.tick.worker.sessions.get? ⟨0⟩).map Session.pending = some [97] ∧
      w.tick.report.endings ⟨1⟩ = [.error "Compute failure: injected failure on token 120"] ∧
      (w.tick.worker.sessions.get? ⟨1⟩).map Session.pending = some [120] ∧
      w.tick.report.endings ⟨2⟩ = [.error "Compute failure: injected failure on token 120"] := by
  intro backend w
  obtain ⟨hprefill, hdecode⟩ :=
    contained_run (b := backend) ⟨0⟩ (ByteModel.Context.mk [[], []]) {} refusedPair
  have hfirst : w.prefillStage.sessions.get? ⟨0⟩ = some
      { id := ⟨1⟩, slot := ⟨0⟩, pending := [120, 97], sampler := .ofConfig {},
        generation := some { stream := 0, budget := 4 } } := by
    decide +kernel
  have hsecond : w.decodeStage.find? ⟨2⟩ = some (⟨1⟩,
      { id := ⟨2⟩, slot := ⟨1⟩, pending := [120], sampler := .ofConfig {},
        generation := some { stream := 1, budget := 4 } }) := by
    decide +kernel
  have hcause : s!"injected failure on token {120}" = "injected failure on token 120" := by
    decide +kernel
  have hmessage : (Error.computeFailure "injected failure on token 120").message =
      "Compute failure: injected failure on token 120" := by
    decide +kernel
  -- The model refuses the byte wherever it stands.
  have hrefused : ∀ (context : ByteModel.Context) (batch : Batch) (slot : Slot) (wantLogits : Bool),
      batch.entries = [⟨slot, 120, 0, wantLogits⟩] → slot.index < context.rows.length →
      (backend.compute context batch).2 =
        .error (.computeFailure "injected failure on token 120") := by
    intro context batch slot wantLogits hentries hslot
    have htoken : 120 < ByteModel.vocabularySize := by decide
    have hfail : ByteModel.Params.failOn { failOn := some 120 } = some 120 := rfl
    rw [← hcause]
    exact congrArg Prod.snd (ByteModel.compute_of_failOn hentries hslot htoken hfail)
  have hplan : w.prefillStage.planPrefill = .ok (some w.prefillStage.prefillPlan) := by
    rw [planPrefill_eq, if_neg (by decide +kernel)]
  have hplan' : w.decodeStage.planDecode = .ok (some w.decodeStage.decodePlan) := by
    rw [planDecode_eq, if_neg (by decide +kernel)]
  -- Each of the two batches has one entry, and it holds the byte.
  have hfails := hrefused w.prefillStage.context w.prefillStage.prefillPlan.batch ⟨0⟩ false
    (by decide +kernel) (by decide +kernel)
  have hfails' := hrefused w.decodeStage.context w.decodeStage.decodePlan.batch ⟨1⟩ true
    (by decide +kernel) (by decide +kernel)
  -- Now the theorem says what the two calls leave of the sessions.
  obtain ⟨hlost, -⟩ := hprefill _ _ hplan hfails
  obtain ⟨hkept, -⟩ := hdecode _ _ hplan' (.failed hfails')
  obtain ⟨s₁, s₁', hs₁, -, rfl, -, hs₁', hends₁⟩ := hlost ⟨0⟩ 1 (by decide +kernel)
  obtain rfl := Option.some.inj (hfirst.symm.trans hs₁)
  obtain ⟨-, -, -, -, -, hends₁⟩ := hends₁ _ rfl
  obtain ⟨slot, s₂, g, -, -, hs₂, hs₂', -, -, -, -, hends₂⟩ := hkept ⟨2⟩ (by decide +kernel)
  obtain ⟨rfl, rfl⟩ := Prod.mk.inj (Option.some.inj (hsecond.symm.trans hs₂))
  rw [hmessage] at hends₁ hends₂
  rw [hs₁', hs₂']
  exact ⟨rfl, hends₁, rfl, hends₂⟩

end Worker

end Turnwise
