import Turnwise.Proofs.Worker.LostInput
import Turnwise.Proofs.Worker.Quiescence
import Turnwise.Proofs.Worker.Withdrawal

/-!
# Ticks that report nothing

A worker waits before its next tick if a tick reports nothing (`TickReport.didWork`). A report is
empty just if the reports of the three stages are, and for each of them it can be said when this is
so:

* the sweep reports nothing if it ends no generation, and then it does nothing;
* the decode stage reports nothing if it serves nobody, and then it does nothing
  (`Worker.decodeReport_eq_empty_iff`);
* the prefill stage reports nothing if it serves nobody, but also if its call fails and none of the
  sessions in the batch generates (`Worker.prefillReport_eq_empty_iff`).

So there is one kind of tick that does something and does not tell: it takes input from sessions
that do not generate, and leaves them the cause (`Worker.LosesUnseen`). Every other tick without a
report does nothing but count itself (`Worker.idling_run`).
-/

namespace Turnwise

/-! ### Empty reports -/

namespace TickReport

theorem didWork_eq_false_iff {report : TickReport} : report.didWork = false ↔ report = {} := by
  obtain ⟨prefilled, decoded, finished⟩ := report
  simp [didWork, and_assoc]

theorem append_eq_empty_iff {report report' : TickReport} :
    report ++ report' = {} ↔ report = {} ∧ report' = {} := by
  obtain ⟨prefilled, decoded, finished⟩ := report
  obtain ⟨prefilled', decoded', finished'⟩ := report'
  show TickReport.mk (prefilled ++ prefilled') (decoded ++ decoded') (finished ++ finished') = {} ↔
    _
  simp only [mk.injEq, List.append_eq_nil_iff]
  tauto

theorem gather_eq_empty_iff {κ : Type} {news : κ → TickReport} {keys : List κ} :
    gather news keys = {} ↔ ∀ key ∈ keys, news key = {} := by
  induction keys with
  | nil => simp [gather]
  | cons key rest ih =>
    rw [← List.singleton_append, gather_append, append_eq_empty_iff, gather_singleton, ih,
      List.singleton_append, List.forall_mem_cons]

end TickReport

namespace Worker

open TickReport (didWork_eq_false_iff append_eq_empty_iff gather_eq_empty_iff)

variable {b : Backend} {w : Worker b} {slot : Slot} {s : Session} {g : Generation} {e : Error}

/-! ### Stages -/

theorem sweepNews_eq_empty_iff {entry : Slot × Session} :
    w.sweepNews entry = {} ↔ entry.2.generation.bind (Turn.sweepEvent? w.streams) = none := by
  unfold sweepNews
  cases entry.2.generation.bind (Turn.sweepEvent? w.streams) <;> simp

/-- Success is reported of every share, failure of those whose sessions generate. -/
theorem prefillReport_eq_empty_iff :
    w.prefillReport = {} ↔ w.prefillShares = [] ∨
      ∃ e, (b.compute w.context w.prefillPlan.batch).2 = .error e ∧
        ∀ share ∈ w.prefillShares, share.session.generation = none := by
  have hloss : ∀ cause share, lossNews cause share = {} ↔ share.session.generation = none := by
    intro cause share
    unfold lossNews
    cases share.session.generation <;> simp
  unfold prefillReport
  rcases (b.compute w.context w.prefillPlan.batch).2 with e | logits
  · simp only [gather_eq_empty_iff, hloss]
    constructor
    · intro hidle
      exact .inr ⟨e, rfl, hidle⟩
    · rintro (hnone | ⟨-, -, hidle⟩)
      · rw [hnone]
        simp
      · exact hidle
  · rw [gather_eq_empty_iff]
    constructor
    · intro hnone
      refine .inl (List.eq_nil_iff_forall_not_mem.mpr fun share hshare => ?_)
      have hempty := congrArg TickReport.prefilled (hnone share hshare)
      cases hempty
    · rintro (hnone | ⟨e, hfails, -⟩)
      · rw [hnone]
        simp
      · cases hfails

/-- Whoever is served is reported, as decoded or with the error of the call. -/
theorem decodeReport_eq_empty_iff : w.decodeReport = {} ↔ w.decodeServed = [] := by
  constructor
  · intro hempty
    rcases hresult : (b.compute w.context w.decodePlan.batch).2.bind
      w.decodePlan.batch.assignRows with e | rows
    · rw [decodeReport, hresult, gather_eq_empty_iff] at hempty
      refine List.eq_nil_iff_forall_not_mem.mpr fun entry hentry => ?_
      have hnone := congrArg TickReport.finished (hempty entry hentry)
      cases hnone
    · have hnone := decoded_decodeReport_of_ok hresult
      rw [hempty] at hnone
      exact List.map_eq_nil_iff.mp hnone.symm
  · intro hnone
    unfold decodeReport
    split
    · rw [hnone, List.zip_nil_left]
      rfl
    · rw [hnone]
      rfl

/-- **When a tick reports nothing.** -/
theorem report_tick_eq_empty_iff (hw : w.Seated) (hsound : w.StreamsSound) :
    w.tick.report = {} ↔
      (∀ slot s, w.sessions.get? slot = some s →
        s.generation.bind (Turn.sweepEvent? w.streams) = none) ∧
      w.prefillStage.prefillReport = {} ∧ w.decodeStage.decodeServed = [] := by
  rw [report_tick hw hsound, append_eq_empty_iff, append_eq_empty_iff, gather_eq_empty_iff,
    decodeReport_eq_empty_iff, and_assoc]
  refine and_congr_left' ⟨fun h slot s hs => ?_, fun h entry hentry => ?_⟩
  · exact sweepNews_eq_empty_iff.mp (h (slot, s) (SlotArena.mem_toList.mpr hs))
  · exact sweepNews_eq_empty_iff.mpr (h entry.1 entry.2 (SlotArena.mem_toList.mp hentry))

/-! ### Input that is lost unseen -/

/-- A tick takes input from sessions that do not generate, because the call with it has failed, and
does nothing else but move its prefill cursor. -/
structure LosesUnseen (w : Worker b) (plan : PrefillPlan) (e : Error) : Prop where
  submitted : w.prefillStage.planPrefill = .ok (some plan)
  nonempty : plan.batch.entries ≠ []
  failed : (b.compute w.context plan.batch).2 = .error e
  lost : ∀ slot count, (slot, count) ∈ plan.shares → ∃ s, w.sessions.get? slot = some s ∧
    s.generation = none ∧ 0 < count ∧ w.tick.worker.sessions.get? slot =
      some { s with pending := s.pending.drop count, inputError := some e.message }
  others : ∀ slot, slot ∉ plan.shares.map Prod.fst →
    w.tick.worker.sessions.get? slot = w.sessions.get? slot
  streams : w.tick.worker.streams = w.streams
  context : w.tick.worker.context = (b.compute w.context plan.batch).1
  prefillCursor : w.tick.worker.prefillCursor = plan.cursor
  decodeCursor : w.tick.worker.decodeCursor = w.decodeCursor

/-- A batch is empty only if it is for nobody. -/
theorem entries_prefillPlan_eq_nil_iff :
    w.prefillPlan.batch.entries = [] ↔ w.prefillShares = [] := by
  constructor
  · intro hnone
    have hsize : w.prefillPlan.batch.size = 0 := List.length_eq_zero_iff.mpr hnone
    rw [size_prefillPlan, List.sum_eq_zero_iff, List.forall_mem_map] at hsize
    refine List.eq_nil_iff_forall_not_mem.mpr fun share hshare => ?_
    have hpos := count_pos_of_mem_prefillShares hshare
    have hzero := hsize share hshare
    omega
  · intro hnone
    rw [prefillPlan, hnone]
    rfl

theorem entries_decodePlan_eq_nil_iff :
    w.decodePlan.batch.entries = [] ↔ w.decodeServed = [] := by
  rw [decodePlan, List.map_eq_nil_iff]

theorem planPrefill_of_prefillShares (h : w.prefillShares ≠ []) :
    w.planPrefill = .ok (some w.prefillPlan) := by
  rw [planPrefill_eq, if_neg (mt prefillShares_of_prefillSlots h)]

/-- A prefill batch is submitted and written. -/
theorem exists_planPrefill_iff :
    (∃ plan logits, w.planPrefill = .ok (some plan) ∧ plan.batch.entries ≠ [] ∧
        (b.compute w.context plan.batch).2 = .ok logits) ↔
      w.prefillShares ≠ [] ∧
        ∃ logits, (b.compute w.context w.prefillPlan.batch).2 = .ok logits := by
  constructor
  · rintro ⟨plan, logits, hplan, hentries, hcompute⟩
    obtain rfl := eq_prefillPlan hplan
    exact ⟨mt entries_prefillPlan_eq_nil_iff.mpr hentries, logits, hcompute⟩
  · rintro ⟨hshares, logits, hcompute⟩
    exact ⟨_, logits, planPrefill_of_prefillShares hshares,
      mt entries_prefillPlan_eq_nil_iff.mp hshares, hcompute⟩

/-- A decode batch is submitted. -/
theorem exists_planDecode_iff :
    (∃ plan, w.planDecode = .ok (some plan) ∧ plan.batch.entries ≠ []) ↔ w.decodeServed ≠ [] := by
  constructor
  · rintro ⟨plan, hplan, hentries⟩
    obtain rfl := eq_decodePlan hplan
    exact mt entries_decodePlan_eq_nil_iff.mpr hentries
  · intro hserved
    have hplan : w.planDecode = .ok (some w.decodePlan) := by
      rw [planDecode_eq, if_neg (mt decodeServed_of_decodeSlots hserved)]
    exact ⟨_, hplan, mt entries_decodePlan_eq_nil_iff.mp hserved⟩

/-- A failed prefill call is unseen if nobody in the batch generates. -/
theorem losesUnseen_of_prefill (hstage : w.prefillStage = w.beginTick.worker)
    (htick : w.tick = w.beginTick.prefill) (hshares : w.prefillStage.prefillShares ≠ [])
    (hfails : (b.compute w.prefillStage.context w.prefillStage.prefillPlan.batch).2 = .error e)
    (hidle : ∀ share ∈ w.prefillStage.prefillShares, share.session.generation = none) :
    w.LosesUnseen w.prefillStage.prefillPlan e := by
  rw [hstage] at hshares hfails hidle ⊢
  obtain ⟨context, hacts⟩ := w.beginTick.actsOn_prefill
  rw [← htick] at hacts
  constructor
  case submitted => rw [hstage, planPrefill_of_prefillShares hshares]
  case nonempty => exact mt entries_prefillPlan_eq_nil_iff.mp hshares
  case failed => exact hfails
  case lost =>
    intro slot count hmem
    obtain ⟨share, hshare, heq⟩ := List.mem_map.mp hmem
    obtain ⟨rfl, rfl⟩ := Prod.mk.inj heq
    -- A session of the batch loses its share and keeps the cause.
    have hnone := hidle share hshare
    obtain ⟨hlost, -⟩ := w.beginTick.prefill_lost hfails hshare
    rw [← htick, Session.lose_of_idle hnone] at hlost
    exact ⟨share.session, (mem_prefillShares hshare).1, hnone,
      count_pos_of_mem_prefillShares hshare, hlost⟩
  case others =>
    intro slot hslot
    rw [prefillPlan, List.map_map] at hslot
    exact hacts.session slot hslot
  case streams =>
    -- Without generations no session of the batch holds a stream.
    have hall : ∀ stream, w.tick.worker.streams.get? stream = w.streams.get? stream := by
      intro stream
      refine hacts.stream stream fun slot hslot hheld => ?_
      obtain ⟨share, hshare, rfl⟩ := List.mem_map.mp hslot
      have hfree := holder_eq_none_of_generation (mem_prefillShares hshare).1 (hidle share hshare)
      cases hfree.symm.trans hheld
    exact Streams.ext_get? hall
  case context =>
    have hcontext := w.beginTick.context_prefill_of_compute.resolve_left
      fun hnone => hshares hnone.1
    rw [htick, hcontext]
    rfl
  case prefillCursor => exact hacts.prefillCursor
  case decodeCursor => exact hacts.decodeCursor

/-- **A tick that reports nothing** does nothing but count itself, or it loses input unseen. -/
theorem tick_of_report_eq_empty (hw : w.Seated) (hsound : w.StreamsSound)
    (hprefill : 1 ≤ w.config.batching.maxPrefillTokens)
    (hdecode : 1 ≤ w.config.batching.maxDecodeSequences) (hempty : w.tick.report = {}) :
    w.tick.worker = { w with ticks := w.ticks + 1 } ∨ ∃ plan e, w.LosesUnseen plan e := by
  obtain ⟨hkept, hquiet, hunserved⟩ := (report_tick_eq_empty_iff hw hsound).mp hempty
  have hsweep : w.beginTick.sweep = w.beginTick := Turn.sweep_of_kept hkept
  have hstage : w.prefillStage = w.beginTick.worker := by rw [prefillStage, hsweep]
  -- With a place in the batch, nobody is served only if nobody waits.
  have hslots : w.decodeStage.decodeSlots = [] := by
    by_contra hready
    have hbound : 1 ≤ w.decodeStage.config.batching.maxDecodeSequences := by
      rw [w.course_decodeStage.1]
      exact hdecode
    obtain ⟨slot, s, hserved⟩ := exists_served hready hbound
    rw [hunserved] at hserved
    cases hserved
  have htick : w.tick = w.beginTick.prefill := by
    have hlast : w.beginTick.sweep.prefill.decode = w.beginTick.sweep.prefill :=
      Turn.decode_of_decodeSlots hslots
    rw [tick, hlast, hsweep]
  by_cases hnone : w.prefillStage.prefillSlots = []
  · left
    rw [hstage] at hnone
    rw [htick, Turn.prefill_of_prefillSlots hnone]
    rfl
  · right
    have hbound : 1 ≤ w.prefillStage.config.batching.maxPrefillTokens := by
      rw [hstage]
      exact hprefill
    obtain ⟨share, hshare, -⟩ := exists_share hnone hbound
    have hshares := List.ne_nil_of_mem hshare
    obtain ⟨e, hfails, hidle⟩ := (prefillReport_eq_empty_iff.mp hquiet).resolve_left hshares
    exact ⟨_, e, losesUnseen_of_prefill hstage htick hshares hfails hidle⟩

/-! ### Ends of generations -/

/-- A session generates before the next tick and does not after it. -/
def EndsGeneration (w : Worker b) : Prop :=
  ∃ slot s g s', w.sessions.get? slot = some s ∧ s.generation = some g ∧
    w.tick.worker.sessions.get? slot = some s' ∧ s'.generation = none

/-- What the sweep ends does not come back. -/
theorem endsGeneration_of_swept (hw : w.Seated) (hsound : w.StreamsSound)
    (hs : w.sessions.get? slot = some s)
    (hend : s.generation.bind (Turn.sweepEvent? w.streams) ≠ none) : w.EndsGeneration := by
  obtain ⟨s₁, hs₁, hswept⟩ := w.beginTick.sweep_at hsound.beginTick.distinct hs
  cases hswept with
  | kept hkeep => exact absurd hkeep hend
  | ended =>
    obtain ⟨s', hrests⟩ := exists_rests hw hs₁ rfl
    cases hg : s.generation with
    | none =>
      rw [hg] at hend
      exact absurd rfl hend
    | some g => exact ⟨slot, s, g, s', hs, hg, hrests.tick, hrests.idle⟩

/-- A session that generates and loses input does not generate after the tick. -/
theorem endsGeneration_of_lost {share : Share} (hw : w.Seated) (hsound : w.StreamsSound)
    (hfails : (b.compute w.prefillStage.context w.prefillStage.prefillPlan.batch).2 = .error e)
    (hshare : share ∈ w.prefillStage.prefillShares) (hg : share.session.generation = some g) :
    w.EndsGeneration := by
  have hlost := (hw.get?_tick_of_unserved (notMem_decodeServed_of_lost hfails hshare)).trans
    (get?_decodeStage_of_lost hfails hshare)
  obtain ⟨s, hs, heq | heq⟩ :=
    Turn.before_sweep hsound.beginTick.distinct (mem_prefillShares hshare).1
  · rw [heq] at hg
    exact ⟨share.slot, s, g, _, hs, hg, hlost, Session.generation_lose ..⟩
  · rw [heq] at hg
    cases hg

/-- A tick that does nothing, or nothing but lose input unseen, ends no generation. -/
theorem not_endsGeneration (h : w.tick.worker = { w with ticks := w.ticks + 1 } ∨
    ∃ plan e, w.LosesUnseen plan e) : ¬ w.EndsGeneration := by
  rintro ⟨slot, s, g, s', hs, hg, hs', hidle⟩
  have hsame : w.tick.worker.sessions.get? slot = w.sessions.get? slot → False := by
    intro hsame
    obtain rfl := Option.some.inj (hs'.symm.trans (hsame.trans hs))
    cases hidle.symm.trans hg
  rcases h with heq | ⟨plan, e, hloses⟩
  · exact hsame (by rw [heq])
  · by_cases hslot : slot ∈ plan.shares.map Prod.fst
    · obtain ⟨⟨slot, count⟩, hmem, rfl⟩ := List.mem_map.mp hslot
      obtain ⟨s₀, hs₀, hidle₀, -, -⟩ := hloses.lost slot count hmem
      obtain rfl := Option.some.inj (hs.symm.trans hs₀)
      cases hidle₀.symm.trans hg
    · exact hsame (hloses.others slot hslot)

/-- A tick reports nothing if it ends no generation, serves nobody, and writes no share. -/
theorem report_tick_of_not_endsGeneration (hw : w.Seated) (hsound : w.StreamsSound)
    (hends : ¬ w.EndsGeneration) (hserved : w.decodeStage.decodeServed = [])
    (hwrites : ¬ (w.prefillStage.prefillShares ≠ [] ∧ ∃ logits,
      (b.compute w.prefillStage.context w.prefillStage.prefillPlan.batch).2 = .ok logits)) :
    w.tick.report = {} := by
  refine (report_tick_eq_empty_iff hw hsound).mpr ⟨fun slot s hs => ?_, ?_, hserved⟩
  · by_contra hend
    exact hends (endsGeneration_of_swept hw hsound hs hend)
  · rw [prefillReport_eq_empty_iff, or_iff_not_imp_left]
    intro hshares
    rcases hcompute :
        (b.compute w.prefillStage.context w.prefillStage.prefillPlan.batch).2 with e | logits
    · refine ⟨e, rfl, fun share hshare => ?_⟩
      by_contra hactive
      obtain ⟨g, hg⟩ := Option.ne_none_iff_exists'.mp hactive
      exact hends (endsGeneration_of_lost hw hsound hcompute hshare hg)
    · exact absurd ⟨hshares, logits, hcompute⟩ hwrites

/-! ### Runs -/

/-- **What ticks report.** On any backend, with places in both batches, and after any run: a tick
reports work just if it ends a generation, submits a decode batch that is not empty, or submits a
prefill batch that is not empty and the call succeeds. If it reports no work, then it has done
nothing but count itself, or it has lost input of sessions that do not generate and has done nothing
else. -/
theorem idling_run (worker : WorkerId) (context : b.Context) (config : WorkerConfig)
    (hprefill : 1 ≤ config.batching.maxPrefillTokens)
    (hdecode : 1 ≤ config.batching.maxDecodeSequences) (actions : List Action) :
    let w := (start worker context config).run actions
    (w.tick.report.didWork = true ↔
      w.EndsGeneration ∨
      (∃ plan, w.decodeStage.planDecode = .ok (some plan) ∧ plan.batch.entries ≠ []) ∨
      ∃ plan logits, w.prefillStage.planPrefill = .ok (some plan) ∧ plan.batch.entries ≠ [] ∧
        (b.compute w.prefillStage.context plan.batch).2 = .ok logits) ∧
    (w.tick.report.didWork = false →
      w.tick.worker = { w with ticks := w.ticks + 1 } ∨ ∃ plan e, w.LosesUnseen plan e) := by
  intro w
  have hw : w.Seated := seated_run worker context config actions
  have hsound : w.StreamsSound := streamsSound_run worker context config actions
  have hconfig : w.config = config := (seated_start worker context config).config_run actions
  have hsilent : w.tick.report.didWork = false →
      w.tick.worker = { w with ticks := w.ticks + 1 } ∨ ∃ plan e, w.LosesUnseen plan e :=
    fun hnone => tick_of_report_eq_empty hw hsound (by rw [hconfig]; exact hprefill)
      (by rw [hconfig]; exact hdecode) (didWork_eq_false_iff.mp hnone)
  refine ⟨?_, hsilent⟩
  rw [exists_planDecode_iff, exists_planPrefill_iff]
  constructor
  · intro hwork
    by_contra hnothing
    rw [not_or, not_or, not_not] at hnothing
    obtain ⟨hends, hserved, hwrites⟩ := hnothing
    have hempty := report_tick_of_not_endsGeneration hw hsound hends hserved hwrites
    rw [didWork_eq_false_iff.mpr hempty] at hwork
    cases hwork
  · intro hwork
    by_contra hidle
    rw [Bool.not_eq_true] at hidle
    obtain ⟨-, hquiet, hunserved⟩ :=
      (report_tick_eq_empty_iff hw hsound).mp (didWork_eq_false_iff.mp hidle)
    rcases hwork with hends | hserved | ⟨hshares, logits, hcompute⟩
    · exact not_endsGeneration (hsilent hidle) hends
    · exact hserved hunserved
    · obtain ⟨e, hfails, -⟩ := (prefillReport_eq_empty_iff.mp hquiet).resolve_left hshares
      cases hcompute.symm.trans hfails

/-- A byte that the model refuses is taken from a session, and the tick reports nothing. -/
theorem idling_run_refused :
    refusedWorker.tick.report.didWork = false ∧
      ∃ plan e, refusedWorker.LosesUnseen plan e ∧ plan.shares = [(⟨0⟩, 1)] := by
  obtain ⟨-, hsilent⟩ := idling_run (b := ByteModel.backend { failOn := some 120 }) ⟨0⟩
    (ByteModel.Context.mk [[]]) {} (by decide) (by decide) refusedInput
  have hidle : refusedWorker.tick.report.didWork = false := by decide +kernel
  have hafter : (refusedWorker.tick.worker.sessions.get? ⟨0⟩).map Session.pending = some [97] := by
    decide +kernel
  have hbefore : (refusedWorker.sessions.get? ⟨0⟩).map Session.pending = some [120, 97] := by
    decide +kernel
  have hshares : refusedWorker.prefillStage.prefillPlan.shares = [(⟨0⟩, 1)] := by decide +kernel
  rcases hsilent hidle with heq | ⟨plan, e, hloses⟩
  · have hsame := congrArg Worker.sessions heq
    change refusedWorker.tick.worker.sessions = refusedWorker.sessions at hsame
    rw [hsame] at hafter
    cases hafter.symm.trans hbefore
  · obtain rfl := eq_prefillPlan hloses.submitted
    exact ⟨hidle, _, e, hloses, hshares⟩

/-- The tick has submitted a batch with a token in it, and session and cursor are not what they
were, but no work is reported. -/
theorem lost_input_unreported :
    1 ≤ refusedWorker.config.batching.maxPrefillTokens ∧
      1 ≤ refusedWorker.config.batching.maxDecodeSequences ∧
      (∃ plan, refusedWorker.prefillStage.planPrefill = .ok (some plan) ∧
        plan.batch.entries ≠ []) ∧
      refusedWorker.tick.worker.sessions.get? ⟨0⟩ ≠ refusedWorker.sessions.get? ⟨0⟩ ∧
      refusedWorker.tick.worker.prefillCursor ≠ refusedWorker.prefillCursor ∧
      refusedWorker.tick.report.didWork = false := by
  have hplan : refusedWorker.prefillStage.planPrefill =
      .ok (some refusedWorker.prefillStage.prefillPlan) := by
    rw [planPrefill_eq, if_neg (by decide +kernel)]
  exact ⟨by decide, by decide, ⟨_, hplan, by decide +kernel⟩, by decide +kernel, by decide +kernel,
    by decide +kernel⟩

end Worker

end Turnwise
