import Mathlib.Data.List.Induction
import Turnwise.Proofs.Worker.Treatment

/-!
# What a tick reports

A report grows step by step while a stage goes through its sessions. Each step is about one session
and finds it as it was before the stage, so what the step adds can be read off the state before the
stage, and the report of a stage can be written down (`Turn.report_foldl`):

* the sweep reports the generations that it ends (`Turn.report_sweep`);
* the prefill stage reports its shares if the call succeeds, and otherwise the generations that end
  with the error of the call (`Turn.report_prefill`);
* the decode stage reports the sessions that it serves, with the ends of their generations
  (`Turn.report_decode`).

`TickReport.endings` reads off what a report says of one session. Within a stage the sessions have
different names, so that is what the step for this session has added.
-/

namespace Turnwise

/-! ### Reports -/

namespace TickReport

/-- What is reported later comes last. -/
instance : Append TickReport where
  append report report' :=
    { prefilled := report.prefilled ++ report'.prefilled
      decoded := report.decoded ++ report'.decoded
      finished := report.finished ++ report'.finished }

@[simp] theorem prefilled_append (report report' : TickReport) :
    (report ++ report').prefilled = report.prefilled ++ report'.prefilled := rfl

@[simp] theorem decoded_append (report report' : TickReport) :
    (report ++ report').decoded = report.decoded ++ report'.decoded := rfl

@[simp] theorem finished_append (report report' : TickReport) :
    (report ++ report').finished = report.finished ++ report'.finished := rfl

theorem append_assoc (report report' report'' : TickReport) :
    report ++ report' ++ report'' = report ++ (report' ++ report'') := by
  show TickReport.mk _ _ _ = TickReport.mk _ _ _
  simp only [prefilled_append, decoded_append, finished_append, List.append_assoc]

@[simp] theorem append_empty (report : TickReport) : report ++ {} = report := by
  show TickReport.mk _ _ _ = _
  simp only [List.append_nil]

/-- What is reported for one key after the other. -/
def gather {κ : Type} (news : κ → TickReport) (keys : List κ) : TickReport where
  prefilled := keys.flatMap fun key => (news key).prefilled
  decoded := keys.flatMap fun key => (news key).decoded
  finished := keys.flatMap fun key => (news key).finished

theorem gather_append {κ : Type} (news : κ → TickReport) (keys keys' : List κ) :
    gather news (keys ++ keys') = gather news keys ++ gather news keys' := by
  show TickReport.mk _ _ _ = TickReport.mk _ _ _
  simp only [gather, List.flatMap_append]

theorem gather_singleton {κ : Type} (news : κ → TickReport) (key : κ) :
    gather news [key] = news key := by
  simp only [gather, List.flatMap_singleton]

theorem prefilled_gather_eq_nil {κ : Type} {news : κ → TickReport} {keys : List κ}
    (h : ∀ key ∈ keys, (news key).prefilled = []) : (gather news keys).prefilled = [] :=
  List.flatMap_eq_nil_iff.mpr h

theorem decoded_gather_eq_nil {κ : Type} {news : κ → TickReport} {keys : List κ}
    (h : ∀ key ∈ keys, (news key).decoded = []) : (gather news keys).decoded = [] :=
  List.flatMap_eq_nil_iff.mpr h

theorem finished_gather_eq_nil {κ : Type} {news : κ → TickReport} {keys : List κ}
    (h : ∀ key ∈ keys, (news key).finished = []) : (gather news keys).finished = [] :=
  List.flatMap_eq_nil_iff.mpr h

/-- The events with which generations of one session were reported as finished. -/
def endings (report : TickReport) (name : SessionId) : List StreamEvent :=
  (report.finished.filter fun entry => entry.1 = name).map Prod.snd

@[simp] theorem endings_append (report report' : TickReport) (name : SessionId) :
    (report ++ report').endings name = report.endings name ++ report'.endings name := by
  simp [endings]

theorem endings_of_finished {report : TickReport} {name : SessionId} {events : List StreamEvent}
    (h : report.finished = events.map fun event => (name, event)) (other : SessionId) :
    report.endings other = if other = name then events else [] := by
  rw [endings, h, List.filter_map, List.map_map]
  split_ifs with heq
  · rw [heq]
    simp [Function.comp_def]
  · simp [Function.comp_def, Ne.symm heq]

section Gather

variable {κ : Type} {news : κ → TickReport} {nameOf : κ → SessionId} {keys : List κ}
  {events : κ → List StreamEvent}

theorem endings_gather_cons (key : κ) (keys : List κ) (name : SessionId) :
    (gather news (key :: keys)).endings name =
      (news key).endings name ++ (gather news keys).endings name := by
  rw [← List.singleton_append, gather_append, gather_singleton, endings_append]

theorem endings_gather_of_notMem
    (hnews : ∀ key ∈ keys, (news key).finished = (events key).map fun event => (nameOf key, event))
    {name : SessionId} (hname : name ∉ keys.map nameOf) : (gather news keys).endings name = [] := by
  induction keys with
  | nil => rfl
  | cons key rest ih =>
    rw [List.map_cons, List.mem_cons, not_or] at hname
    rw [endings_gather_cons, endings_of_finished (hnews key List.mem_cons_self), if_neg hname.1,
      List.nil_append]
    exact ih (fun key' hkey' => hnews key' (List.mem_cons_of_mem _ hkey')) hname.2

/-- If every key has a name of its own, what is reported of a name is what its key has added. -/
theorem endings_gather (hnodup : (keys.map nameOf).Nodup)
    (hnews : ∀ key ∈ keys, (news key).finished = (events key).map fun event => (nameOf key, event))
    {key : κ} (hkey : key ∈ keys) : (gather news keys).endings (nameOf key) = events key := by
  induction keys with
  | nil => cases hkey
  | cons first rest ih =>
    rw [List.map_cons, List.nodup_cons] at hnodup
    have hrest := fun key' hkey' => hnews key' (List.mem_cons_of_mem first hkey')
    rw [endings_gather_cons, endings_of_finished (hnews first List.mem_cons_self)]
    rcases List.mem_cons.mp hkey with rfl | hlater
    · rw [if_pos rfl, endings_gather_of_notMem hrest hnodup.1, List.append_nil]
    · have hne : nameOf key ≠ nameOf first := fun heq =>
        hnodup.1 (heq ▸ List.mem_map_of_mem hlater)
      rw [if_neg hne, List.nil_append]
      exact ih hnodup.2 hrest hlater

end Gather

end TickReport

/-! ### Turns of decoding -/

/-- The event with which a turn of decoding ends the session's generation, if it does. -/
def Session.turnEnd (b : Backend) (streams : Streams) (s : Session) (logits : Logits) :
    Option StreamEvent :=
  match s.sampler.sample logits with
  | .error e => some (.error e.message)
  | .ok (token, _) =>
      s.generation.bind fun g => (streams.get? g.stream).bind fun stream =>
        (g.advance b token stream).1

/-- Nothing but the session's own stream matters. -/
theorem Session.turnEnd_congr (b : Backend) {streams streams' : Streams} {s : Session}
    (h : s.KeepsStream streams streams') (logits : Logits) :
    s.turnEnd b streams' logits = s.turnEnd b streams logits := by
  unfold turnEnd
  rcases s.sampler.sample logits with e | ⟨token, sampler⟩
  · rfl
  · cases hg : s.generation with
    | none => rfl
    | some g =>
      dsimp only
      rw [Option.bind_some, Option.bind_some, h g hg]

namespace Worker

variable {b : Backend}

/-- What the sweep reports of a session. -/
def sweepNews (w : Worker b) (entry : Slot × Session) : TickReport where
  finished := (entry.2.generation.bind (Turn.sweepEvent? w.streams)).toList.map
    fun event => (entry.2.id, event)

/-- What a failed prefill call reports of a session that has a share. -/
def lossNews (cause : String) (share : Share) : TickReport where
  finished := (share.session.generation.map fun _ => StreamEvent.error cause).toList.map
    fun event => (share.session.id, event)

/-- What the decode stage reports of a session that gets a row of logits. -/
def turnNews (w : Worker b) (turn : (Slot × Session) × Logits) : TickReport where
  decoded := [turn.1.2.id]
  finished := (turn.1.2.turnEnd b w.streams turn.2).toList.map
    fun event => (turn.1.2.id, event)

/-- What a failed decode call reports of a session that was to be served. -/
def failNews (cause : String) (entry : Slot × Session) : TickReport where
  finished := [(entry.2.id, .error cause)]

theorem finished_sweepNews (w : Worker b) (entry : Slot × Session) :
    (w.sweepNews entry).finished =
      (entry.2.generation.bind (Turn.sweepEvent? w.streams)).toList.map
        fun event => (entry.2.id, event) := rfl

theorem finished_lossNews (cause : String) (share : Share) :
    (lossNews cause share).finished =
      (share.session.generation.map fun _ => StreamEvent.error cause).toList.map
        fun event => (share.session.id, event) := rfl

theorem finished_turnNews (w : Worker b) (turn : (Slot × Session) × Logits) :
    (w.turnNews turn).finished =
      (turn.1.2.turnEnd b w.streams turn.2).toList.map fun event => (turn.1.2.id, event) := rfl

theorem finished_failNews (cause : String) (entry : Slot × Session) :
    (failNews cause entry).finished =
      [StreamEvent.error cause].map fun event => (entry.2.id, event) := rfl

/-- What the next prefill stage reports. -/
def prefillReport (w : Worker b) : TickReport :=
  match (b.compute w.context w.prefillPlan.batch).2 with
  | .ok _ => .gather (fun share => { prefilled := [(share.session.id, share.count)] })
      w.prefillShares
  | .error e => .gather (lossNews e.message) w.prefillShares

/-- What the next decode stage reports. -/
def decodeReport (w : Worker b) : TickReport :=
  match (b.compute w.context w.decodePlan.batch).2.bind w.decodePlan.batch.assignRows with
  | .ok rows => .gather w.turnNews (w.decodeServed.zip (rows.map Prod.snd))
  | .error e => .gather (failNews e.message) w.decodeServed

end Worker

namespace Turn

open Worker
open TickReport (append_empty append_assoc gather_append gather_singleton)

variable {b : Backend} {t t' : Turn b} {slot : Slot} {s : Session} {g : Generation}
  {stream : Stream}

/-! ### Steps of a stage -/

/-- In the middle of a stage the session in a slot, and its stream, are as they were before it. -/
structure Awaits (t t' : Turn b) (slot : Slot) : Prop where
  acts : ∃ others, ActsOn others t.worker t'.worker
  session : t'.worker.sessions.get? slot = t.worker.sessions.get? slot
  stream : t.worker.HoldersDistinct → ∀ stream, t.worker.holder slot = some stream →
    t'.worker.streams.get? stream = t.worker.streams.get? stream

theorem Awaits.keepsStream (h : t.Awaits t' slot) (ht : t.worker.HoldersDistinct)
    (hs : t.worker.sessions.get? slot = some s) :
    s.KeepsStream t.worker.streams t'.worker.streams :=
  fun g hg => h.stream ht g.stream (holder_eq_some_iff.mpr ⟨s, g, hs, hg, rfl⟩)

/-- **The report of a stage** is made up of what each step adds for a session that it finds as it
was before the stage. -/
theorem report_foldl {κ : Type} {step : Turn b → κ → Turn b} {slotOf : κ → Slot}
    {news : κ → TickReport} {keys : List κ} (hnodup : (keys.map slotOf).Nodup)
    (hstep : ∀ t' : Turn b, t'.worker.index = t.worker.index → ∀ key ∈ keys,
      ActsOn [slotOf key] t'.worker (step t' key).worker)
    (hnews : ∀ t' : Turn b, ∀ key ∈ keys, t.Awaits t' (slotOf key) →
      (step t' key).report = t'.report ++ news key) :
    (keys.foldl step t).report = t.report ++ .gather news keys := by
  -- From the end of the list: the steps before the last one are about other sessions.
  induction keys using List.reverseRecOn with
  | nil => exact (append_empty t.report).symm
  | append_singleton before key ih =>
    rw [List.map_append, List.nodup_append'] at hnodup
    obtain ⟨hbefore, -, hdisjoint⟩ := hnodup
    have hother : slotOf key ∉ before.map slotOf := fun hmem =>
      hdisjoint hmem (List.mem_map_of_mem (List.mem_singleton_self key))
    have hstep' := fun t' ht' key' hkey' => hstep t' ht' key' (List.mem_append_left [key] hkey')
    have hacts := ActsOn.foldl slotOf before t hstep'
    have hawaits : t.Awaits (before.foldl step t) (slotOf key) := by
      refine ⟨⟨_, hacts⟩, hacts.session _ hother, fun hdistinct stream hheld => ?_⟩
      exact hacts.stream stream fun slot hslot hheld' =>
        hother (hdistinct _ _ _ hheld hheld' ▸ hslot)
    rw [List.foldl_append, List.foldl_cons, List.foldl_nil, gather_append, gather_singleton,
      ← append_assoc, ← ih hbefore hstep' fun t' key' hkey' =>
        hnews t' key' (List.mem_append_left [key] hkey')]
    exact hnews _ key (List.mem_append_right before (List.mem_singleton_self key)) hawaits

theorem report_sweepSlot (hs : t.worker.sessions.get? slot = some s) :
    (t.sweepSlot slot).report = t.report ++ t.worker.sweepNews (slot, s) := by
  unfold sweepSlot sweepNews
  rw [hs]
  dsimp only
  cases s.generation.bind (sweepEvent? t.worker.streams) with
  | none => exact (append_empty t.report).symm
  | some event =>
    show TickReport.mk _ _ _ = TickReport.mk _ _ _
    simp

theorem report_commitShare (hs : t.worker.sessions.get? slot = some s) (count : Nat) :
    (t.commitShare (slot, count)).report = t.report ++ { prefilled := [(s.id, count)] } := by
  unfold commitShare
  rw [hs]
  show TickReport.mk _ _ _ = TickReport.mk _ _ _
  simp

theorem report_dropShare {share : Share}
    (hs : t.worker.sessions.get? share.slot = some share.session) (cause : String) :
    (dropShare cause t (share.slot, share.count)).report = t.report ++ lossNews cause share := by
  unfold dropShare lossNews
  rw [hs]
  dsimp only
  cases share.session.generation with
  | none => exact (append_empty t.report).symm
  | some g =>
    show TickReport.mk _ _ _ = TickReport.mk _ _ _
    simp [update]

theorem report_failOwner {owner : SessionId} (hfind : t.worker.find? owner = some (slot, s))
    (cause : String) :
    (failOwner cause t owner).report = t.report ++ { finished := [(owner, .error cause)] } := by
  unfold failOwner
  rw [hfind]
  show TickReport.mk _ _ _ = TickReport.mk _ _ _
  simp

theorem report_acceptRow (hfind : t.worker.find? s.id = some (slot, s))
    (hg : s.generation = some g) (hstream : t.worker.streams.get? g.stream = some stream)
    (logits : Logits) :
    (t.acceptRow (s.id, logits)).report = t.report ++ t.worker.turnNews ((slot, s), logits) := by
  have hs := (find?_eq_some_iff.mp hfind).2
  unfold acceptRow turnNews Session.turnEnd
  rw [hfind]
  dsimp only
  rcases s.sampler.sample logits with e | ⟨token, sampler⟩
  · show TickReport.mk _ _ _ = TickReport.mk _ _ _
    simp
  · have hqueued := get?_queueSampled hs token sampler
    have hgeneration : ({ s.commitDecode with sampler }.enqueue [token]).generation = some g :=
      s.generation_commitDecode.trans hg
    obtain ⟨hevent, -⟩ :=
      advance_eq (w := queueSampled t.worker slot token sampler) hqueued hgeneration hstream token
    dsimp only
    rw [hg, Option.bind_some, hstream, Option.bind_some, ← hevent]
    unfold queueSampled
    rcases advance _ slot token with ⟨_ | event, w⟩
    · show TickReport.mk _ _ _ = TickReport.mk _ _ _
      simp
    · show TickReport.mk _ _ _ = TickReport.mk _ _ _
      simp

/-! ### Stages -/

theorem report_sweep (t : Turn b) :
    t.sweep.report = t.report ++ .gather t.worker.sweepNews t.worker.sessions.toList := by
  have hkeys : t.sweep = t.worker.sessions.toList.foldl (fun t entry => t.sweepSlot entry.1) t := by
    rw [sweep, SlotArena.slots, List.foldl_map]
  have hnodup : (t.worker.sessions.toList.map Prod.fst).Nodup := SlotArena.slots_nodup
  rw [hkeys]
  refine report_foldl hnodup (fun t' _ entry _ => actsOn_sweepSlot t' entry.1)
    fun t' entry hentry hawaits => ?_
  have hs := SlotArena.mem_toList.mp hentry
  obtain ⟨others, hacts⟩ := hawaits.acts
  -- Nobody has stopped listening in the meantime.
  have hsame : t'.worker.sweepNews entry = t.worker.sweepNews entry := by
    have hevent : sweepEvent? t'.worker.streams = sweepEvent? t.worker.streams :=
      funext fun g => sweepEvent?_congr (hacts.isClosed g.stream)
    rw [sweepNews, sweepNews, hevent]
  rw [report_sweepSlot (hawaits.session.trans hs), hsame]

theorem report_prefill (t : Turn b) : t.prefill.report = t.report ++ t.worker.prefillReport := by
  have hcall : ∀ share ∈ t.worker.prefillShares,
      t.prefillCall.worker.sessions.get? share.slot = some share.session := fun share hshare =>
    (mem_prefillShares hshare).1
  unfold prefillReport
  by_cases hslots : t.worker.prefillSlots = []
  · rw [prefill_of_prefillSlots hslots, prefillShares_of_prefillSlots hslots]
    split <;> exact (append_empty t.report).symm
  · rcases hcompute : (b.compute t.worker.context t.worker.prefillPlan.batch).2 with e | logits
    · have hdrop := report_foldl (t := t.prefillCall) prefillShares_nodup
        (fun t' _ share _ => actsOn_dropShare e.message t' (share.slot, share.count))
        fun t' share hshare hawaits =>
          report_dropShare (hawaits.session.trans (hcall share hshare)) e.message
      rw [prefill_of_error hslots hcompute, hdrop]
      rfl
    · have hcommit := report_foldl (t := t.prefillCall) prefillShares_nodup
        (fun t' _ share _ => actsOn_commitShare t' (share.slot, share.count))
        fun t' share hshare hawaits =>
          report_commitShare (hawaits.session.trans (hcall share hshare)) share.count
      rw [prefill_of_ok hslots hcompute, update, hcommit]
      rfl

theorem report_decode (ht : t.worker.Seated) (hsound : t.worker.StreamsSound) :
    t.decode.report = t.report ++ t.worker.decodeReport := by
  -- In the middle of the stage a session that is served is still found where it was.
  have hfind : ∀ entry ∈ t.worker.decodeServed, ∀ t' : Turn b, t.decodeCall.Awaits t' entry.1 →
      t'.worker.find? entry.2.id = some entry := by
    intro entry hentry t' hawaits
    obtain ⟨others, hacts⟩ := hawaits.acts
    have hs := (mem_decodeServed hentry).1
    exact find?_eq_some_iff.mpr
      ⟨(congrArg (·.find? entry.2.id) hacts.index).trans (ht.find?_id hs), hawaits.session.trans hs⟩
  unfold decodeReport
  by_cases hslots : t.worker.decodeSlots = []
  · rw [decode_of_decodeSlots hslots, decodeServed_of_decodeSlots hslots]
    split <;> exact (append_empty t.report).symm
  · rcases hresult : (b.compute t.worker.context t.worker.decodePlan.batch).2.bind
      t.worker.decodePlan.batch.assignRows with e | rows
    · rw [decode_of_error hslots hresult]
      exact report_foldl (t := t.decodeCall) decodeServed_nodup
        (actsOn_failures ht t.decodeCall rfl e.message) fun t' entry hentry hawaits =>
          report_failOwner (hfind entry hentry t' hawaits) e.message
    · obtain ⟨logits, -, hlength, hrows⟩ := rows_of_assignRows hresult
      have hlogits : rows.map Prod.snd = logits := by
        rw [hrows, List.map_map]
        exact List.map_snd_zip (by omega)
      have hnodup : ((t.worker.decodeServed.zip logits).map fun turn => turn.1.1).Nodup := by
        rw [slots_turns hlength]
        exact decodeServed_nodup
      rw [decode_of_ok hslots hresult]
      dsimp only
      rw [hlogits, hrows, List.foldl_map]
      refine report_foldl (t := t.decodeCall) hnodup (actsOn_turns ht t.decodeCall rfl logits)
        fun t' turn hturn hawaits => ?_
      obtain ⟨⟨slot, s⟩, row⟩ := turn
      have hentry := (List.of_mem_zip hturn).1
      obtain ⟨hs, hready⟩ := mem_decodeServed hentry
      obtain ⟨g, hg, -⟩ := Session.active_of_decodeReady hready
      obtain ⟨stream, hstream, -⟩ := hsound.flowing slot g.stream
        (holder_eq_some_iff.mpr ⟨s, g, hs, hg, rfl⟩)
      have hkeeps : s.KeepsStream t.worker.streams t'.worker.streams :=
        hawaits.keepsStream (t := t.decodeCall) hsound.distinct hs
      rw [report_acceptRow (hfind (slot, s) hentry t' hawaits) hg ((hkeeps g hg).trans hstream) row]
      refine congrArg (t'.report ++ ·) ?_
      unfold turnNews
      rw [s.turnEnd_congr b hkeeps]

end Turn

/-! ### Ticks -/

namespace Worker

variable {b : Backend} {w : Worker b}

/-- **The report of a tick** is made up of the reports of its stages. -/
theorem report_tick (hw : w.Seated) (hsound : w.StreamsSound) :
    w.tick.report = .gather w.sweepNews w.sessions.toList ++ w.prefillStage.prefillReport ++
      w.decodeStage.decodeReport := by
  have hdecode := Turn.report_decode (t := w.beginTick.sweep.prefill) hw.decodeStage
    hsound.decodeStage
  rw [tick, hdecode, Turn.report_prefill, Turn.report_sweep]
  rfl

/-- Nothing but the prefill stage reports what was prefilled. -/
theorem prefilled_tick (hw : w.Seated) (hsound : w.StreamsSound) :
    w.tick.report.prefilled = w.prefillStage.prefillReport.prefilled := by
  have hsweep : (TickReport.gather w.sweepNews w.sessions.toList).prefilled = [] :=
    TickReport.prefilled_gather_eq_nil fun _ _ => rfl
  have hdecode : w.decodeStage.decodeReport.prefilled = [] := by
    unfold decodeReport
    split <;> exact TickReport.prefilled_gather_eq_nil fun _ _ => rfl
  rw [report_tick hw hsound, TickReport.prefilled_append, TickReport.prefilled_append, hsweep,
    hdecode, List.nil_append, List.append_nil]

/-- Nothing but the decode stage reports what was decoded. -/
theorem decoded_tick (hw : w.Seated) (hsound : w.StreamsSound) :
    w.tick.report.decoded = w.decodeStage.decodeReport.decoded := by
  have hsweep : (TickReport.gather w.sweepNews w.sessions.toList).decoded = [] :=
    TickReport.decoded_gather_eq_nil fun _ _ => rfl
  have hprefill : w.prefillStage.prefillReport.decoded = [] := by
    unfold prefillReport
    split <;> exact TickReport.decoded_gather_eq_nil fun _ _ => rfl
  rw [report_tick hw hsound, TickReport.decoded_append, TickReport.decoded_append, hsweep,
    hprefill, List.nil_append, List.nil_append]

/-- A decode call that gave everybody a row is reported for everybody, in the order of the batch. -/
theorem decoded_decodeReport_of_ok {rows : List (SessionId × Logits)}
    (hrows : (b.compute w.context w.decodePlan.batch).2.bind w.decodePlan.batch.assignRows =
      .ok rows) :
    w.decodeReport.decoded = w.decodeServed.map fun served => served.2.id := by
  obtain ⟨logits, -, hlength, heq⟩ := Turn.rows_of_assignRows hrows
  have hzip : (w.decodeServed.zip (rows.map Prod.snd)).map Prod.fst = w.decodeServed :=
    List.map_fst_zip (by rw [heq, List.length_map, List.length_map, List.length_zip]; omega)
  rw [decodeReport, hrows]
  show (w.decodeServed.zip (rows.map Prod.snd)).flatMap (fun turn => [turn.1.2.id]) = _
  conv_rhs => rw [← hzip, List.map_map]
  exact List.map_eq_flatMap.symm

/-- Only who is served is reported as decoded. -/
theorem mem_decodeServed_of_decoded {name : SessionId} (h : name ∈ w.decodeReport.decoded) :
    name ∈ w.decodeServed.map fun served => served.2.id := by
  rcases hresult : (b.compute w.context w.decodePlan.batch).2.bind
    w.decodePlan.batch.assignRows with e | rows
  · have hnone : w.decodeReport.decoded = [] := by
      rw [decodeReport, hresult]
      exact TickReport.decoded_gather_eq_nil fun _ _ => rfl
    rw [hnone] at h
    exact absurd h List.not_mem_nil
  · rwa [decoded_decodeReport_of_ok hresult] at h

/-! ### What is reported of one session -/

section Endings

variable {slot : Slot} {s : Session}

theorem endings_tick (hw : w.Seated) (hsound : w.StreamsSound) (name : SessionId) :
    w.tick.report.endings name =
      (TickReport.gather w.sweepNews w.sessions.toList).endings name ++
        w.prefillStage.prefillReport.endings name ++ w.decodeStage.decodeReport.endings name := by
  rw [report_tick hw hsound, TickReport.endings_append, TickReport.endings_append]

theorem Seated.endings_sweep (hw : w.Seated) (hs : w.sessions.get? slot = some s) :
    (TickReport.gather w.sweepNews w.sessions.toList).endings s.id =
      (s.generation.bind (Turn.sweepEvent? w.streams)).toList := by
  have hslots : (w.sessions.toList.map Prod.fst).Nodup := SlotArena.slots_nodup
  have hids := hw.nodup_ids Prod.snd hslots fun _ hentry => SlotArena.mem_toList.mp hentry
  exact TickReport.endings_gather hids (fun entry _ => w.finished_sweepNews entry)
    (SlotArena.mem_toList.mpr hs)

/-- A prefill call that succeeds ends no generation. -/
theorem endings_prefillReport_of_ok {logits : List Logits}
    (hcompute : (b.compute w.context w.prefillPlan.batch).2 = .ok logits) (name : SessionId) :
    w.prefillReport.endings name = [] := by
  have hnone : w.prefillReport.finished = [] := by
    rw [prefillReport, hcompute]
    exact TickReport.finished_gather_eq_nil fun _ _ => rfl
  rw [TickReport.endings, hnone]
  rfl

/-- A prefill call that fails ends the generations that have a share, with its error. -/
theorem Seated.endings_prefillReport_of_error (hw : w.Seated) {e : Error}
    (hfails : (b.compute w.context w.prefillPlan.batch).2 = .error e) {share : Share}
    (hshare : share ∈ w.prefillShares) :
    w.prefillReport.endings share.session.id =
      (share.session.generation.map fun _ => StreamEvent.error e.message).toList := by
  have hids := hw.nodup_ids Share.session prefillShares_nodup fun share h =>
    (mem_prefillShares h).1
  rw [prefillReport, hfails]
  exact TickReport.endings_gather hids (fun share _ => finished_lossNews e.message share) hshare

theorem Seated.endings_prefillReport_of_notMem (hw : w.Seated)
    (hs : w.sessions.get? slot = some s) (hslot : slot ∉ w.prefillShares.map Share.slot) :
    w.prefillReport.endings s.id = [] := by
  have hid := hw.notMem_ids Share.session (fun share h => (mem_prefillShares h).1) hs hslot
  rcases hcompute : (b.compute w.context w.prefillPlan.batch).2 with e | logits
  · rw [prefillReport, hcompute]
    exact TickReport.endings_gather_of_notMem
      (fun share _ => finished_lossNews e.message share) hid
  · exact endings_prefillReport_of_ok hcompute s.id

/-- A decode call that fails ends the generations of all that are served, with its error. -/
theorem Seated.endings_decodeReport_of_error (hw : w.Seated) {e : Error}
    (hfails : (b.compute w.context w.decodePlan.batch).2.bind w.decodePlan.batch.assignRows =
      .error e)
    (hserved : (slot, s) ∈ w.decodeServed) : w.decodeReport.endings s.id = [.error e.message] := by
  have hids := hw.nodup_ids Prod.snd decodeServed_nodup fun _ h => (mem_decodeServed h).1
  rw [decodeReport, hfails]
  exact TickReport.endings_gather hids (fun entry _ => finished_failNews e.message entry) hserved

theorem Seated.endings_decodeReport_of_notMem (hw : w.Seated)
    (hs : w.sessions.get? slot = some s) (hslot : slot ∉ w.decodeServed.map Prod.fst) :
    w.decodeReport.endings s.id = [] := by
  unfold decodeReport
  split
  · rename_i rows _
    have hkeys : ∀ turn ∈ w.decodeServed.zip (rows.map Prod.snd),
        w.sessions.get? turn.1.1 = some turn.1.2 := fun turn hturn =>
      (mem_decodeServed (List.of_mem_zip hturn).1).1
    have hother : slot ∉ (w.decodeServed.zip (rows.map Prod.snd)).map fun turn => turn.1.1 := by
      intro hmem
      obtain ⟨turn, hturn, rfl⟩ := List.mem_map.mp hmem
      exact hslot (List.mem_map_of_mem (List.of_mem_zip hturn).1)
    exact TickReport.endings_gather_of_notMem (fun turn _ => w.finished_turnNews turn)
      (hw.notMem_ids (fun turn => turn.1.2) hkeys hs hother)
  · rename_i e _
    exact TickReport.endings_gather_of_notMem (fun entry _ => finished_failNews e.message entry)
      (hw.notMem_ids Prod.snd (fun _ h => (mem_decodeServed h).1) hs hslot)

end Endings

end Worker

end Turnwise
