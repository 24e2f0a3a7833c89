import Turnwise.Proofs.Json.RoundTrip
import Turnwise.Wire

/-!
# The protocol types survive their JSON form

* `wire_round_trip`: every event, reason, phase, snapshot and status is read back from the text that
  it is written as.
* `SessionSnapshot.representable_iff`, `WorkerStatus.representable_iff`: the snapshots and statuses
  of which every number fits into its field are exactly those that some text is read as.

Between a value and its text stands a document. The step between document and text is
`Json.parse?_compact`. What is left here is the step between value and document, in which a record
has to give back each of its fields under its name (`Json.recordFields?_record`) and a label its
variant.
-/

namespace Turnwise

/-! ### Records -/

namespace Json

variable {fields : List (String × Json)}

/-- Among fields with different names, one name picks out one field. -/
theorem filter_name_eq_singleton (hnames : (fields.map Prod.fst).Nodup) {name : String}
    {value : Json} (hmem : (name, value) ∈ fields) :
    fields.filter (fun field => field.1 == name) = [(name, value)] := by
  induction fields with
  | nil => cases hmem
  | cons field fields ih =>
    rw [List.map_cons, List.nodup_cons] at hnames
    rcases List.mem_cons.mp hmem with rfl | hmem
    · have hrest : fields.filter (fun field => field.1 == name) = [] := by
        rw [List.filter_eq_nil_iff]
        intro field hfield hname
        have hmem : field.1 ∈ fields.map Prod.fst := List.mem_map_of_mem hfield
        exact hnames.1 (beq_iff_eq.mp hname ▸ hmem)
      simp [hrest]
    · have hne : field.1 ≠ name := by
        intro hname
        have hmem : name ∈ fields.map Prod.fst := List.mem_map.mpr ⟨_, hmem, rfl⟩
        exact hnames.1 (hname ▸ hmem)
      simp [hne, ih hnames.2 hmem]

theorem mapM_names {α β : Type} {read : α → Option β} {pairs : List (α × β)}
    (h : ∀ pair ∈ pairs, read pair.1 = some pair.2) :
    (pairs.map Prod.fst).mapM read = some (pairs.map Prod.snd) := by
  induction pairs with
  | nil => rfl
  | cons pair pairs ih =>
    have hrest := ih fun other hother => h other (List.mem_cons_of_mem _ hother)
    simp [h pair List.mem_cons_self, hrest]

/-- A record gives back the values of its fields in their order. -/
theorem recordFields?_record (fields : List (String × Json))
    (hnames : (fields.map Prod.fst).Nodup) :
    (record fields).recordFields? (fields.map Prod.fst) = some (fields.map Prod.snd) := by
  have hall : (fields.map fun field => (some field.1, field.2)).all
      (fun field => field.1.isSome) = true := by
    simp
  rw [record, recordFields?, if_pos hall]
  refine mapM_names fun field hfield => ?_
  have hone : (fields.map fun field => (some field.1, field.2)).filter
      (fun other => other.1 == some field.1) = [(some field.1, field.2)] := by
    have hmem : (field.1, field.2) ∈ fields := hfield
    have hsingle := filter_name_eq_singleton hnames hmem
    simp [List.filter_map, Function.comp_def, hsingle]
  simp only [hone]

theorem recordFields?_zip (names : List String) (values : List Json) (hnames : names.Nodup)
    (hlength : names.length = values.length) :
    (record (names.zip values)).recordFields? names = some values := by
  have hfst : (names.zip values).map Prod.fst = names := List.map_fst_zip (Nat.le_of_eq hlength)
  have hsnd : (names.zip values).map Prod.snd = values :=
    List.map_snd_zip (Nat.le_of_eq hlength.symm)
  have hread := recordFields?_record (names.zip values) (by rwa [hfst])
  rwa [hfst, hsnd] at hread

theorem naturalBelow?_natural {n bound : Nat} (h : n < bound) :
    (natural n).naturalBelow? bound = some n := by
  rw [naturalBelow?, if_pos h]

theorem lt_of_naturalBelow? {document : Json} {n bound : Nat}
    (h : document.naturalBelow? bound = some n) : n < bound := by
  unfold naturalBelow? at h
  split at h
  · split at h
    · obtain rfl := Option.some.inj h
      assumption
    · cases h
  · cases h

end Json

/-! ### Reasons and phases -/

theorem FinishReason.ofLabel?_label (reason : FinishReason) :
    FinishReason.ofLabel? reason.label = some reason := by
  cases reason <;> decide

theorem FinishReason.ofJson?_toJson (reason : FinishReason) :
    FinishReason.ofJson? reason.toJson = some reason :=
  reason.ofLabel?_label

theorem SessionPhase.ofLabel?_label (phase : SessionPhase) :
    SessionPhase.ofLabel? phase.label = some phase := by
  cases phase <;> decide

theorem SessionPhase.ofJson?_toJson (phase : SessionPhase) :
    SessionPhase.ofJson? phase.toJson = some phase :=
  phase.ofLabel?_label

theorem FinishReason.parse?_compact_toJson (reason : FinishReason) :
    FinishReason.parse? reason.toJson.compact = some reason := by
  rw [FinishReason.parse?, Json.parse?_compact rfl, Option.bind_some, reason.ofJson?_toJson]

theorem SessionPhase.parse?_compact_toJson (phase : SessionPhase) :
    SessionPhase.parse? phase.toJson.compact = some phase := by
  rw [SessionPhase.parse?, Json.parse?_compact rfl, Option.bind_some, phase.ofJson?_toJson]

/-! ### Stream events -/

/-- An event names its kind before its content, so that the content is taken as it stands. -/
theorem StreamEvent.ofJson?_record (kind : String) (content : Json) :
    StreamEvent.ofJson? (.record [("type", .text kind), ("data", content)]) =
      StreamEvent.ofContent? kind content := by
  have hfields : (Json.record [("type", .text kind), ("data", content)]).recordFields?
      ["type", "data"] = some [.text kind, content] :=
    Json.recordFields?_zip ["type", "data"] [.text kind, content] (by decide) rfl
  rw [StreamEvent.ofJson?, hfields]
  rfl

theorem StreamEvent.ofJson?_toJson (event : StreamEvent) :
    StreamEvent.ofJson? event.toJson = some event := by
  cases event with
  | chunk text => rw [toJson, ofJson?_record]; rfl
  | done reason =>
    rw [toJson, ofJson?_record, ofContent?, reason.ofJson?_toJson]
    rfl
  | error cause => rw [toJson, ofJson?_record]; rfl

theorem StreamEvent.parse?_compact_toJson (event : StreamEvent) :
    StreamEvent.parse? event.toJson.compact = some event := by
  have hplain : event.toJson.isPlain = true := by
    cases event <;> rfl
  rw [StreamEvent.parse?, Json.parse?_compact hplain, Option.bind_some, event.ofJson?_toJson]

example : (StreamEvent.done .cancelled).toJson.compact =
    "\x7b\"type\":\"done\",\"data\":\"cancelled\"\x7d" := by
  decide

/-! ### Snapshots -/

open Json (word32 word64)

/-- Every number of a snapshot fits into its field. -/
structure SessionSnapshot.Representable (snapshot : SessionSnapshot) : Prop where
  session : snapshot.session.number < word64
  worker : snapshot.worker.number < word64
  slot : snapshot.slot.index < word32
  position : snapshot.position < word32
  pendingTokens : snapshot.pendingTokens < word64
  residentTokens : snapshot.residentTokens < word64
  samplerDraws : snapshot.samplerDraws < word64

/-- A snapshot of which every number is as large as it can be. -/
def SessionSnapshot.largest : SessionSnapshot where
  session := ⟨word64 - 1⟩
  worker := ⟨word64 - 1⟩
  slot := ⟨word32 - 1⟩
  position := word32 - 1
  pendingTokens := word64 - 1
  residentTokens := word64 - 1
  phase := .generating
  samplerDraws := word64 - 1

theorem SessionSnapshot.representable_largest : SessionSnapshot.largest.Representable := by
  constructor <;> decide

theorem SessionSnapshot.ofJson?_toJson {snapshot : SessionSnapshot}
    (h : snapshot.Representable) : SessionSnapshot.ofJson? snapshot.toJson = some snapshot := by
  have hfields := Json.recordFields?_zip fieldNames
    [.natural snapshot.session.number, .natural snapshot.worker.number,
      .natural snapshot.slot.index, .natural snapshot.position, .natural snapshot.pendingTokens,
      .natural snapshot.residentTokens, snapshot.phase.toJson, .natural snapshot.samplerDraws]
    (by decide) rfl
  simp [ofJson?, toJson, hfields, Json.naturalBelow?_natural, h.session, h.worker, h.slot,
    h.position, h.pendingTokens, h.residentTokens, h.samplerDraws, snapshot.phase.ofJson?_toJson]

theorem SessionSnapshot.parse?_compact_toJson {snapshot : SessionSnapshot}
    (h : snapshot.Representable) :
    SessionSnapshot.parse? snapshot.toJson.compact = some snapshot := by
  rw [SessionSnapshot.parse?, Json.parse?_compact rfl, Option.bind_some,
    SessionSnapshot.ofJson?_toJson h]

theorem SessionSnapshot.representable_of_ofJson? {document : Json} {snapshot : SessionSnapshot}
    (h : SessionSnapshot.ofJson? document = some snapshot) : snapshot.Representable := by
  obtain ⟨fields, -, h⟩ := Option.bind_eq_some_iff.mp h
  split at h
  · simp only [Option.bind_eq_bind, Option.bind_eq_some_iff, Option.some.injEq] at h
    obtain ⟨_, hsession, _, hworker, _, hslot, _, hposition, _, hpending, _, hresident, _, -, _,
      hdraws, rfl⟩ := h
    exact
      { session := Json.lt_of_naturalBelow? hsession
        worker := Json.lt_of_naturalBelow? hworker
        slot := Json.lt_of_naturalBelow? hslot
        position := Json.lt_of_naturalBelow? hposition
        pendingTokens := Json.lt_of_naturalBelow? hpending
        residentTokens := Json.lt_of_naturalBelow? hresident
        samplerDraws := Json.lt_of_naturalBelow? hdraws }
  · cases h

/-- The snapshots whose numbers fit are exactly those that some text is read as. -/
theorem SessionSnapshot.representable_iff {snapshot : SessionSnapshot} :
    snapshot.Representable ↔ ∃ text, SessionSnapshot.parse? text = some snapshot := by
  constructor
  · intro h
    exact ⟨_, SessionSnapshot.parse?_compact_toJson h⟩
  · rintro ⟨text, h⟩
    obtain ⟨document, -, hread⟩ := Option.bind_eq_some_iff.mp h
    exact SessionSnapshot.representable_of_ofJson? hread

/-! ### Worker statuses -/

/-- Every number of a status fits into its field. -/
structure WorkerStatus.Representable (status : WorkerStatus) : Prop where
  worker : status.worker.number < word64
  sessions : status.sessions < word64
  generating : status.generating < word64
  capacity : status.capacity < word64
  ticks : status.ticks < word64

/-- A status of which every number is as large as it can be. -/
def WorkerStatus.largest : WorkerStatus where
  worker := ⟨word64 - 1⟩
  sessions := word64 - 1
  generating := word64 - 1
  capacity := word64 - 1
  ticks := word64 - 1

theorem WorkerStatus.representable_largest : WorkerStatus.largest.Representable := by
  constructor <;> decide

theorem WorkerStatus.ofJson?_toJson {status : WorkerStatus} (h : status.Representable) :
    WorkerStatus.ofJson? status.toJson = some status := by
  have hfields := Json.recordFields?_zip fieldNames
    [.natural status.worker.number, .natural status.sessions, .natural status.generating,
      .natural status.capacity, .natural status.ticks]
    (by decide) rfl
  simp [ofJson?, toJson, hfields, Json.naturalBelow?_natural, h.worker, h.sessions, h.generating,
    h.capacity, h.ticks]

theorem WorkerStatus.parse?_compact_toJson {status : WorkerStatus} (h : status.Representable) :
    WorkerStatus.parse? status.toJson.compact = some status := by
  rw [WorkerStatus.parse?, Json.parse?_compact rfl, Option.bind_some,
    WorkerStatus.ofJson?_toJson h]

theorem WorkerStatus.representable_of_ofJson? {document : Json} {status : WorkerStatus}
    (h : WorkerStatus.ofJson? document = some status) : status.Representable := by
  obtain ⟨fields, -, h⟩ := Option.bind_eq_some_iff.mp h
  split at h
  · simp only [Option.bind_eq_bind, Option.bind_eq_some_iff, Option.some.injEq] at h
    obtain ⟨_, hworker, _, hsessions, _, hgenerating, _, hcapacity, _, hticks, rfl⟩ := h
    exact
      { worker := Json.lt_of_naturalBelow? hworker
        sessions := Json.lt_of_naturalBelow? hsessions
        generating := Json.lt_of_naturalBelow? hgenerating
        capacity := Json.lt_of_naturalBelow? hcapacity
        ticks := Json.lt_of_naturalBelow? hticks }
  · cases h

/-- The statuses whose numbers fit are exactly those that some text is read as. -/
theorem WorkerStatus.representable_iff {status : WorkerStatus} :
    status.Representable ↔ ∃ text, WorkerStatus.parse? text = some status := by
  constructor
  · intro h
    exact ⟨_, WorkerStatus.parse?_compact_toJson h⟩
  · rintro ⟨text, h⟩
    obtain ⟨document, -, hread⟩ := Option.bind_eq_some_iff.mp h
    exact WorkerStatus.representable_of_ofJson? hread

/-! ### All of them -/

/-- **Every value of a protocol type is read back from the text that it is written as.** An event
may carry any text whatever; the numbers of snapshots and statuses may be as large as their fields
hold. -/
theorem wire_round_trip :
    (∀ event : StreamEvent, StreamEvent.parse? event.toJson.compact = some event) ∧
    (∀ reason : FinishReason, FinishReason.parse? reason.toJson.compact = some reason) ∧
    (∀ phase : SessionPhase, SessionPhase.parse? phase.toJson.compact = some phase) ∧
    (∀ snapshot : SessionSnapshot, snapshot.Representable →
      SessionSnapshot.parse? snapshot.toJson.compact = some snapshot) ∧
    (∀ status : WorkerStatus, status.Representable →
      WorkerStatus.parse? status.toJson.compact = some status) := by
  refine ⟨?_, ?_, ?_, ?_, ?_⟩
  · exact StreamEvent.parse?_compact_toJson
  · exact FinishReason.parse?_compact_toJson
  · exact SessionPhase.parse?_compact_toJson
  · exact fun _ => SessionSnapshot.parse?_compact_toJson
  · exact fun _ => WorkerStatus.parse?_compact_toJson

theorem wire_round_trip_largest :
    SessionSnapshot.largest.Representable ∧ WorkerStatus.largest.Representable ∧
    SessionSnapshot.parse? SessionSnapshot.largest.toJson.compact =
      some SessionSnapshot.largest ∧
    WorkerStatus.parse? WorkerStatus.largest.toJson.compact = some WorkerStatus.largest ∧
    StreamEvent.parse? (StreamEvent.chunk "\"\\\u0000\u001f\n𝄞").toJson.compact =
      some (.chunk "\"\\\u0000\u001f\n𝄞") := by
  obtain ⟨hevents, -, -, hsnapshots, hstatuses⟩ := wire_round_trip
  refine ⟨SessionSnapshot.representable_largest, WorkerStatus.representable_largest, ?_, ?_, ?_⟩
  · exact hsnapshots _ SessionSnapshot.representable_largest
  · exact hstatuses _ WorkerStatus.representable_largest
  · exact hevents _

end Turnwise
