import Turnwise.ByteModel
import Turnwise.Proofs.Worker.Streams

/-!
# Refusals

A command that is refused changes nothing. A worker refuses a command for one of a few reasons, each
with its own error (`Worker.Obstacle`), and checks them all before it changes anything. To cancel
where nothing is generated, and to end a session that is not live, is no error, but changes nothing
either.

A request to generate always opens a stream. If it is dismissed, the stream is closed at once with
the reason on it (`Worker.Dismissal`), and otherwise the worker is as it was; only a loss of input
that is reported in this way counts as told, and a request for nothing is counted.
-/

namespace Turnwise

/-- Changing a value into itself changes nothing. -/
theorem SlotArena.modify_eq_self {α : Type} {arena : SlotArena α} {slot : Slot} {value : α}
    (h : arena.get? slot = some value) {f : α → α} (hf : f value = value) :
    arena.modify slot f = arena := by
  obtain ⟨hlt, hentry⟩ := List.getElem?_eq_some_iff.mp (get?_eq_some_iff.mp h)
  have hsame : Option.map f (arena.entries.get ⟨slot.index, hlt⟩) = arena.entries[slot.index] := by
    rw [List.get_eq_getElem, hentry, Option.map_some, hf]
  rw [modify, List.modify_eq_set_get (Option.map f) hlt, hsame, List.set_getElem_self]

/-- Answers by which a worker says that there was nothing it could do. -/
def Ack.rejects : Ack → Bool
  | refused _ | cancelled false | ended .alreadyGone => true
  | _ => false

/-- The session, the budget and the stream of a request to generate. -/
def Action.request? : Action → Option (SessionId × Nat × Stream)
  | command (.generate id budget capacity) => some (id, budget, .ofCapacity id capacity)
  | abandoned id budget capacity => some (id, budget, (Stream.ofCapacity id capacity).dropHandle)
  | _ => none

namespace Worker

variable {b : Backend} {w : Worker b} {id : SessionId} {slot : Slot} {s : Session}

/-! ### What a worker holds -/

/-- The session is in one of the slots. -/
def Live (w : Worker b) (id : SessionId) : Prop :=
  ∃ slot s, w.sessions.get? slot = some s ∧ s.id = id

/-- The session is live and has a generation. -/
def Generating (w : Worker b) (id : SessionId) : Prop :=
  ∃ slot s, w.sessions.get? slot = some s ∧ s.id = id ∧ s.generation ≠ none

/-- One of the places is vacant. -/
def HasRoom (w : Worker b) : Prop :=
  ∃ slot : Slot, slot.index < w.sessions.capacity ∧ w.sessions.get? slot = none

theorem Seated.find?_iff (hw : w.Seated) :
    w.find? id = some (slot, s) ↔ w.sessions.get? slot = some s ∧ s.id = id := by
  rw [find?_eq_some_iff]
  constructor
  · exact fun ⟨hslot, hs⟩ => ⟨hs, hw.id_eq hs hslot⟩
  · rintro ⟨hs, rfl⟩
    exact ⟨hw.find?_id hs, hs⟩

/-- The index knows the live sessions. -/
theorem Seated.live_iff (hw : w.Seated) : w.Live id ↔ w.index.find? id ≠ none := by
  rw [Option.ne_none_iff_exists']
  exact exists_congr fun slot => (hw.index_iff id slot).symm

theorem Seated.not_isSome_find? (hw : w.Seated) (hnew : ¬ w.Live id) :
    ¬ (w.index.find? id).isSome = true := by
  rwa [Option.isSome_iff_ne_none, ← hw.live_iff]

theorem Seated.find?_eq_none_iff (hw : w.Seated) : w.find? id = none ↔ ¬ w.Live id := by
  rw [Option.eq_none_iff_forall_ne_some]
  constructor
  · rintro h ⟨slot, s, hs⟩
    exact h (slot, s) (hw.find?_iff.mpr hs)
  · rintro h ⟨slot, s⟩ hfind
    exact h ⟨slot, s, hw.find?_iff.mp hfind⟩

theorem Seated.hasRoom_iff (hw : w.Seated) : w.HasRoom ↔ w.sessions.free ≠ [] := by
  have hfree : w.HasRoom ↔ ∃ slot, slot ∈ w.sessions.free :=
    exists_congr fun slot => (hw.arena.mem_free slot).symm
  rw [hfree]
  exact ⟨fun ⟨_, hmem⟩ => List.ne_nil_of_mem hmem, List.exists_mem_of_ne_nil _⟩

/-! ### Commands that are refused -/

/-- The reason for which a command is refused. Of several, it is the first that the worker sees. -/
inductive Obstacle (w : Worker b) : Command → Error → Prop
  | duplicate {id : SessionId} {sampling : Sampling} (hlive : w.Live id) :
      Obstacle w (.createSession id sampling) (.internal s!"{id} already exists on {w.id}")
  | invalid {id : SessionId} {sampling : Sampling} {e : Error} (hnew : ¬ w.Live id)
      (hinvalid : sampling.validate = .error e) : Obstacle w (.createSession id sampling) e
  | full {id : SessionId} {sampling : Sampling} (hnew : ¬ w.Live id)
      (hvalid : sampling.validate = .ok ()) (hfull : ¬ w.HasRoom) :
      Obstacle w (.createSession id sampling) (.workerAtCapacity w.id w.sessions.capacity)
  | unknownInput {id : SessionId} {text : String} (hnew : ¬ w.Live id) :
      Obstacle w (.appendInput id text) (.unknownSession id)
  | untokenized {id : SessionId} {text : String} {e : Error} (hlive : w.Live id)
      (htokens : b.tokenize text = .error e) : Obstacle w (.appendInput id text) e
  | unknownView {id : SessionId} (hnew : ¬ w.Live id) :
      Obstacle w (.snapshot id) (.unknownSession id)

/-- What comes of a request to create a session. -/
theorem Seated.createSession_eq (hw : w.Seated) (id : SessionId) (sampling : Sampling) :
    (w.Live id ∧
      w.createSession id sampling = .error (.internal s!"{id} already exists on {w.id}")) ∨
    (¬ w.Live id ∧ ∃ e, sampling.validate = .error e ∧ w.createSession id sampling = .error e) ∨
    (¬ w.Live id ∧ sampling.validate = .ok () ∧ ¬ w.HasRoom ∧
      w.createSession id sampling = .error (.workerAtCapacity w.id w.sessions.capacity)) ∨
    (¬ w.Live id ∧ sampling.validate = .ok () ∧ w.HasRoom ∧
      ∃ slot w', w.createSession id sampling = .ok (slot, w')) := by
  unfold createSession
  by_cases hlive : w.Live id
  · exact .inl ⟨hlive, if_pos (Option.isSome_iff_ne_none.mpr (hw.live_iff.mp hlive))⟩
  · rw [if_neg (hw.not_isSome_find? hlive), hw.hasRoom_iff]
    cases hvalid : sampling.validate with
    | error e => exact .inr <| .inl ⟨hlive, e, rfl, rfl⟩
    | ok =>
      unfold SlotArena.insertWith
      cases hfree : w.sessions.free with
      | nil => exact .inr <| .inr <| .inl ⟨hlive, rfl, not_not_intro rfl, rfl⟩
      | cons slot free =>
        exact .inr <| .inr <| .inr ⟨hlive, rfl, List.cons_ne_nil slot free, slot, _, rfl⟩

theorem Seated.createSession_eq_error_iff (hw : w.Seated) {sampling : Sampling} {e : Error} :
    w.createSession id sampling = .error e ↔ w.Obstacle (.createSession id sampling) e := by
  constructor
  · intro h
    rcases hw.createSession_eq id sampling with
      ⟨hlive, heq⟩ | ⟨hnew, e', hinvalid, heq⟩ | ⟨hnew, hvalid, hfull, heq⟩ |
        ⟨-, -, -, slot, w', heq⟩
    all_goals
      rw [heq] at h
      cases h
    · exact .duplicate hlive
    · exact .invalid hnew hinvalid
    · exact .full hnew hvalid hfull
  · intro h
    unfold createSession
    cases h with
    | duplicate hlive => exact if_pos (Option.isSome_iff_ne_none.mpr (hw.live_iff.mp hlive))
    | invalid hnew hinvalid =>
      rw [if_neg (hw.not_isSome_find? hnew), hinvalid]
    | full hnew hvalid hfull =>
      rw [if_neg (hw.not_isSome_find? hnew), hvalid]
      unfold SlotArena.insertWith
      rw [not_not.mp (mt hw.hasRoom_iff.mpr hfull)]

theorem Seated.appendInput_eq_error_iff (hw : w.Seated) {text : String} {e : Error} :
    w.appendInput id text = .error e ↔ w.Obstacle (.appendInput id text) e := by
  have hlive : w.Live id ↔ w.index.find? id ≠ none := hw.live_iff
  unfold appendInput
  cases hfind : w.index.find? id with
  | none =>
    have hnew : ¬ w.Live id := fun h => hlive.mp h hfind
    constructor
    · rintro ⟨⟩
      exact .unknownInput hnew
    · intro h
      cases h with
      | unknownInput => rfl
      | untokenized hlive => exact absurd hlive hnew
  | some slot =>
    have hlive : w.Live id := hlive.mpr (hfind ▸ Option.some_ne_none slot)
    dsimp only
    cases htokens : b.tokenize text with
    | error e' =>
      constructor
      · rintro ⟨⟩
        exact .untokenized hlive htokens
      · intro h
        cases h with
        | unknownInput hnew => exact absurd hlive hnew
        | untokenized _ htokens' => rw [Except.error.inj (htokens.symm.trans htokens')]
    | ok tokens =>
      constructor
      · rintro ⟨⟩
      · intro h
        cases h with
        | unknownInput hnew => exact absurd hlive hnew
        | untokenized _ htokens' => cases htokens.symm.trans htokens'

theorem Seated.snapshot_eq_error_iff (hw : w.Seated) {e : Error} :
    w.snapshot id = .error e ↔ w.Obstacle (.snapshot id) e := by
  unfold snapshot
  cases hfind : w.find? id with
  | none =>
    constructor
    · rintro ⟨⟩
      exact .unknownView (hw.find?_eq_none_iff.mp hfind)
    · intro h
      cases h with
      | unknownView => rfl
  | some entry =>
    constructor
    · rintro ⟨⟩
    · intro h
      cases h with
      | unknownView hnew =>
        rw [hw.find?_eq_none_iff.mpr hnew] at hfind
        cases hfind

/-- **A command is refused just for these reasons.** -/
theorem Seated.handle_eq_refused_iff (hw : w.Seated) (command : Command) (e : Error) :
    (w.handle command).1 = .refused e ↔ w.Obstacle command e := by
  unfold handle
  cases command with
  | createSession id sampling =>
    rw [← hw.createSession_eq_error_iff]
    dsimp only
    cases w.createSession id sampling <;> simp
  | appendInput id text =>
    rw [← hw.appendInput_eq_error_iff]
    dsimp only
    cases w.appendInput id text <;> simp
  | snapshot id =>
    rw [← hw.snapshot_eq_error_iff]
    dsimp only
    cases w.snapshot id <;> simp
  | _ => constructor <;> intro h <;> cases h

/-! ### Commands without an effect -/

theorem Seated.cancel_eq (hw : w.Seated) (id : SessionId) :
    (¬ w.Generating id ∧ w.cancel id = (false, w)) ∨
      (w.Generating id ∧ (w.cancel id).1 = true) := by
  have hgenerating : ∀ {slot s}, w.find? id = some (slot, s) →
      (w.Generating id ↔ s.generation ≠ none) := by
    intro slot s hfind
    constructor
    · rintro ⟨slot', s', hs', hid, hg⟩
      obtain ⟨-, rfl⟩ :=
        Prod.mk.inj (Option.some.inj (hfind.symm.trans (hw.find?_iff.mpr ⟨hs', hid⟩)))
      exact hg
    · obtain ⟨hs, hid⟩ := hw.find?_iff.mp hfind
      exact fun hg => ⟨slot, s, hs, hid, hg⟩
  unfold cancel
  cases hfind : w.find? id with
  -- The id is not live.
  | none =>
    refine .inl ⟨?_, rfl⟩
    rintro ⟨slot, s, hs, hid, -⟩
    exact hw.find?_eq_none_iff.mp hfind ⟨slot, s, hs, hid⟩
  | some entry =>
    obtain ⟨slot, s⟩ := entry
    rw [hgenerating hfind]
    dsimp only
    cases hg : s.generation with
    -- The session is live and idle, so its record is written back unchanged.
    | none =>
      have hsame : s.cancel.2 = s := by rw [Session.cancel, hg]
      have hkept : w.sessions.modify slot (fun s => s.cancel.2) = w.sessions :=
        SlotArena.modify_eq_self (hw.find?_iff.mp hfind).1 hsame
      refine .inl ⟨not_not_intro rfl, ?_⟩
      rw [Worker.modifySession, hkept]
      rfl
    | some g => exact .inr ⟨Option.some_ne_none g, rfl⟩

theorem Seated.endSession_eq (hw : w.Seated) (id : SessionId) :
    (¬ w.Live id ∧ w.endSession id = (.alreadyGone, w)) ∨
      (w.Live id ∧ (w.endSession id).1 = .removed) := by
  rw [hw.live_iff]
  unfold endSession
  cases w.index.find? id with
  | none => exact .inl ⟨not_not_intro rfl, rfl⟩
  | some slot => exact .inr ⟨Option.some_ne_none slot, rfl⟩

/-- **A worker that can do nothing does nothing.** -/
theorem Seated.handle_of_rejects (hw : w.Seated) {command : Command}
    (h : (w.handle command).1.rejects = true) : (w.handle command).2 = w := by
  unfold handle at h ⊢
  -- Each command either rejects and changes nothing, or its outcome does not count as rejected.
  cases command with
  | createSession id sampling =>
    dsimp only at h ⊢
    cases hcreate : w.createSession id sampling with
    | error e => rfl
    | ok created =>
      rw [hcreate] at h
      cases h
  | appendInput id text =>
    dsimp only at h ⊢
    cases happend : w.appendInput id text with
    | error e => rfl
    | ok appended =>
      rw [happend] at h
      cases h
  | cancel id =>
    dsimp only at h ⊢
    rcases hw.cancel_eq id with ⟨-, heq⟩ | ⟨-, heq⟩
    · rw [heq]
    · rw [heq] at h
      cases h
  | endSession id =>
    dsimp only at h ⊢
    rcases hw.endSession_eq id with ⟨-, heq⟩ | ⟨-, heq⟩
    · rw [heq]
    · rw [heq] at h
      cases h
  | snapshot id =>
    dsimp only
    cases w.snapshot id <;> rfl
  | generate => cases h
  | status | shutdown => rfl

/-! ### Requests that are dismissed -/

/-- The reason for which a request to generate is dismissed, and the worker that dismisses it. Of
several reasons, it is the first that the worker sees. -/
inductive Dismissal (w : Worker b) (id : SessionId) (budget : Nat) :
    StreamEvent → Worker b → Prop
  | unknown (hnew : ¬ w.Live id) :
      Dismissal w id budget (.error (Error.unknownSession id).message) w
  | busy {slot : Slot} {s : Session} (hs : w.sessions.get? slot = some s) (hid : s.id = id)
      (hbusy : s.generation ≠ none) :
      Dismissal w id budget (.error s!"{id} already has an active generation") w
  /-- The loss counts as told. -/
  | lost {slot : Slot} {s : Session} {cause : String} (hs : w.sessions.get? slot = some s)
      (hid : s.id = id) (hidle : s.generation = none) (hlost : s.inputError = some cause) :
      Dismissal w id budget (.error s!"{id} lost queued input: {cause}")
        (w.modifySession slot fun s => { s with inputError := none })
  | noInput {slot : Slot} {s : Session} (hs : w.sessions.get? slot = some s) (hid : s.id = id)
      (hidle : s.generation = none) (hkept : s.inputError = none) (hempty : s.pending = []) :
      Dismissal w id budget (.error s!"{id} has no input to generate from") w
  /-- There is nothing to produce. -/
  | nothing {slot : Slot} {s : Session} (hs : w.sessions.get? slot = some s) (hid : s.id = id)
      (hidle : s.generation = none) (hkept : s.inputError = none) (hinput : s.pending ≠ [])
      (hbudget : budget = 0) :
      Dismissal w id budget (.done .length) { w with tally := w.tally.countFinished .length }

/-- What a dismissal does: the stream joins the table with its terminal event on it. -/
theorem Dismissal.generateOn {budget : Nat} {event : StreamEvent} {base : Worker b}
    (h : w.Dismissal id budget event base) (hw : w.Seated) (opened : Stream) :
    w.generateOn opened id budget =
      { base with streams := (w.streams.add (opened.finish event)).2 } := by
  -- The stream that `generateOn` adds first hides no session.
  have hfind : ∀ {slot s}, w.sessions.get? slot = some s → s.id = id →
      ({ w with streams := (w.streams.add opened).2 } : Worker b).find? id = some (slot, s) :=
    fun hs hid => hw.find?_iff.mpr ⟨hs, hid⟩
  rw [← Streams.finish_add]
  unfold Worker.generateOn startGeneration
  cases h with
  | unknown hnew =>
    have hnone : ({ w with streams := (w.streams.add opened).2 } : Worker b).find? id = none :=
      hw.find?_eq_none_iff.mpr hnew
    rw [hnone]
  | busy hs hid hbusy =>
    rw [hfind hs hid]
    dsimp only
    rw [if_pos (Option.isSome_iff_ne_none.mpr hbusy)]
  | lost hs hid hidle hlost =>
    rw [hfind hs hid]
    dsimp only
    rw [hidle, hlost]
    rfl
  | noInput hs hid hidle hkept hempty =>
    rw [hfind hs hid]
    dsimp only
    rw [hidle, hkept, hempty]
    rfl
  | nothing hs hid hidle hkept hinput hbudget =>
    rw [hfind hs hid]
    dsimp only
    rw [hidle, hkept, hbudget]
    simp [hinput]

theorem Seated.exists_dismissal (hw : w.Seated) (hcannot : ¬ w.CanGenerate id) (budget : Nat) :
    ∃ event base, w.Dismissal id budget event base := by
  cases hfind : w.find? id with
  | none => exact ⟨_, _, .unknown (hw.find?_eq_none_iff.mp hfind)⟩
  | some entry =>
    obtain ⟨slot, s⟩ := entry
    obtain ⟨hs, hid⟩ := hw.find?_iff.mp hfind
    rw [canGenerate_iff hfind] at hcannot
    by_cases hidle : s.generation = none
    · cases hlost : s.inputError with
      | some cause => exact ⟨_, _, .lost hs hid hidle hlost⟩
      | none =>
        have hempty : s.pending = [] := not_not.mp fun hinput => hcannot ⟨hidle, hlost, hinput⟩
        exact ⟨_, _, .noInput hs hid hidle hlost hempty⟩
    · exact ⟨_, _, .busy hs hid hidle⟩

/-- A request that is not dismissed has its stream open. -/
theorem Seated.dismissal_or_opened (hw : w.Seated) (opened : Stream) (id : SessionId)
    (budget : Nat) :
    (∃ event base, w.Dismissal id budget event base) ∨
      (w.generateOn opened id budget).streams = (w.streams.add opened).2 := by
  rcases w.generateOn_outcomes opened id budget with
    ⟨hcannot, -⟩ | ⟨hcannot, -⟩ | ⟨⟨slot, s, hfind, hidle, hkept, hinput⟩, hbudget, -⟩ |
      ⟨slot, s, -, -, -, -, -, heq⟩
  · exact .inl (hw.exists_dismissal hcannot budget)
  · exact .inl (hw.exists_dismissal hcannot budget)
  · obtain ⟨hs, hid⟩ := hw.find?_iff.mp hfind
    exact .inl ⟨_, _, .nothing hs hid hidle hkept hinput hbudget⟩
  · exact .inr (congrArg streams heq)

theorem act_of_request? {request : Action} {budget : Nat} {opened : Stream}
    (h : request.request? = some (id, budget, opened)) :
    FreshStream id opened ∧ w.act request = w.generateOn opened id budget := by
  unfold Action.request? at h
  split at h <;> cases h
  · exact ⟨.opened _, rfl⟩
  · exact ⟨.abandoned _, rfl⟩

/-! ### All runs -/

/-- **A refusal changes nothing.** After any run, on any backend:

* A command is refused for one of the reasons of `Obstacle`, and only then. To cancel has no effect
  just if the session is not generating, and to end it just if it is not live. In all these cases
  the worker stays as it is.
* A session is created just if it is not live, its parameters are valid, and a place is vacant.
* A request to generate that has one of the reasons of `Dismissal` against it closes its stream with
  this reason, and changes nothing but that a loss of input counts as told, and a request for
  nothing is counted. Streams that are closed at once are of this kind. -/
theorem refused_run (worker : WorkerId) (context : b.Context) (config : WorkerConfig)
    (actions : List Action) :
    let w := (start worker context config).run actions
    (∀ command e, (w.handle command).1 = .refused e ↔ w.Obstacle command e) ∧
    (∀ id, (w.handle (.cancel id)).1 = .cancelled false ↔ ¬ w.Generating id) ∧
    (∀ id, (w.handle (.endSession id)).1 = .ended .alreadyGone ↔ ¬ w.Live id) ∧
    (∀ command, (w.handle command).1.rejects = true → (w.handle command).2 = w) ∧
    (∀ id sampling, (∃ slot, (w.handle (.createSession id sampling)).1 = .created slot) ↔
      ¬ w.Live id ∧ sampling.validate = .ok () ∧ w.HasRoom) ∧
    (∀ request id budget opened, request.request? = some (id, budget, opened) →
      (∀ event base, w.Dismissal id budget event base →
        w.act request = { base with streams := (w.streams.add (opened.finish event)).2 }) ∧
      (∀ stream, (w.act request).streams.get? w.streams.entries.length = some stream →
        stream.sinkOpen = false → ∃ event base, w.Dismissal id budget event base)) := by
  intro w
  have hw : w.Seated := seated_run ..
  refine ⟨hw.handle_eq_refused_iff, fun id => ?_, fun id => ?_, fun _ => hw.handle_of_rejects,
    fun id sampling => ?_, fun request id budget opened hrequest => ?_⟩
  · show Ack.cancelled (w.cancel id).1 = .cancelled false ↔ _
    rcases hw.cancel_eq id with ⟨hnot, heq⟩ | ⟨hgenerating, heq⟩ <;> simp [*]
  · show Ack.ended (w.endSession id).1 = .ended .alreadyGone ↔ _
    rcases hw.endSession_eq id with ⟨hnot, heq⟩ | ⟨hlive, heq⟩ <;> simp [*]
  · unfold handle
    dsimp only
    rcases hw.createSession_eq id sampling with
      ⟨hlive, heq⟩ | ⟨hnew, e, hinvalid, heq⟩ | ⟨hnew, hvalid, hfull, heq⟩ |
        ⟨hnew, hvalid, hroom, slot, w', heq⟩ <;> simp [*]
  · obtain ⟨hopened, hact⟩ := act_of_request? (w := w) hrequest
    rw [hact]
    refine ⟨fun event base h => h.generateOn hw opened, fun stream hstream hclosed => ?_⟩
    refine (hw.dismissal_or_opened opened id budget).resolve_right fun hopen => ?_
    rw [hopen] at hstream
    obtain rfl := Option.some.inj ((Streams.get?_add_self opened).symm.trans hstream)
    rw [hopened.flowing.sinkOpen] at hclosed
    cases hclosed

/-- A worker with one place, whose session has lost a byte that the model refuses: there is no room
for another session, and a request to generate is dismissed with the loss. -/
theorem refused_run_full :
    let loss :=
      "session-1 lost queued input: Compute failure: injected failure on token 120"
    let w : Worker (ByteModel.backend { failOn := some 120 }) :=
      (start ⟨0⟩ (ByteModel.Context.mk [[]]) {}).run
        [.command (.createSession ⟨1⟩ {}), .command (.appendInput ⟨1⟩ "xa"), .tick]
    (w.handle (.createSession ⟨2⟩ {})).1 = .refused (.workerAtCapacity ⟨0⟩ 1) ∧
      (w.handle (.createSession ⟨2⟩ {})).2 = w ∧
      w.act (.command (.generate ⟨1⟩ 4 2)) =
        { w.modifySession ⟨0⟩ (fun s => { s with inputError := none }) with
          streams := (w.streams.add ((Stream.ofCapacity ⟨1⟩ 2).finish (.error loss))).2 } := by
  intro loss w
  obtain ⟨-, -, -, hkept, -, hrequests⟩ :=
    refused_run (b := ByteModel.backend { failOn := some 120 }) ⟨0⟩ (ByteModel.Context.mk [[]]) {}
      [.command (.createSession ⟨1⟩ {}), .command (.appendInput ⟨1⟩ "xa"), .tick]
  have hfull : (w.handle (.createSession ⟨2⟩ {})).1 = .refused (.workerAtCapacity ⟨0⟩ 1) := by
    decide +kernel
  have hsession : w.sessions.get? ⟨0⟩ = some
      { id := ⟨1⟩, slot := ⟨0⟩, pending := [97], sampler := .ofConfig {},
        inputError := some "Compute failure: injected failure on token 120" } := by
    decide +kernel
  refine ⟨hfull, hkept _ (by rw [hfull]; rfl), ?_⟩
  exact (hrequests (.command (.generate ⟨1⟩ 4 2)) ⟨1⟩ 4 _ rfl).1 _ _ (.lost hsession rfl rfl rfl)

end Worker

end Turnwise
