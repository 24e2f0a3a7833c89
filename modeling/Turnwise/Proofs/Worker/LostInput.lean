import Mathlib.Data.List.Induction
import Turnwise.Proofs.Worker.Generations
import Turnwise.Proofs.Worker.Refusal

/-!
# Lost input is reported once

A prefill call that fails takes tokens from sessions, and somebody has to hear of it. A session that
is generating tells it at once, on its stream (`Worker.Runs.lost`). A session that is not keeps the
cause (`Worker.Owes`), and the next request to generate for it is refused with this cause
(`Worker.Owes.refuses`). In between the cause stays, whatever happens, or gives way to that of a
later loss (`Worker.Owes.run`); nothing is written to the streams of the session meanwhile
(`Worker.Owes.log_run`). Looking back, whoever keeps a cause has lost input after the last request
for it (`Worker.Owes.since`).
-/

namespace Turnwise

/-- A generation makes the news of a loss its own, so only a session that does not generate keeps a
cause. -/
def Session.Informed (s : Session) : Prop := ∀ g, s.generation = some g → s.inputError = none

/-- After these actions a loss is no longer news: a request to generate for the session has been
told, or there is nobody left to tell. -/
def Action.Settles (action : Action) (id : SessionId) : Prop :=
  action.generates = some id ∨ action = .command (.endSession id) ∨ action = .shutdown

/-- A turn of decoding is not about losses. -/
theorem AfterDecode.keeps {b : Backend} {s s' : Session} (h : AfterDecode b s s')
    (hready : s.decodeReady = true) : s'.id = s.id ∧ s'.inputError = s.inputError := by
  cases h with
  | @served g hg stream logits =>
    rcases Session.accept_fst (b := b) (g := g) (Session.pending_of_decodeReady hready) stream
        logits with
      ⟨e, -, heq⟩ | ⟨token, sampler, generation, -, heq, -⟩
    · rw [heq]
      exact ⟨rfl, rfl⟩
    · rw [heq]
      exact ⟨rfl, rfl⟩
  | failed => exact ⟨rfl, rfl⟩

/-! ### The message -/

/-- The refusal that tells of a loss. -/
def lossMessage (id : SessionId) (cause : String) : String := s!"{id} lost queued input: {cause}"

section Messages

variable {id : SessionId} {cause cause' rest : String}

theorem lossMessage_eq (id : SessionId) (cause : String) :
    lossMessage id cause = toString id ++ (" lost queued input: " ++ cause) :=
  String.append_assoc ..

theorem lossMessage_inj (h : lossMessage id cause = lossMessage id cause') : cause = cause' := by
  rw [lossMessage_eq, lossMessage_eq, String.append_right_inj, String.append_right_inj] at h
  exact h

/-- The other refusals of a session that is known go on differently after its name. -/
theorem append_ne_lossMessage (h : rest.toList[1]? ≠ some 'l') :
    toString id ++ rest ≠ lossMessage id cause := by
  rw [lossMessage_eq, Ne, String.append_right_inj]
  rintro rfl
  apply h
  rw [String.toList_append]
  rfl

theorem unknownSession_ne_lossMessage :
    (Error.unknownSession id).message ≠ lossMessage id cause := by
  intro h
  have hleft : (Error.unknownSession id).message.toList[0]? = some 'U' := by
    show ("Unknown session: " ++ toString id).toList[0]? = some 'U'
    rw [String.toList_append]
    rfl
  have hright : (lossMessage id cause).toList[0]? = some 's' := by
    have hname : toString id = "session-" ++ toString id.number := rfl
    rw [lossMessage_eq, hname, String.append_assoc, String.toList_append]
    rfl
  rw [h, hright] at hleft
  exact absurd hleft (by decide)

end Messages

namespace Worker

variable {b : Backend} {w w' : Worker b} {slot : Slot} {s s' : Session} {g : Generation}
  {stream : Stream} {cause : String}

theorem sessionRule_informed : SessionRule b Session.Informed where
  created _ _ _ g hg := by
    cases hg
  touched := by
    intro s s' h hs
    cases h with
    | same | queued => exact hs
    | told => exact fun _ _ => rfl
    | started _ herror => exact fun _ _ => herror
    -- A cancelled session keeps the error; without a generation there is nothing to say of it.
    | cancelled =>
      intro g hg
      unfold Session.cancel at hg ⊢
      split
      · rename_i g' hg'
        exact hs g' hg'
      · rename_i hnone
        rw [hnone] at hg
        cases hnone.symm.trans hg
  idle _ g hg := by
    cases hg
  prefilled := by
    intro s s' count _ h hs g hg
    cases h with
    | written => exact hs g hg
    -- Losing input ends the generation, so the premise fails.
    | lost cause =>
      unfold Session.lose at hg
      split at hg
      · cases hg
      · rename_i hnone
        cases hnone.symm.trans hg
  decoded := by
    intro s s' hready h hs g _
    obtain ⟨g', hg', -⟩ := Session.active_of_decodeReady hready
    rw [(h.keeps hready).2]
    exact hs g' hg'

/-! ### Losses -/

/-- Why the prefill stage of the next tick drops tokens of a session, if it does. -/
def dropCause? (w : Worker b) (id : SessionId) : Option String :=
  match (b.compute w.prefillStage.context w.prefillStage.prefillPlan.batch).2 with
  | .ok _ => none
  | .error e =>
      if id ∈ w.prefillStage.prefillShares.map (·.session.id) then some e.message else none

/-- The causes for which the ticks of a run drop tokens of a session, in order. -/
def dropCauses (w : Worker b) (id : SessionId) : List Action → List String
  | [] => []
  | action :: actions =>
      (if action = .tick then (w.dropCause? id).toList else []) ++
        (w.act action).dropCauses id actions

/-- The share that a session loses. -/
theorem share_of_dropCause? (hw : w.Seated) (hs : w.prefillStage.sessions.get? slot = some s)
    (hdrop : w.dropCause? s.id = some cause) :
    ∃ e share, (b.compute w.prefillStage.context w.prefillStage.prefillPlan.batch).2 = .error e ∧
      e.message = cause ∧ share ∈ w.prefillStage.prefillShares ∧ share.slot = slot ∧
      share.session = s := by
  unfold dropCause? at hdrop
  split at hdrop
  · cases hdrop
  · rename_i e hfails
    split_ifs at hdrop with hmem
    obtain ⟨share, hshare, hid⟩ := List.mem_map.mp hmem
    have hget := (mem_prefillShares hshare).1
    have hslot := hw.prefillStage.find?_id hget
    rw [hid, hw.prefillStage.find?_id hs] at hslot
    obtain rfl := Option.some.inj hslot
    exact ⟨e, share, hfails, Option.some.inj hdrop, hshare, rfl,
      Option.some.inj (hget.symm.trans hs)⟩

/-- A session that loses nothing has no share, or there is no failure. -/
theorem kept_of_dropCause? (hs : w.prefillStage.sessions.get? slot = some s)
    (hdrop : w.dropCause? s.id = none) :
    (∀ e, (b.compute w.prefillStage.context w.prefillStage.prefillPlan.batch).2 ≠ .error e) ∨
      slot ∉ w.prefillStage.prefillShares.map Share.slot := by
  unfold dropCause? at hdrop
  split at hdrop
  · rename_i hsucceeds
    exact .inl fun e hfails => nomatch hsucceeds.symm.trans hfails
  · split_ifs at hdrop with hmem
    refine .inr fun hslot => hmem ?_
    obtain ⟨share, hshare, rfl⟩ := List.mem_map.mp hslot
    obtain rfl := Option.some.inj (hs.symm.trans (mem_prefillShares hshare).1)
    exact List.mem_map_of_mem hshare

/-! ### Ticks -/

/-- What the decode stage leaves as it is. -/
theorem decode_keeps (hw : w.Seated) (hsound : w.StreamsSound)
    (hs : w.decodeStage.sessions.get? slot = some s) :
    ∃ s', w.tick.worker.sessions.get? slot = some s' ∧ s'.id = s.id ∧
      s'.inputError = s.inputError ∧ (s.generation = none → s'.generation = none) := by
  have hdecode : w.beginTick.sweep.prefill.worker.Seated := hw.decodeStage
  have hdecode' : w.beginTick.sweep.prefill.worker.StreamsSound := hsound.decodeStage
  obtain ⟨context, hacts⟩ := Turn.actsOn_decode hdecode
  obtain ⟨s', hs', -⟩ := exists_of_map_seat (hacts.seat slot).symm hs
  obtain ⟨s₀, hs₀, hafter⟩ := Turn.before_decode hdecode hdecode' hs'
  obtain rfl := Option.some.inj (hs.symm.trans hs₀)
  rw [tick]
  refine ⟨s', hs', ?_⟩
  rcases hafter with rfl | ⟨hready, hafter⟩
  · exact ⟨rfl, rfl, fun hidle => hidle⟩
  · obtain ⟨g, hg, -⟩ := Session.active_of_decodeReady hready
    obtain ⟨hid, herror⟩ := hafter.keeps hready
    refine ⟨hid, herror, fun hidle => ?_⟩
    cases hidle.symm.trans hg

/-- **A generation that loses input** is told so in the same tick, and its session has nothing more
to tell. -/
theorem Runs.lost (h : w.prefillStage.Runs slot s g stream) (hw : w.Seated)
    (hsound : w.StreamsSound) (hinformed : w.EverySession Session.Informed)
    (hdrop : w.dropCause? s.id = some cause) :
    (∃ s', w.tick.worker.sessions.get? slot = some s' ∧ s'.id = s.id ∧ s'.generation = none ∧
        s'.inputError = none) ∧
      ∃ stream', w.tick.worker.streams.get? g.stream = some stream' ∧
        stream'.log = stream.log ++ [.error cause] := by
  have herror : s.inputError = none :=
    sessionRule_informed.sweep (t := w.beginTick) hsound.beginTick.distinct hinformed slot s
      h.session g h.generation
  obtain ⟨e, share, hfails, rfl, hshare, rfl, rfl⟩ := share_of_dropCause? hw h.session hdrop
  obtain ⟨hs₂, -⟩ := Turn.prefill_lost w.beginTick.sweep hfails hshare
  have hlose : share.session.lose e.message share.count =
      (share.session.discardPending share.count).idle := by
    rw [Session.lose, h.generation]
  rw [hlose] at hs₂
  obtain ⟨s', hs', hid, herror', hidle'⟩ := decode_keeps hw hsound hs₂
  exact ⟨⟨s', hs', hid, hidle' rfl, herror'.trans herror⟩, h.log_of_lost hsound hfails hshare⟩

/-- The session in a slot does not generate, and is to be told why input was lost. -/
structure Owes (w : Worker b) (slot : Slot) (s : Session) (cause : String) : Prop where
  session : w.sessions.get? slot = some s
  idle : s.generation = none
  error : s.inputError = some cause

/-- **A session that loses input while it does not generate** keeps the cause. -/
theorem owes_of_lost (hw : w.Seated) (hsound : w.StreamsSound)
    (hs : w.prefillStage.sessions.get? slot = some s) (hidle : s.generation = none)
    (hdrop : w.dropCause? s.id = some cause) :
    ∃ s', w.tick.worker.Owes slot s' cause ∧ s'.id = s.id := by
  obtain ⟨e, share, hfails, rfl, hshare, rfl, rfl⟩ := share_of_dropCause? hw hs hdrop
  obtain ⟨hlost, -⟩ := Turn.prefill_lost w.beginTick.sweep hfails hshare
  rw [Session.lose_of_idle hidle] at hlost
  obtain ⟨s', hs', hid, herror, hidle'⟩ := decode_keeps hw hsound hlost
  exact ⟨s', ⟨hs', hidle' hidle, herror⟩, hid⟩

/-- A session that loses nothing in a tick keeps what it knows of earlier losses. -/
theorem tick_keeps (hw : w.Seated) (hsound : w.StreamsSound)
    (hs : w.prefillStage.sessions.get? slot = some s) (hdrop : w.dropCause? s.id = none) :
    ∃ s', w.tick.worker.sessions.get? slot = some s' ∧ s'.id = s.id ∧
      s'.inputError = s.inputError ∧ (s.generation = none → s'.generation = none) := by
  obtain ⟨s₂, hs₂, hg₂, herror₂, -⟩ := Turn.prefill_kept w.beginTick.sweep
    hsound.prefillStage.distinct hs (kept_of_dropCause? hs hdrop)
  obtain ⟨context, hacts⟩ := w.beginTick.sweep.actsOn_prefill
  obtain ⟨s₁, hs₁, hseat⟩ := hacts.get?_of_get? hs₂
  obtain rfl := Option.some.inj (hs.symm.trans hs₁)
  obtain ⟨s', hs', hid, herror, hidle⟩ := decode_keeps hw hsound hs₂
  exact ⟨s', hs', hid.trans (congrArg Prod.fst hseat), herror.trans herror₂,
    fun hnone => hidle (hg₂.trans hnone)⟩

/-! ### Between ticks -/

/-- **What the other actions do to a session that does not generate**: it may get more input. -/
theorem Step.idle_keeps {action : Action} (hstep : Step w action w') (hw : w.Seated)
    (htick : action ≠ .tick) (hs : w.sessions.get? slot = some s) (hidle : s.generation = none)
    (hunsettled : ¬ action.Settles s.id) :
    ∃ s', w'.sessions.get? slot = some s' ∧ s'.id = s.id ∧ s'.generation = none ∧
      s'.inputError = s.inputError := by
  cases hstep with
  | same | consume => exact ⟨s, hs, rfl, hidle, rfl⟩
  | create hnew hinsert tally =>
    exact ⟨s, hw.arena.get?_insertWith_of_eq_some hinsert hs, rfl, hidle, rfl⟩
  | append =>
    refine ⟨_, SlotArena.get?_modify_of_eq_some hs _ _, ?_⟩
    split_ifs
    · exact ⟨rfl, hidle, rfl⟩
    · exact ⟨rfl, hidle, rfl⟩
  -- A request that could touch the session would settle what it owes.
  | @generate _ id opened hopened budget haction =>
    have hne : id ≠ s.id := by
      rintro rfl
      exact hunsettled (.inl haction)
    exact ⟨s, hw.get?_generateOn hs opened id budget (.inl hne), rfl, hidle, rfl⟩
  | @cancel id slot' s' =>
    have hcancel : s.cancel.2 = s := by
      rw [Session.cancel, hidle]
    have hs' := SlotArena.get?_modify_of_eq_some hs slot' fun s => s.cancel.2
    rw [hcancel, ite_self] at hs'
    exact ⟨s, hs', rfl, hidle, rfl⟩
  | @endSession id slot' hslot' tally =>
    have hne : id ≠ s.id := by
      rintro rfl
      exact hunsettled (.inr (.inl rfl))
    refine ⟨s, ?_, rfl, hidle, rfl⟩
    show ((w.finishGeneration slot' _).release slot').sessions.get? slot = some s
    rw [get?_release_finishGeneration, if_neg (hw.slot_ne hs hslot' hne), hs]
  | tick => exact absurd rfl htick
  | shutdown => exact absurd (.inr (.inr rfl)) hunsettled

/-- The sweep passes over a session that does not generate. -/
theorem prefillStage_of_idle (hsound : w.StreamsSound) (hs : w.sessions.get? slot = some s)
    (hidle : s.generation = none) : w.prefillStage.sessions.get? slot = some s := by
  obtain ⟨s', hs', hswept⟩ := w.beginTick.sweep_at hsound.beginTick.distinct hs
  cases hswept with
  | kept => exact hs'
  | ended hend =>
    rw [hidle] at hend
    exact absurd rfl hend

/-- **A cause stays until it is told**, or gives way to that of a later loss. -/
theorem Owes.act (h : w.Owes slot s cause) (hw : w.Seated) (hsound : w.StreamsSound)
    {action : Action} (hunsettled : ¬ action.Settles s.id) :
    ∃ s', (w.act action).Owes slot s'
        ((if action = .tick then (w.dropCause? s.id).toList else []).getLastD cause) ∧
      s'.id = s.id := by
  by_cases htick : action = .tick
  · subst htick
    have hs := prefillStage_of_idle hsound h.session h.idle
    rw [if_pos rfl, Worker.act]
    cases hdrop : w.dropCause? s.id with
    | none =>
      obtain ⟨s', hs', hid, herror, hidle⟩ := tick_keeps hw hsound hs hdrop
      exact ⟨s', ⟨hs', hidle h.idle, herror.trans h.error⟩, hid⟩
    | some latest => exact owes_of_lost hw hsound hs h.idle hdrop
  · rw [if_neg htick]
    obtain ⟨s', hs', hid, hidle, herror⟩ :=
      (step_act w action).idle_keeps hw htick h.session h.idle hunsettled
    exact ⟨s', ⟨hs', hidle, herror.trans h.error⟩, hid⟩

theorem Owes.run (h : w.Owes slot s cause) (hw : w.Seated) (hsound : w.StreamsSound)
    (actions : List Action) (hunsettled : ∀ action ∈ actions, ¬ action.Settles s.id) :
    ∃ s', (w.run actions).Owes slot s' ((w.dropCauses s.id actions).getLastD cause) ∧
      s'.id = s.id := by
  induction actions generalizing w s cause with
  | nil => exact ⟨s, h, rfl⟩
  | cons action rest ih =>
    obtain ⟨hnow, hlater⟩ := List.forall_mem_cons.mp hunsettled
    obtain ⟨s₁, h₁, hid₁⟩ := h.act hw hsound hnow
    have hstep := step_act w action
    rw [← hid₁] at hlater
    obtain ⟨s₂, h₂, hid₂⟩ := ih h₁ (hstep.seated hw) (hstep.streamsSound hw hsound) hlater
    have hlatest : ∀ first later : List String,
        (first ++ later).getLastD cause = later.getLastD (first.getLastD cause) := by
      intro first later
      simp [List.getLastD_eq_getLast?, List.getLast?_append]
    refine ⟨s₂, ?_, hid₂.trans hid₁⟩
    rw [dropCauses, hlatest]
    rwa [hid₁] at h₂

/-! ### Requests -/

/-- **A request for a session that is to be told of a loss** is refused with the cause, and after it
there is nothing more to tell. -/
theorem Owes.generateOn (h : w.Owes slot s cause) (hw : w.Seated) (opened : Stream)
    (budget : Nat) :
    w.generateOn opened s.id budget =
      { w.modifySession slot (fun s => { s with inputError := none }) with
        streams := (w.streams.add
          (opened.finish (.error (lossMessage s.id cause)))).2 } := by
  exact (Dismissal.lost h.session rfl h.idle h.error).generateOn hw opened

/-- Where every request comes from, its stream has the answer. -/
theorem Owes.refuses (h : w.Owes slot s cause) (hw : w.Seated) {request : Action}
    (hrequest : request.generates = some s.id) :
    (∃ stream, (w.act request).streams.get? w.streams.entries.length = some stream ∧
        stream.session = s.id ∧
        stream.log = if stream.handleOpen then [.error (lossMessage s.id cause)]
          else []) ∧
      ∃ s', (w.act request).sessions.get? slot = some s' ∧ s'.id = s.id ∧ s'.generation = none ∧
        s'.inputError = none := by
  have hasked : ∃ opened budget, FreshStream s.id opened ∧
      w.act request = w.generateOn opened s.id budget := by
    unfold Action.generates at hrequest
    split at hrequest
    · obtain rfl := Option.some.inj hrequest
      exact ⟨_, _, .opened _, rfl⟩
    · obtain rfl := Option.some.inj hrequest
      exact ⟨_, _, .abandoned _, rfl⟩
    · cases hrequest
  obtain ⟨opened, budget, hopened, heq⟩ := hasked
  rw [heq, h.generateOn hw]
  constructor
  · refine ⟨_, Streams.get?_add_self _, ?_, ?_⟩
    · exact (opened.extends_finish _).session.trans hopened.session_eq
    · rw [hopened.flowing.finish_log, hopened.log_eq, (opened.extends_finish _).handleOpen]
      rfl
  · refine ⟨{ s with inputError := none }, ?_, rfl, h.idle, rfl⟩
    show (w.sessions.modify slot _).get? slot = _
    rw [SlotArena.get?_modify_self, h.session, Option.map_some]

/-- A request is refused with a cause only if the session has kept it. -/
theorem exists_owes_of_refused {id : SessionId} {budget capacity : Nat}
    (hstream : (w.act (.command (.generate id budget capacity))).streams.get?
      w.streams.entries.length = some stream)
    (hlog : stream.log = [.error (lossMessage id cause)]) (hw : w.Seated) :
    ∃ slot s, w.Owes slot s cause ∧ s.id = id := by
  have hfresh : FreshStream id (.ofCapacity id capacity) := .opened capacity
  change (w.generateOn (.ofCapacity id capacity) id budget).streams.get? _ = some stream at hstream
  rcases hw.dismissal_or_opened (.ofCapacity id capacity) id budget with
    ⟨event, base, hdismissed⟩ | hopen
  · rw [hdismissed.generateOn hw] at hstream
    obtain rfl := Option.some.inj ((w.streams.get?_add_self _).symm.trans hstream)
    rw [hfresh.flowing.finish_log, hfresh.log_eq] at hlog
    have hevent : event = .error (lossMessage id cause) := (List.cons.inj hlog).1
    -- Only a loss is told in these words.
    cases hdismissed with
    | unknown => exact absurd (StreamEvent.error.inj hevent) unknownSession_ne_lossMessage
    | busy | noInput =>
      exact absurd (StreamEvent.error.inj hevent) (append_ne_lossMessage (by decide))
    | lost hs hid hidle hlost =>
      obtain rfl := lossMessage_inj (StreamEvent.error.inj hevent)
      exact ⟨_, _, ⟨hs, hidle, hlost⟩, hid⟩
    | nothing => cases hevent
  -- An accepted request has nothing on its stream yet.
  · rw [hopen] at hstream
    obtain rfl := Option.some.inj ((w.streams.get?_add_self _).symm.trans hstream)
    rw [hfresh.log_eq] at hlog
    cases hlog

/-! ### Silence -/

theorem ActsOn.named {slots : List Slot} (h : ActsOn slots w w') (hsound : w.StreamsSound)
    (hnamed : w.Named) : w'.Named := by
  intro slot s' g' stream' hruns'
  have hheld : w.holder slot = some g'.stream := by
    by_contra hne
    exact h.holder_ne hne hruns'.holder
  obtain ⟨s, g, stream, hruns, hsame⟩ := hsound.exists_runs hheld
  obtain ⟨stream₁, hstream₁, hextends⟩ := h.grows g.stream stream hruns.stream
  rw [hsame] at hstream₁
  obtain rfl := Option.some.inj (hstream₁.symm.trans hruns'.stream)
  obtain ⟨s₀, hs₀, hseat⟩ := h.get?_of_get? hruns'.session
  obtain rfl := Option.some.inj (hs₀.symm.trans hruns.session)
  rw [hextends.session, hnamed slot s₀ g stream hruns]
  exact (congrArg Prod.fst hseat).symm

/-- While a session does not generate, nobody holds a stream of it. -/
theorem Named.unheld_of_idle (hnamed : w.Named) (hw : w.Seated) (hsound : w.StreamsSound)
    (hs : w.sessions.get? slot = some s) (hidle : s.generation = none) {id : StreamId}
    (hstream : w.streams.get? id = some stream) (hsession : stream.session = s.id) (slot' : Slot) :
    w.holder slot' ≠ some id := by
  intro hheld
  obtain ⟨s', g, stream', hruns, rfl⟩ := hsound.exists_runs hheld
  obtain rfl := Option.some.inj (hstream.symm.trans hruns.stream)
  have hslot := hw.find?_id hruns.session
  rw [← hnamed slot' s' g stream hruns, hsession, hw.find?_id hs] at hslot
  obtain rfl := Option.some.inj hslot
  obtain rfl := Option.some.inj (hs.symm.trans hruns.session)
  exact nomatch hidle.symm.trans hruns.generation

/-- A stream stays one session's. -/
theorem session_act (hw : w.Seated) (hsound : w.StreamsSound) {action : Action} {id : StreamId}
    {stream' : Stream} (hstream : w.streams.get? id = some stream)
    (hstream' : (w.act action).streams.get? id = some stream') :
    stream'.session = stream.session := by
  by_cases hheld : ∃ slot, w.holder slot = some id
  · obtain ⟨slot, hheld⟩ := hheld
    obtain ⟨s, g, stream₀, hruns, rfl⟩ := hsound.exists_runs hheld
    obtain rfl := Option.some.inj (hstream.symm.trans hruns.stream)
    obtain ⟨g?, stream₁, hleaves, hgoes⟩ := hruns.act hw hsound action
    have hstream₁ : (w.act action).streams.get? g.stream = some stream₁ := by
      cases g? with
      | none => exact hleaves.1
      | some g' =>
        obtain ⟨hsame, s', hruns', -⟩ := hleaves
        exact hsame ▸ hruns'.stream
    obtain rfl := Option.some.inj (hstream₁.symm.trans hstream')
    exact hgoes.session_eq
  · rw [not_exists] at hheld
    obtain ⟨-, stream₁, hstream₁, hsession, -⟩ := (step_act w action).unheld hheld hw hstream
    obtain rfl := Option.some.inj (hstream₁.symm.trans hstream')
    exact hsession

/-- **No action writes to the streams of a session that does not generate**, and only requests to
generate for it open new ones. -/
theorem Named.log_act_of_idle (hnamed : w.Named) (hw : w.Seated) (hsound : w.StreamsSound)
    (hs : w.sessions.get? slot = some s) (hidle : s.generation = none) {action : Action}
    (haction : action.generates ≠ some s.id) {id : StreamId} {stream' : Stream}
    (hstream' : (w.act action).streams.get? id = some stream') (hsession : stream'.session = s.id) :
    ∃ stream, w.streams.get? id = some stream ∧ stream.session = s.id ∧
      stream'.log = stream.log := by
  have hstep := step_act w action
  cases hold : w.streams.get? id with
  | none =>
    obtain ⟨name, hname, hopened⟩ := hstep.opened hold hstream'
    rw [← hsession, hopened.session_eq] at haction
    exact absurd hname haction
  | some stream =>
    have hsame : stream.session = s.id := (session_act hw hsound hold hstream').symm.trans hsession
    have hfree := hnamed.unheld_of_idle hw hsound hs hidle hold hsame
    obtain ⟨-, stream₁, hstream₁, -, hlog, -⟩ := hstep.unheld hfree hw hold
    obtain rfl := Option.some.inj (hstream₁.symm.trans hstream')
    exact ⟨stream, rfl, hsame, hlog⟩

/-- The rest of a tick does not either. -/
theorem Named.log_tick_of_idle (hnamed : w.Named) (hw : w.Seated) (hsound : w.StreamsSound)
    (hs : w.prefillStage.sessions.get? slot = some s) (hidle : s.generation = none)
    {id : StreamId} {stream' : Stream} (hstream' : w.tick.worker.streams.get? id = some stream')
    (hsession : stream'.session = s.id) :
    ∃ stream, w.prefillStage.streams.get? id = some stream ∧ stream'.log = stream.log := by
  have hnamed' : w.prefillStage.Named := w.beginTick.actsOn_sweep.named hsound.beginTick
    fun slot s g stream hruns =>
      hnamed slot s g stream ⟨hruns.session, hruns.generation, hruns.stream⟩
  obtain ⟨context, hprefill⟩ := w.beginTick.sweep.actsOn_prefill
  have hdecode : w.beginTick.sweep.prefill.worker.Seated := hw.decodeStage
  obtain ⟨context', hdecode⟩ := Turn.actsOn_decode hdecode
  rw [tick] at hstream'
  cases hold : w.prefillStage.streams.get? id with
  | none =>
    have hcount : w.beginTick.sweep.prefill.decode.worker.streams.entries.length =
        w.prefillStage.streams.entries.length :=
      hdecode.streamCount.trans hprefill.streamCount
    exact absurd hold (Streams.ne_none_of_length_le hcount.le hstream')
  | some stream =>
    obtain ⟨stream₁, hstream₁, hextends₁⟩ := hprefill.grows id stream hold
    obtain ⟨stream₂, hstream₂, hextends₂⟩ := hdecode.grows id stream₁ hstream₁
    obtain rfl := Option.some.inj (hstream₂.symm.trans hstream')
    have hsame : stream.session = s.id :=
      (hextends₁.trans hextends₂).session.symm.trans hsession
    have hfree := hnamed'.unheld_of_idle hw.prefillStage hsound.prefillStage hs hidle hold hsame
    obtain ⟨hfree₁, hkept₁⟩ := (stepInvariant_unheld id (some stream)).prefill ⟨hfree, hold⟩
    obtain ⟨-, hkept₂⟩ := (stepInvariant_unheld id (some stream)).decode ⟨hfree₁, hkept₁⟩
    obtain rfl := Option.some.inj (hkept₂.symm.trans hstream')
    exact ⟨stream, rfl, rfl⟩

/-- While a loss is not told, nothing is written to the streams of the session. -/
theorem Owes.log_run (h : w.Owes slot s cause) (hw : w.Seated) (hsound : w.StreamsSound)
    (hnamed : w.Named) (actions : List Action)
    (hunsettled : ∀ action ∈ actions, ¬ action.Settles s.id) {id : StreamId} {stream' : Stream}
    (hstream' : (w.run actions).streams.get? id = some stream')
    (hsession : stream'.session = s.id) :
    ∃ stream, w.streams.get? id = some stream ∧ stream.session = s.id ∧
      stream'.log = stream.log := by
  induction actions generalizing w s cause with
  | nil => exact ⟨stream', hstream', hsession, rfl⟩
  | cons action rest ih =>
    obtain ⟨hnow, hlater⟩ := List.forall_mem_cons.mp hunsettled
    obtain ⟨s₁, h₁, hid₁⟩ := h.act hw hsound hnow
    have hstep := step_act w action
    rw [← hid₁] at hlater hsession
    obtain ⟨stream₁, hstream₁, hsession₁, hlog⟩ := ih h₁ (hstep.seated hw)
      (hstep.streamsSound hw hsound) (hnamed.act hw hsound action) hlater hstream' hsession
    rw [hid₁] at hsession₁
    obtain ⟨stream, hstream, hsession, hlog₁⟩ := hnamed.log_act_of_idle hw hsound h.session h.idle
      (fun hrequest => hnow (.inl hrequest)) hstream₁ hsession₁
    exact ⟨stream, hstream, hsession, hlog.trans hlog₁⟩

/-! ### Looking back -/

/-- A tick drops input of a session that does not generate at that moment. -/
structure DropsIdle (w : Worker b) (slot : Slot) (id : SessionId) (cause : String) : Prop where
  idle : ∃ s, w.prefillStage.sessions.get? slot = some s ∧ s.id = id ∧ s.generation = none
  drop : w.dropCause? id = some cause

theorem Owes.before_tick (h : w.tick.worker.Owes slot s cause) (hw : w.Seated)
    (hsound : w.StreamsSound) (hinformed : w.EverySession Session.Informed) :
    w.DropsIdle slot s.id cause ∨
      ∃ s₀, w.Owes slot s₀ cause ∧ s₀.id = s.id ∧ w.dropCause? s.id = none := by
  have hbegin := hsound.beginTick
  have hinformed₁ := sessionRule_informed.sweep (t := w.beginTick) hbegin.distinct hinformed
  obtain ⟨context, hprefill⟩ := w.beginTick.sweep.actsOn_prefill
  have hdecode : w.beginTick.sweep.prefill.worker.Seated := hw.decodeStage
  obtain ⟨context', hdecode⟩ := Turn.actsOn_decode hdecode
  have hs := h.session
  rw [Worker.tick] at hs
  -- The session was there before each stage.
  obtain ⟨s₂, hs₂, -⟩ := hdecode.get?_of_get? hs
  obtain ⟨s₁, hs₁, -⟩ := hprefill.get?_of_get? hs₂
  -- Either the prefill stage has dropped tokens of it, and then the cause is the latest one; or it
  -- has not, and then the cause is older.
  cases hdrop : w.dropCause? s₁.id with
  | some latest =>
    cases hg : s₁.generation with
    | none =>
      obtain ⟨s', howes, hid⟩ := owes_of_lost hw hsound hs₁ hg hdrop
      obtain rfl := Option.some.inj (howes.session.symm.trans h.session)
      obtain rfl := Option.some.inj (howes.error.symm.trans h.error)
      exact .inl ⟨⟨s₁, hs₁, hid.symm, hg⟩, hid ▸ hdrop⟩
    | some g =>
      -- A generation would have been told, and nothing left to tell.
      obtain ⟨stream, hstream, -⟩ := hsound.prefillStage.flowing slot g.stream
        (holder_eq_some_iff.mpr ⟨s₁, g, hs₁, hg, rfl⟩)
      obtain ⟨⟨s', hs', -, -, herror⟩, -⟩ := Runs.lost ⟨hs₁, hg, hstream⟩ hw hsound hinformed hdrop
      obtain rfl := Option.some.inj (hs'.symm.trans h.session)
      cases herror.symm.trans h.error
  | none =>
    obtain ⟨s', hs', hid, herror, -⟩ := tick_keeps hw hsound hs₁ hdrop
    obtain rfl := Option.some.inj (hs'.symm.trans h.session)
    obtain ⟨s₀, hs₀, hswept⟩ := Turn.before_sweep hbegin.distinct hs₁
    have herror₀ : s₀.inputError = some cause ∧ s₀.id = s'.id := by
      rcases hswept with rfl | rfl
      · exact ⟨herror.symm.trans h.error, hid.symm⟩
      · exact ⟨herror.symm.trans h.error, hid.symm⟩
    -- Who generates has no cause to tell, so the session did not generate before either.
    have hidle₀ : s₀.generation = none := by
      by_contra hactive
      obtain ⟨g, hg⟩ := Option.ne_none_iff_exists'.mp hactive
      cases (hinformed slot s₀ hs₀ g hg).symm.trans herror₀.1
    exact .inr ⟨s₀, ⟨hs₀, hidle₀, herror₀.1⟩, herror₀.2, hid ▸ hdrop⟩

/-- **Who keeps a cause after an action** has just lost the input, or has kept it before. -/
theorem Owes.before {action : Action} (h : (w.act action).Owes slot s cause) (hw : w.Seated)
    (hsound : w.StreamsSound) (hinformed : w.EverySession Session.Informed) :
    action = .tick ∧ w.DropsIdle slot s.id cause ∨
      ∃ s₀, w.Owes slot s₀ cause ∧ s₀.id = s.id ∧ ¬ action.Settles s.id ∧
        (action = .tick → w.dropCause? s.id = none) := by
  by_cases htick : action = .tick
  · subst htick
    rcases h.before_tick hw hsound hinformed with hdrops | ⟨s₀, h₀, hid, hdrop⟩
    · exact .inl ⟨rfl, hdrops⟩
    · have hunsettled : ¬ Action.tick.Settles s.id := by
        rintro (h | h | h) <;> cases h
      exact .inr ⟨s₀, h₀, hid, hunsettled, fun _ => hdrop⟩
  -- Between ticks no action leaves a cause in a session that had none.
  · have hkept : ∃ s₀, w.Owes slot s₀ cause ∧ s₀.id = s.id := by
      rcases (step_act w action).touched hw htick h.session with
        ⟨s₀, hs₀, htouched⟩ | ⟨id, sampling, -, rfl⟩
      · have herror : s₀.inputError = some cause ∧ s₀.id = s.id := by
          have herror := h.error
          cases htouched with
          | same | queued => exact ⟨herror, rfl⟩
          | told => exact nomatch herror
          | started _ hnone => exact nomatch hnone.symm.trans herror
          | cancelled =>
            unfold Session.cancel at herror ⊢
            split at herror
            · exact ⟨herror, rfl⟩
            · exact ⟨herror, rfl⟩
        refine ⟨s₀, ⟨hs₀, ?_, herror.1⟩, herror.2⟩
        -- Nor did the session generate, as then it would have nothing to tell.
        by_contra hactive
        obtain ⟨g, hg⟩ := Option.ne_none_iff_exists'.mp hactive
        exact nomatch (hinformed slot s₀ hs₀ g hg).symm.trans herror.1
      · exact nomatch h.error
    obtain ⟨s₀, h₀, hid⟩ := hkept
    refine .inr ⟨s₀, h₀, hid, ?_, fun h => absurd h htick⟩
    have hfind := ((step_act w action).seated hw).find?_id h.session
    -- An action that settles the debt takes the cause out, or the session with it.
    rintro (hrequest | rfl | rfl)
    · obtain ⟨-, s', hs', -, -, herror⟩ := h₀.refuses hw (hrequest.trans (congrArg some hid.symm))
      obtain rfl := Option.some.inj (hs'.symm.trans h.session)
      exact nomatch herror.symm.trans h.error
    · exact nomatch (w.find?_handle_endSession s.id).symm.trans hfind
    · exact nomatch (hw.get?_shutdown slot).symm.trans h.session

/-- **Whoever keeps a cause has lost input** for this cause while it did not generate, and has not
been asked to generate since, nor lost more. -/
theorem Owes.since (worker : WorkerId) (context : b.Context) (config : WorkerConfig)
    (actions : List Action) (h : ((start worker context config).run actions).Owes slot s cause) :
    ∃ before after, actions = before ++ .tick :: after ∧
      ((start worker context config).run before).DropsIdle slot s.id cause ∧
      ((start worker context config).run before).tick.worker.dropCauses s.id after = [] ∧
      ∀ action ∈ after, ¬ action.Settles s.id := by
  -- By induction from the end: either the last action is the tick that lost the input, or the cause
  -- was kept before it too.
  induction actions using List.reverseRecOn generalizing s with
  | nil =>
    have hnobody := h.session
    rw [run_nil, get?_start] at hnobody
    cases hnobody
  | append_singleton early action ih =>
    rw [run_append, run_cons, run_nil] at h
    have hinformed := sessionRule_informed.run worker context config early
    rcases Owes.before h (seated_run ..) (streamsSound_run ..) hinformed with
      ⟨rfl, hdrops⟩ | ⟨s₀, h₀, hid, hunsettled, hnothing⟩
    · exact ⟨early, [], rfl, hdrops, rfl, fun _ hlater => absurd hlater List.not_mem_nil⟩
    · obtain ⟨before, after, rfl, hdrops, hcauses, hquiet⟩ := ih h₀
      rw [hid] at hdrops hcauses hquiet
      refine ⟨before, after ++ [action], by simp, hdrops, ?_, ?_⟩
      -- The tick added at the end lost nothing either.
      · have hlast : ∀ (w : Worker b) (actions : List Action),
            w.dropCauses s.id (actions ++ [action]) = w.dropCauses s.id actions ++
              if action = .tick then ((w.run actions).dropCause? s.id).toList else [] := by
          intro w actions
          induction actions generalizing w with
          | nil => simp [dropCauses]
          | cons first rest ih => simp [dropCauses, ih]
        rw [hlast, hcauses, List.nil_append]
        split_ifs with htick
        · have hnone := hnothing htick
          rw [run_append, run_cons] at hnone
          exact congrArg Option.toList hnone
        · rfl
      · intro later hlater
        rcases List.mem_append.mp hlater with hmem | hmem
        · exact hquiet later hmem
        · exact List.mem_singleton.mp hmem ▸ hunsettled

/-! ### All runs -/

/-- **Lost input is reported once.** After any run, on any backend:

* A generation whose session has tokens dropped by the next tick ends in this tick, and the next
  event on its stream is the error. The session has nothing more to tell.
* If the session does not generate at that moment, the next event for it is an error as well. As
  long as it is not ended nor asked to generate, nothing is written on its streams and no new stream
  is opened for it, whatever else happens; then the first request is refused, with the cause of the
  last failure, and the session has nothing more to tell.
* A request is refused for lost input only if some tick before has dropped tokens of the session,
  for the cause that is told, while it did not generate, and the session was not asked to generate
  since, so that no loss is told twice. -/
theorem lost_input_run (worker : WorkerId) (context : b.Context) (config : WorkerConfig)
    (actions : List Action) :
    let w := (start worker context config).run actions
    (∀ slot s g stream cause, w.prefillStage.Runs slot s g stream →
      w.dropCause? s.id = some cause →
        (∃ stream', w.tick.worker.streams.get? g.stream = some stream' ∧
          stream'.log = stream.log ++ [.error cause]) ∧
        ∃ s', w.tick.worker.sessions.get? slot = some s' ∧ s'.id = s.id ∧
          s'.generation = none ∧ s'.inputError = none) ∧
    (∀ slot id cause later, w.DropsIdle slot id cause →
      (∀ action ∈ later, ¬ action.Settles id) →
        let w' := w.tick.worker.run later
        let latest := (w.tick.worker.dropCauses id later).getLastD cause
        (∀ stream s', w'.streams.get? stream = some s' → s'.session = id →
          ∃ s, w.prefillStage.streams.get? stream = some s ∧ s'.log = s.log) ∧
        ∀ request : Action, request.generates = some id →
          (∃ s, (w'.act request).streams.get? w'.streams.entries.length = some s ∧
            s.session = id ∧
            s.log = if s.handleOpen then [.error s!"{id} lost queued input: {latest}"] else []) ∧
          ∃ s, (w'.act request).sessions.get? slot = some s ∧ s.id = id ∧ s.generation = none ∧
            s.inputError = none) ∧
    (∀ id budget capacity stream cause,
      (w.act (.command (.generate id budget capacity))).streams.get? w.streams.entries.length =
          some stream →
        stream.log = [.error s!"{id} lost queued input: {cause}"] →
          ∃ before after slot, actions = before ++ .tick :: after ∧
            ((start worker context config).run before).DropsIdle slot id cause ∧
            ((start worker context config).run before).tick.worker.dropCauses id after = [] ∧
            ∀ action ∈ after, ¬ action.Settles id) := by
  intro w
  have hw : w.Seated := seated_run ..
  have hsound : w.StreamsSound := streamsSound_run ..
  have hnamed : w.Named := named_run worker context config actions
  have hinformed : w.EverySession Session.Informed :=
    sessionRule_informed.run worker context config actions
  have htick := step_act w .tick
  refine ⟨fun slot s g stream cause hruns hdrop => ?_,
    fun slot id cause later hdrops hunsettled => ?_,
    fun id budget capacity stream cause hstream hlog => ?_⟩
  -- The session generates when its tokens are dropped, so its generation is told at once.
  · obtain ⟨hsession, hstream⟩ := hruns.lost hw hsound hinformed hdrop
    exact ⟨hstream, hsession⟩
  -- It does not generate, so it owes the error, and goes on owing the latest one while it is left
  -- alone (`Owes.run`).
  · obtain ⟨⟨s, hs, rfl, hidle⟩, hdrop⟩ := hdrops
    obtain ⟨s₁, h₁, hid₁⟩ := owes_of_lost hw hsound hs hidle hdrop
    have hw₁ : w.tick.worker.Seated := htick.seated hw
    have hsound₁ : w.tick.worker.StreamsSound := htick.streamsSound hw hsound
    rw [← hid₁] at hunsettled
    obtain ⟨s₂, h₂, hid₂⟩ := h₁.run hw₁ hsound₁ later hunsettled
    constructor
    -- Its streams have no holder, in the tick and later, and nobody opens one for it.
    · intro stream s' hs' hsession
      rw [← hid₁] at hsession
      obtain ⟨stream₁, hstream₁, hsession₁, hlog⟩ := h₁.log_run hw₁ hsound₁
        (hnamed.act hw hsound .tick) later hunsettled hs' hsession
      obtain ⟨stream₀, hstream₀, hlog₀⟩ := hnamed.log_tick_of_idle hw hsound hs hidle hstream₁
        (hsession₁.trans hid₁)
      exact ⟨stream₀, hstream₀, hlog.trans hlog₀⟩
    -- The first request finds the cause and is refused for it.
    · intro request hrequest
      have hw₂ : (w.tick.worker.run later).Seated :=
        run_induction (fun _ action hw => (step_act _ action).seated hw) hw₁ later
      rw [← hid₁, ← hid₂] at hrequest
      have hrefused := h₂.refuses hw₂ hrequest
      rw [hid₂, hid₁] at hrefused
      exact hrefused
  -- Such a refusal shows that the session owes an error, and whoever owes one has come to it by a
  -- drop.
  · obtain ⟨slot, s, howes, rfl⟩ := exists_owes_of_refused hstream hlog hw
    obtain ⟨before, after, heq, hdrops, hcauses, hunsettled⟩ :=
      Owes.since worker context config actions howes
    exact ⟨before, after, slot, heq, hdrops, hcauses, hunsettled⟩

/-- Two bytes of input, the first of which the model refuses. -/
def refusedInput : List Action :=
  [.command (.createSession ⟨1⟩ {}), .command (.appendInput ⟨1⟩ "xa")]

/-- A worker with this input, which nobody has asked to generate. -/
def refusedWorker : Worker (ByteModel.backend { failOn := some 120 }) :=
  (start ⟨0⟩ (ByteModel.Context.mk [[]]) {}).run refusedInput

theorem lost_input_run_refused :
    ∃ s, ((refusedWorker.tick.worker.run [.command (.appendInput ⟨1⟩ "b")]).act
        (.command (.generate ⟨1⟩ 4 2))).streams.get? 0 = some s ∧
      s.log =
        [.error "session-1 lost queued input: Compute failure: injected failure on token 120"] := by
  obtain ⟨-, hidle, -⟩ := lost_input_run (b := ByteModel.backend { failOn := some 120 }) ⟨0⟩
    (ByteModel.Context.mk [[]]) {} refusedInput
  have hsession : refusedWorker.prefillStage.sessions.get? ⟨0⟩ = some
      { id := ⟨1⟩, slot := ⟨0⟩, pending := [120, 97], sampler := .ofConfig {} } := by
    decide +kernel
  have hdrop : refusedWorker.dropCause? ⟨1⟩ =
      some "Compute failure: injected failure on token 120" := by
    decide +kernel
  have hunsettled : ∀ action ∈ [Action.command (.appendInput ⟨1⟩ "b")],
      ¬ action.Settles ⟨1⟩ := by
    intro action haction
    obtain rfl := List.mem_singleton.mp haction
    rintro (h | h | h) <;> cases h
  obtain ⟨-, hrequests⟩ := hidle ⟨0⟩ ⟨1⟩ _ _ ⟨⟨_, hsession, rfl, rfl⟩, hdrop⟩ hunsettled
  obtain ⟨⟨s, hs, -, hlog⟩, -⟩ := hrequests (.command (.generate ⟨1⟩ 4 2)) rfl
  have hcount :
      (refusedWorker.tick.worker.run [.command (.appendInput ⟨1⟩ "b")]).streams.entries.length =
        0 := by
    decide +kernel
  change ((refusedWorker.tick.worker.run _).act _).streams.get?
    (refusedWorker.tick.worker.run _).streams.entries.length = some s at hs
  rw [hcount] at hs
  have hopen : (((refusedWorker.tick.worker.run [.command (.appendInput ⟨1⟩ "b")]).act
      (.command (.generate ⟨1⟩ 4 2))).streams.get? 0).map Stream.handleOpen = some true := by
    decide +kernel
  rw [hs, Option.map_some] at hopen
  rw [Option.some.inj hopen, if_pos rfl] at hlog
  exact ⟨s, hs, hlog⟩

end Worker

end Turnwise
