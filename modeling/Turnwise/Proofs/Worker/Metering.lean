import Mathlib.Tactic.Abel
import Turnwise.Proofs.Sampler
import Turnwise.Proofs.Worker.Report

/-!
# Metering

The counts of a worker agree with what it has done: its two gauges say how many sessions are live
and how many of them generate, and its counters say how many tokens were written by prefill, how
many were sampled, and what has become of the requests to generate.

All this is one balance. For each `Account` a tally counts something (`Account.counted`) and a
session shows a part of it (`Account.shown`); the difference over all sessions of a worker is its
`Worker.surplus`. Nearly every step of a worker moves the two sides alike. What is left is the entry
of an action: the tokens that a tick reports as written, the draws of the sessions that end, and one
for each request that is accepted (`Worker.surplus_act`).

Entries add up, over the actions of a run and over several workers (`Worker.metered_run`).
-/

namespace Turnwise

/-! ### Accounts -/

/-- The generations that are over, however they ended. -/
def Tally.ended (t : Tally) : Nat := (FinishReason.all.map t.finished).sum + t.failed

/-- What a worker keeps account of. -/
inductive Account where
  /-- Live sessions. -/
  | sessions
  /-- Sessions that generate. -/
  | generations
  /-- Tokens of input that were written by prefill. -/
  | prefilled
  /-- Tokens that were sampled. -/
  | generated
  /-- Requests to generate that were accepted. -/
  | requests
  deriving DecidableEq

namespace Account

/-- What a tally says. The requests that were accepted are those whose generation is over and those
whose generation goes on. -/
def counted (t : Tally) : Account → ℤ
  | sessions => t.activeSessions
  | generations => t.activeGenerations
  | prefilled => t.tokensPrefilled
  | generated => t.tokensGenerated
  | requests => t.ended + t.activeGenerations

/-- What one session shows. -/
def shown (s : Session) : Account → ℤ
  | sessions => 1
  | generations => if s.generation.isSome then 1 else 0
  | generated => s.sampler.draws
  | prefilled | requests => 0

theorem shown_congr {s s' : Session} (hgeneration : s'.generation.isSome = s.generation.isSome)
    (hdraws : s'.sampler.draws = s.sampler.draws) : shown s' = shown s := by
  funext account
  cases account <;> simp [shown, hgeneration, hdraws]

theorem shown_commitDecode (s : Session) : shown s.commitDecode = shown s := by
  unfold Session.commitDecode
  split
  · rfl
  · exact shown_congr rfl rfl

theorem shown_cancel (s : Session) : shown s.cancel.2 = shown s := by
  unfold Session.cancel
  split
  · rename_i g hg
    exact shown_congr (by rw [hg]; rfl) rfl
  · rfl

/-- The end of a generation is counted as what the session does not show any more. -/
theorem counted_generationEnded {t : Tally} {s : Session} {g : Generation} {event : StreamEvent}
    (hg : s.generation = some g) (hevent : event.isTerminal = true) :
    counted (t.generationEnded event) + shown s = counted t + shown s.idle := by
  funext account
  have hended : (t.generationEnded event).ended = t.ended + 1 := by
    cases event with
    | chunk text => cases hevent
    | error cause => rfl
    | done reason =>
      cases reason <;>
        simp [Tally.ended, Tally.generationEnded, Tally.countFinished, FinishReason.all] <;> omega
  have hactive : (t.generationEnded event).activeGenerations = t.activeGenerations - 1 := by
    cases event <;> rfl
  have hsame : (t.generationEnded event).activeSessions = t.activeSessions ∧
      (t.generationEnded event).tokensPrefilled = t.tokensPrefilled ∧
      (t.generationEnded event).tokensGenerated = t.tokensGenerated := by
    cases event <;> exact ⟨rfl, rfl, rfl⟩
  obtain ⟨hsessions, hprefilled, hgenerated⟩ := hsame
  cases account <;>
    simp [counted, shown, Session.idle, hg, hended, hactive, hsessions, hprefilled, hgenerated]
end Account

namespace Worker

variable {b : Backend} {w w' : Worker b} {slot : Slot} {s : Session}

/-- What a worker counts beyond what its sessions show. -/
def surplus (w : Worker b) : Account → ℤ :=
  Account.counted w.tally - w.sessions.total Account.shown

/-- Something is counted, and the sessions are as they were. -/
theorem surplus_count {extra : Account → ℤ} (hsessions : w'.sessions = w.sessions)
    (hcounted : Account.counted w'.tally = Account.counted w.tally + extra) :
    w'.surplus = w.surplus + extra := by
  rw [surplus, surplus, hsessions, hcounted]
  abel

theorem surplus_apply (w : Worker b) (account : Account) : w.surplus account =
    Account.counted w.tally account - w.sessions.total fun s => Account.shown s account :=
  congrArg (Account.counted w.tally account - ·) (w.sessions.total_apply ..)

theorem surplus_congr (hsessions : w'.sessions = w.sessions)
    (hcounted : Account.counted w'.tally = Account.counted w.tally) : w'.surplus = w.surplus := by
  rw [surplus, surplus, hsessions, hcounted]

/-- A session changes, and something is counted that it does not show. -/
theorem surplus_modify (hs : w.sessions.get? slot = some s) {f : Session → Session}
    {extra : Account → ℤ} (hsessions : w'.sessions = w.sessions.modify slot f)
    (hcounted : Account.counted w'.tally + Account.shown s =
      Account.counted w.tally + Account.shown (f s) + extra) :
    w'.surplus = w.surplus + extra := by
  have hs' : w'.sessions.get? slot = some (f s) := by
    rw [hsessions, SlotArena.get?_modify_self, hs, Option.map_some]
  have hplaces : w'.sessions.entries.length = w.sessions.entries.length := by
    rw [hsessions, SlotArena.length_entries_modify]
  have hothers : ∀ slot', slot' ≠ slot → w'.sessions.get? slot' = w.sessions.get? slot' := by
    intro slot' hne
    rw [hsessions, SlotArena.get?_modify_of_ne hne]
  have htotal := SlotArena.total_add_amountAt hplaces (SlotArena.lt_length_of_get?_eq_some hs)
    hothers Account.shown
  rw [SlotArena.amountAt_of_get? hs, SlotArena.amountAt_of_get? hs'] at htotal
  rw [surplus, surplus, eq_sub_of_add_eq hcounted, eq_sub_of_add_eq htotal]
  abel

/-- What is counted is what the session shows. -/
theorem surplus_modify_of_balanced (hs : w.sessions.get? slot = some s) {f : Session → Session}
    (hsessions : w'.sessions = w.sessions.modify slot f)
    (hcounted : Account.counted w'.tally + Account.shown s =
      Account.counted w.tally + Account.shown (f s)) :
    w'.surplus = w.surplus := by
  rw [← add_zero (_ + Account.shown (f s))] at hcounted
  rw [surplus_modify hs hsessions hcounted, add_zero]

/-- A change that the meters do not see. -/
theorem surplus_modifySession {f : Session → Session}
    (hf : ∀ s, Account.shown (f s) = Account.shown s) :
    (w.modifySession slot f).surplus = w.surplus := by
  cases hs : w.sessions.get? slot with
  | none =>
    have htotal : (w.sessions.modify slot f).total Account.shown =
        w.sessions.total Account.shown := by
      refine SlotArena.total_congr (SlotArena.length_entries_modify slot f) fun slot' => ?_
      rw [SlotArena.amountAt, SlotArena.get?_modify, SlotArena.amountAt]
      split_ifs with heq
      · rw [heq, hs, Option.map_none]
      · rfl
    rw [surplus, surplus]
    exact congrArg (Account.counted w.tally - ·) htotal
  | some s =>
    refine surplus_modify_of_balanced hs rfl ?_
    rw [hf]
    rfl

/-! ### Steps of a tick -/

/-- Every end of a generation is counted. -/
theorem surplus_finishGeneration (w : Worker b) (slot : Slot) {event : StreamEvent}
    (hevent : event.isTerminal = true) : (w.finishGeneration slot event).surplus = w.surplus := by
  unfold finishGeneration
  split
  · rfl
  · rename_i g hg
    obtain ⟨s, hs, hg⟩ := Option.bind_eq_some_iff.mp hg
    exact surplus_modify_of_balanced hs rfl (Account.counted_generationEnded hg hevent)

theorem surplus_advance (w : Worker b) (slot : Slot) (token : Token) :
    (Turn.advance w slot token).2.surplus = w.surplus := by
  cases hheld : w.holder slot with
  | none => rw [advance_of_holder_eq_none hheld]
  | some stream =>
    obtain ⟨s, g, hs, hg, rfl⟩ := holder_eq_some_iff.mp hheld
    obtain ⟨g', -, heq⟩ := advance_cases hs hg token
    have hstored : ∀ w' : Worker b,
        w'.sessions = w.sessions.modify slot (fun s => { s with generation := some g' }) →
          w'.tally = w.tally → w'.surplus = w.surplus := by
      intro w' hsessions htally
      have hshown : Account.shown { s with generation := some g' } = Account.shown s :=
        Account.shown_congr (by rw [hg]; rfl) rfl
      refine surplus_modify_of_balanced hs hsessions ?_
      rw [htally, hshown]
    rcases heq with heq | ⟨text, -, heq⟩
    · exact hstored _ (by rw [heq]; rfl) (by rw [heq]; rfl)
    · exact hstored _ (by rw [heq]; rfl) (by rw [heq]; rfl)

end Worker

namespace Turn

open Worker

variable {b : Backend} (t : Turn b)

theorem surplus_sweepSlot (slot : Slot) :
    (t.sweepSlot slot).worker.surplus = t.worker.surplus := by
  cases hs : t.worker.sessions.get? slot with
  | none =>
    unfold sweepSlot
    rw [hs]
  | some s =>
    rw [sweepSlot_worker hs]
    split
    · rfl
    · rename_i event hevent
      obtain ⟨g, -, hg⟩ := Option.bind_eq_some_iff.mp hevent
      refine surplus_finishGeneration _ slot ?_
      unfold sweepEvent? at hg
      split_ifs at hg <;> exact Option.some.inj hg ▸ rfl

theorem surplus_commitShare (share : Slot × Nat) :
    (t.commitShare share).worker.surplus = t.worker.surplus := by
  unfold commitShare
  split
  · rfl
  · exact surplus_modifySession fun s => Account.shown_congr rfl rfl

theorem surplus_dropShare (cause : String) (share : Slot × Nat) :
    (dropShare cause t share).worker.surplus = t.worker.surplus := by
  have hdiscard : (t.worker.modifySession share.1 (Session.discardPending · share.2)).surplus =
      t.worker.surplus :=
    surplus_modifySession fun s => Account.shown_congr rfl rfl
  cases hs : t.worker.sessions.get? share.1 with
  | none =>
    unfold dropShare
    rw [hs]
  | some s =>
    rw [dropShare_worker hs]
    split
    · exact (surplus_finishGeneration _ _ rfl).trans hdiscard
    · have hkeep : ∀ s : Session,
          Account.shown { s with inputError := some cause } = Account.shown s :=
        fun s => Account.shown_congr rfl rfl
      exact (surplus_modifySession hkeep).trans hdiscard

theorem surplus_failOwner (cause : String) (owner : SessionId) :
    (failOwner cause t owner).worker.surplus = t.worker.surplus := by
  unfold failOwner
  split
  · rfl
  · exact surplus_finishGeneration _ _ rfl

/-- A token that is sampled is counted once, and the sampler shows one more draw. -/
theorem surplus_queueSampled {w : Worker b} {slot : Slot} {s : Session}
    (hs : w.sessions.get? slot = some s) {logits : Logits} {token : Token} {sampler : Sampler}
    (hsample : s.sampler.sample logits = .ok (token, sampler)) :
    (queueSampled w slot token sampler).surplus = w.surplus := by
  let committed := w.modifySession slot Session.commitDecode
  have hcommit : committed.surplus = w.surplus := surplus_modifySession Account.shown_commitDecode
  have hs' : committed.sessions.get? slot = some s.commitDecode := by
    show (w.sessions.modify slot _).get? slot = _
    rw [SlotArena.get?_modify_self, hs, Option.map_some]
  have hcounted : Account.counted (queueSampled w slot token sampler).tally +
      Account.shown s.commitDecode = Account.counted committed.tally +
        Account.shown ({ s.commitDecode with sampler }.enqueue [token]) := by
    have hdraws := Sampler.draws_of_sample hsample
    rw [Account.shown_commitDecode]
    funext account
    cases account <;>
      simp [Account.counted, Account.shown, queueSampled, committed, Session.enqueue, hdraws,
        modifySession, Tally.ended]
    omega
  exact (surplus_modify_of_balanced hs' rfl hcounted).trans hcommit

theorem surplus_acceptRow (row : SessionId × Logits) :
    (t.acceptRow row).worker.surplus = t.worker.surplus := by
  obtain ⟨owner, logits⟩ := row
  cases hfind : t.worker.find? owner with
  | none =>
    unfold acceptRow
    rw [hfind]
  | some entry =>
    obtain ⟨slot, s⟩ := entry
    have hs := (find?_eq_some_iff.mp hfind).2
    rw [acceptRow_worker hfind]
    split
    · have hcommit : (t.worker.modifySession slot Session.commitDecode).surplus =
          t.worker.surplus := surplus_modifySession Account.shown_commitDecode
      exact (surplus_finishGeneration _ slot rfl).trans hcommit
    · rename_i token sampler hsample
      have hqueued := surplus_queueSampled hs hsample
      have hadvanced := (surplus_advance _ slot token).trans hqueued
      split
      · rename_i heq
        rwa [heq] at hadvanced
      · rename_i event w heq
        rw [heq] at hadvanced
        have hevent : event.isTerminal = true := isTerminal_advance (by rw [heq])
        exact (surplus_finishGeneration w slot hevent).trans hadvanced

/-! ### Stages of a tick -/

theorem surplus_sweep : t.sweep.worker.surplus = t.worker.surplus :=
  foldl_preserves (P := fun w => w.surplus = t.worker.surplus)
    (fun t' slot h => (t'.surplus_sweepSlot slot).trans h) _ rfl

theorem surplus_prefillCall : t.prefillCall.worker.surplus = t.worker.surplus := by
  have hcounted : Account.counted t.prefillCall.worker.tally = Account.counted t.worker.tally := by
    unfold prefillCall
    dsimp only
    split <;> (funext account; cases account <;> rfl)
  exact surplus_congr t.recast_prefillCall.sessions hcounted

theorem surplus_decodeCall : t.decodeCall.worker.surplus = t.worker.surplus := by
  have hcounted : Account.counted t.decodeCall.worker.tally = Account.counted t.worker.tally := by
    unfold decodeCall
    dsimp only
    split <;> (funext account; cases account <;> rfl)
  exact surplus_congr t.recast_decodeCall.sessions hcounted

/-- **The prefill stage counts the tokens that it reports.** -/
theorem surplus_prefill :
    t.prefill.worker.surplus = t.worker.surplus +
      Pi.single .prefilled ((t.worker.prefillReport.prefilled.map Prod.snd).sum : ℤ) := by
  -- Only a batch that the backend computes prefills anything: a failed one drops its shares.
  by_cases hslots : t.worker.prefillSlots = []
  · have hnothing : t.worker.prefillReport.prefilled = [] := by
      unfold prefillReport
      rw [prefillShares_of_prefillSlots hslots]
      split <;> rfl
    rw [prefill_of_prefillSlots hslots, hnothing]
    simp
  · rcases hcompute : (b.compute t.worker.context t.worker.prefillPlan.batch).2 with e | logits
    · have hnothing : t.worker.prefillReport.prefilled = [] := by
        unfold prefillReport
        rw [hcompute]
        exact TickReport.prefilled_gather_eq_nil fun _ _ => rfl
      have hdropped : t.prefill.worker.surplus = t.worker.surplus := by
        rw [prefill_of_error hslots hcompute]
        exact foldl_preserves (P := fun w => w.surplus = t.worker.surplus)
          (fun t' share h => (t'.surplus_dropShare e.message _).trans h) _ t.surplus_prefillCall
      rw [hdropped, hnothing]
      simp
    -- The report lists the shares of the batch, and the meter is given its size.
    · have hwritten : t.worker.prefillReport.prefilled.map Prod.snd =
          t.worker.prefillShares.map Share.count := by
        unfold prefillReport
        rw [hcompute]
        show (t.worker.prefillShares.flatMap fun share =>
          [(share.session.id, share.count)]).map Prod.snd = _
        rw [← List.map_eq_flatMap, List.map_map]
        rfl
      have hcommitted := foldl_preserves (P := fun w => w.surplus = t.worker.surplus)
        (fun t' (share : Share) h => (t'.surplus_commitShare (share.slot, share.count)).trans h)
        t.worker.prefillShares t.surplus_prefillCall
      rw [prefill_of_ok hslots hcompute, hwritten, ← size_prefillPlan, ← hcommitted]
      refine surplus_count rfl ?_
      funext account
      cases account <;> simp [update, Account.counted, Tally.ended]

theorem surplus_decode : t.decode.worker.surplus = t.worker.surplus := by
  by_cases hslots : t.worker.decodeSlots = []
  · rw [decode_of_decodeSlots hslots]
  · rcases hrows : (b.compute t.worker.context t.worker.decodePlan.batch).2.bind
        t.worker.decodePlan.batch.assignRows with e | rows
    · rw [decode_of_error hslots hrows]
      exact foldl_preserves (P := fun w => w.surplus = t.worker.surplus)
        (fun t' entry h => (t'.surplus_failOwner e.message _).trans h) _ t.surplus_decodeCall
    · rw [decode_of_ok hslots hrows]
      exact foldl_preserves (P := fun w => w.surplus = t.worker.surplus)
        (fun t' row h => (t'.surplus_acceptRow row).trans h) _ t.surplus_decodeCall

end Turn

/-- Whether an action may end sessions. -/
def Action.ends : Action → Bool
  | .command (.endSession _) | .shutdown => true
  | _ => false

namespace Worker

variable {b : Backend} {w w' : Worker b} {slot : Slot} {s : Session}

/-- **A tick counts the tokens of input that it reports.** -/
theorem surplus_tick (hw : w.Seated) (hsound : w.StreamsSound) :
    w.tick.worker.surplus = w.surplus +
      Pi.single .prefilled ((w.tick.report.prefilled.map Prod.snd).sum : ℤ) := by
  have hbegin : w.beginTick.worker.surplus = w.surplus := surplus_congr rfl rfl
  have hsweep : w.prefillStage.surplus = w.surplus := w.beginTick.surplus_sweep.trans hbegin
  have hprefill := w.beginTick.sweep.surplus_prefill
  have hdecode := w.beginTick.sweep.prefill.surplus_decode
  rw [prefilled_tick hw hsound, ← hsweep]
  rw [← tick] at hdecode
  exact hdecode.trans hprefill

/-! ### Sessions that begin and end -/

/-- The draws of the sessions that an action ends. -/
def endedDraws (w : Worker b) (action : Action) : Nat :=
  w.sessions.total fun s => if ((w.act action).index.find? s.id).isSome then 0 else s.sampler.draws

/-- Only sessions that end take draws with them. -/
theorem endedDraws_eq_zero (hw : w.Seated) {action : Action} (hshutdown : action ≠ .shutdown)
    (hend : ∀ slot s, w.sessions.get? slot = some s → action ≠ .command (.endSession s.id)) :
    w.endedDraws action = 0 := by
  refine w.sessions.total_eq_zero fun slot s hs => ?_
  have hlive := (step_act w action).find?_index_of_live (hw.find?_id hs) (hend slot s hs) hshutdown
  rw [hlive]
  rfl

theorem endedDraws_of_ends (hw : w.Seated) {action : Action} (hends : action.ends = false) :
    w.endedDraws action = 0 := by
  refine endedDraws_eq_zero hw ?_ fun slot s _ => ?_
  · rintro rfl
    cases hends
  · rintro rfl
    cases hends

theorem endedDraws_endSession (hw : w.Seated) (hs : w.sessions.get? slot = some s) :
    w.endedDraws (.command (.endSession s.id)) = s.sampler.draws := by
  have hgone : (w.act (.command (.endSession s.id))).index.find? s.id = none :=
    w.find?_handle_endSession s.id
  refine (w.sessions.total_eq_of_get? hs fun slot' s' hne hs' => ?_).trans (by rw [hgone]; rfl)
  -- Nobody else has this name.
  have hother : Action.command (.endSession s.id) ≠ .command (.endSession s'.id) := by
    intro heq
    injection heq with heq
    injection heq with heq
    have hslot := hw.find?_id hs'
    rw [← heq, hw.find?_id hs] at hslot
    exact hne (Option.some.inj hslot).symm
  have hlive := (step_act w _).find?_index_of_live (hw.find?_id hs') hother nofun
  rw [hlive]
  rfl

theorem endedDraws_shutdown (w : Worker b) :
    w.endedDraws .shutdown = w.sessions.total fun s => s.sampler.draws := by
  have hindex : (w.act .shutdown).index = {} := by rw [act, shutdown_eq]
  unfold endedDraws
  rw [hindex]
  rfl

/-- A new session is counted and has not drawn yet. -/
theorem surplus_insert (hw : w.Seated) {id : SessionId} {sampling : Sampling}
    {sessions : SlotArena Session}
    (hinsert : w.sessions.insertWith (newSession id sampling) = some (slot, sessions)) :
    surplus { w with
      sessions
      index := w.index.insert id slot
      tally := { w.tally with activeSessions := w.tally.activeSessions + 1 } } = w.surplus := by
  obtain ⟨hvacant, hget⟩ := hw.arena.get?_insertWith hinsert
  have hs : sessions.get? slot = some (newSession id sampling slot) := by rw [hget, if_pos rfl]
  have hplaces := SlotArena.length_entries_insertWith hinsert
  have hplace : slot.index < w.sessions.entries.length :=
    hplaces ▸ SlotArena.lt_length_of_get?_eq_some hs
  have htotal := SlotArena.total_add_amountAt hplaces hplace
    (fun slot' hne => by rw [hget, if_neg hne]) Account.shown
  rw [SlotArena.amountAt_of_get? hs, SlotArena.amountAt_of_vacant hvacant, add_zero] at htotal
  rw [surplus, surplus, htotal]
  funext account
  cases account <;>
    simp [Account.counted, Account.shown, newSession, Sampler.ofConfig, Tally.ended]

theorem surplus_createSession (hw : w.Seated) (id : SessionId) (sampling : Sampling) :
    (w.handle (.createSession id sampling)).2.surplus = w.surplus := by
  unfold handle
  dsimp only
  rcases hcreate : w.createSession id sampling with e | ⟨slot, w'⟩
  · rfl
  · obtain ⟨-, -, sessions, hinsert, rfl⟩ := createSession_eq_ok hcreate
    exact surplus_insert hw hinsert

/-- The end of a session takes its draws out of sight. -/
theorem surplus_release (hs : w.sessions.get? slot = some s) (hidle : s.generation = none)
    (index : SessionIndex) :
    surplus { w.release slot with
      index
      tally := { w.tally with activeSessions := w.tally.activeSessions - 1 } } =
      w.surplus + Pi.single .generated (s.sampler.draws : ℤ) := by
  have hvacant : (w.sessions.erase slot).get? slot = none := by
    rw [SlotArena.get?_erase, if_pos rfl]
  have htotal := SlotArena.total_add_amountAt (SlotArena.length_entries_erase slot)
    (SlotArena.lt_length_of_get?_eq_some hs)
    (fun slot' hne => by rw [SlotArena.get?_erase, if_neg hne]) Account.shown
  rw [SlotArena.amountAt_of_get? hs, SlotArena.amountAt_of_vacant hvacant, add_zero] at htotal
  show _ - (w.sessions.erase slot).total Account.shown = _
  rw [surplus, ← htotal]
  funext account
  cases account <;> simp [Account.counted, Account.shown, hidle, Tally.ended] <;> omega

theorem surplus_endSession (hw : w.Seated) (id : SessionId) :
    (w.endSession id).2.surplus =
      w.surplus + Pi.single .generated (w.endedDraws (.command (.endSession id)) : ℤ) := by
  cases hslot : w.index.find? id with
  | none =>
    have hnobody : w.endedDraws (.command (.endSession id)) = 0 := by
      refine endedDraws_eq_zero hw nofun fun slot s hs heq => ?_
      injection heq with heq
      injection heq with heq
      rw [heq, hw.find?_id hs] at hslot
      cases hslot
    rw [endSession_of_find?_eq_none hslot, hnobody, Nat.cast_zero, Pi.single_zero, add_zero]
  | some slot =>
    obtain ⟨s, hs, rfl⟩ := (hw.index_iff id slot).mp hslot
    have hfinished := get?_finishGeneration hs (.done .sessionEnded)
    have hreleased := surplus_release hfinished rfl (w.index.erase s.id)
    rw [surplus_finishGeneration w slot rfl] at hreleased
    rw [endSession_of_find?_eq_some hslot, endedDraws_endSession hw hs]
    exact hreleased

theorem surplus_quiesce (w : Worker b) : w.quiesce.surplus = w.surplus := by
  have hfold : ∀ (slots : List Slot) (w' : Worker b),
      (slots.foldl (fun w slot => w.finishGeneration slot (.done .shutdown)) w').surplus =
        w'.surplus := by
    intro slots
    induction slots with
    | nil => exact fun _ => rfl
    | cons slot rest ih => exact fun w' => (ih _).trans (surplus_finishGeneration w' slot rfl)
  exact hfold w.sessions.slots w

theorem surplus_shutdown (hw : w.Seated) :
    w.shutdown.surplus = w.surplus + Pi.single .generated (w.endedDraws .shutdown : ℤ) := by
  have hvacant : w.shutdown.sessions.total Account.shown = 0 :=
    w.shutdown.sessions.total_eq_zero fun slot s hs => nomatch (hw.get?_shutdown slot).symm.trans hs
  -- `quiesce` leaves every session in its place without its generation, and releasing them all
  -- takes their number off the gauge.
  have hidle : w.quiesce.sessions.total Account.shown =
      w.sessions.total fun s => Account.shown s.idle := by
    refine SlotArena.total_congr (actsOn_quiesce w).places fun slot => ?_
    rw [SlotArena.amountAt, get?_quiesce, Option.map_map]
    rfl
  have hquiesce := w.surplus_quiesce
  have htally : w.shutdown.tally = { w.quiesce.tally with
      activeSessions := w.quiesce.tally.activeSessions - w.sessions.slots.length } := by
    rw [shutdown_eq]
    dsimp only
    rw [tally_releaseAll]
  have hshown : w.quiesce.sessions.total Account.shown =
      Pi.single .sessions (w.sessions.slots.length : ℤ) +
        Pi.single .generated (w.endedDraws .shutdown : ℤ) := by
    rw [hidle, endedDraws_shutdown]
    funext account
    rw [SlotArena.total_apply]
    cases account <;>
      simp [Account.shown, Session.idle, SlotArena.total_one, SlotArena.slots,
        SlotArena.total_eq_zero, SlotArena.total_natCast]
  rw [surplus, hshown] at hquiesce
  rw [← hquiesce, surplus, hvacant, htally]
  funext account
  cases account <;> simp [Account.counted, Tally.ended]

/-! ### Commands that are not counted -/

theorem surplus_appendInput (id : SessionId) (text : String) :
    (w.handle (.appendInput id text)).2.surplus = w.surplus := by
  unfold handle
  dsimp only
  rcases happend : w.appendInput id text with e | ⟨count, w'⟩
  · rfl
  · obtain ⟨slot, tokens, -, -, -, rfl⟩ := appendInput_eq_ok happend
    exact surplus_modifySession fun s => Account.shown_congr rfl rfl

theorem surplus_cancel (id : SessionId) : (w.cancel id).2.surplus = w.surplus := by
  rcases cancel_snd w id with heq | ⟨slot, s, -, heq⟩
  · rw [heq]
  · rw [heq]
    exact surplus_modifySession Account.shown_cancel

/-! ### Requests to generate -/

/-- A generation starts, or there is nothing to produce: either way it is counted. -/
theorem surplus_generateOn (stream : Stream) {id : SessionId} (budget : Nat)
    (hcan : w.CanGenerate id) :
    (w.generateOn stream id budget).surplus = w.surplus + Pi.single .requests 1 := by
  rcases w.generateOn_outcomes stream id budget with
    ⟨hrefused, -⟩ | ⟨hrefused, -⟩ | ⟨-, -, heq⟩ | ⟨slot, s, hfind, hidle, -, -, -, heq⟩
  · exact absurd hcan hrefused
  · exact absurd hcan hrefused
  · rw [heq]
    refine surplus_count rfl ?_
    funext account
    cases account <;> simp [Account.counted, Tally.countFinished, Tally.ended, FinishReason.all]
    omega
  · rw [heq]
    refine surplus_modify (find?_eq_some_iff.mp hfind).2 rfl ?_
    funext account
    cases account <;> simp [Account.counted, Account.shown, hidle, Tally.ended]
    omega

/-- A request that is refused is not counted. -/
theorem surplus_generateOn_of_refused (stream : Stream) {id : SessionId} (budget : Nat)
    (hrefused : ¬ w.CanGenerate id) : (w.generateOn stream id budget).surplus = w.surplus := by
  rcases w.generateOn_outcomes stream id budget with
    ⟨-, cause, heq⟩ | ⟨-, slot, s, cause, -, -, heq⟩ | ⟨hcan, -⟩ |
      ⟨slot, s, hfind, hidle, herror, hpending, -⟩
  · rw [heq]
    rfl
  · have hkeep : ∀ s : Session, Account.shown { s with inputError := none } = Account.shown s :=
      fun s => Account.shown_congr rfl rfl
    rw [heq]
    have htold : (w.modifySession slot _).surplus = w.surplus := surplus_modifySession hkeep
    exact (surplus_congr rfl rfl).trans htold
  · exact absurd hcan hrefused
  · exact absurd ⟨slot, s, hfind, hidle, herror, hpending⟩ hrefused

/-- Whether some session generates on a stream. -/
def isHeld (w : Worker b) (stream : StreamId) : Bool :=
  w.sessions.slots.any fun slot => w.holder slot == some stream

theorem isHeld_iff {stream : StreamId} :
    w.isHeld stream = true ↔ ∃ slot, w.holder slot = some stream := by
  simp only [isHeld, List.any_eq_true, beq_iff_eq]
  constructor
  · rintro ⟨slot, -, hheld⟩
    exact ⟨slot, hheld⟩
  · rintro ⟨slot, hheld⟩
    obtain ⟨s, -, hs, -⟩ := holder_eq_some_iff.mp hheld
    exact ⟨slot, SlotArena.mem_slots.mpr ⟨s, hs⟩, hheld⟩

/-- Whether an action is a request to generate that the worker accepts: after it some session
generates on the stream that was opened for it, or nothing was asked for and the stream says that it
is done. If the consumer has gone away already, it is what the worker would do if it listened. -/
def accepts (w : Worker b) : Action → Bool
  | .command (.generate id budget capacity) | .abandoned id budget capacity =>
      let (stream, w') := w.generate id budget capacity
      w'.isHeld stream ||
        budget == 0 && (w'.streams.get? stream).map Stream.log == some [.done .length]
  | _ => false

theorem accepts_generate_iff (id : SessionId) (budget capacity : Nat) :
    w.accepts (.command (.generate id budget capacity)) = true ↔
      (∃ slot, (w.generateOn (.ofCapacity id capacity) id budget).holder slot =
        some w.streams.entries.length) ∨
      budget = 0 ∧ ((w.generateOn (.ofCapacity id capacity) id budget).streams.get?
        w.streams.entries.length).map Stream.log = some [.done .length] := by
  rw [← isHeld_iff]
  show (isHeld _ _ || _ && _) = true ↔ _
  rw [Bool.or_eq_true, Bool.and_eq_true, beq_iff_eq, beq_iff_eq]
  rfl

/-- A stream that is opened and finished at once says only why. -/
theorem log_add_finish (streams : Streams) (id : SessionId) (capacity : Nat)
    (event : StreamEvent) :
    ((streams.add ((Stream.ofCapacity id capacity).finish event)).2.get?
      streams.entries.length).map Stream.log = some [event] := by
  have hflowing : (Stream.ofCapacity id capacity).Flowing := (FreshStream.opened capacity).flowing
  have hsaid : ((Stream.ofCapacity id capacity).finish event).log = [event] :=
    hflowing.finish_log event
  have hnew := streams.get?_add_self ((Stream.ofCapacity id capacity).finish event)
  exact (congrArg (Option.map Stream.log) hnew).trans (congrArg some hsaid)

theorem accepts_generate (hsound : w.StreamsSound) (id : SessionId) (budget capacity : Nat) :
    w.accepts (.command (.generate id budget capacity)) = true ↔ w.CanGenerate id := by
  -- The new stream comes after all others, so no session holds it yet.
  have hunheld : ∀ slot, w.holder slot ≠ some w.streams.entries.length := fun slot =>
    hsound.holder_ne_add slot (.ofCapacity id capacity)
  rw [accepts_generate_iff]
  -- Two outcomes refuse; a request for nothing counts as accepted and is over at once.
  rcases w.generateOn_outcomes (.ofCapacity id capacity) id budget with
    ⟨hrefused, cause, heq⟩ | ⟨hrefused, slot, s, cause, -, -, heq⟩ | ⟨hcan, hbudget, heq⟩ |
      ⟨slot, s, hfind, hidle, herror, hpending, -, heq⟩
  · rw [heq, log_add_finish]
    refine iff_of_false ?_ hrefused
    rintro (⟨slot, hheld⟩ | ⟨-, hdone⟩)
    · exact hunheld slot hheld
    · cases hdone
  · have hkept : ∀ slot',
        (w.modifySession slot fun s => { s with inputError := none }).holder slot' =
          w.holder slot' :=
      holder_modifySession slot fun _ _ => rfl
    rw [heq, log_add_finish]
    refine iff_of_false ?_ hrefused
    rintro (⟨slot', hheld⟩ | ⟨-, hdone⟩)
    · exact hunheld slot' ((hkept slot').symm.trans hheld)
    · cases hdone
  · rw [heq, log_add_finish]
    exact iff_of_true (.inr ⟨hbudget, rfl⟩) hcan
  · refine iff_of_true (.inl ⟨slot, ?_⟩) ⟨slot, s, hfind, hidle, herror, hpending⟩
    let started : Generation := { budget, stream := w.streams.entries.length }
    have hs' : (w.sessions.modify slot fun s => { s with generation := some started }).get? slot =
        some { s with generation := some started } := by
      rw [SlotArena.get?_modify_self, (find?_eq_some_iff.mp hfind).2, Option.map_some]
    rw [heq]
    exact holder_eq_some_iff.mpr ⟨_, started, hs', rfl, rfl⟩

/-- What is accepted are the requests for sessions that can generate. -/
theorem accepts_iff (hsound : w.StreamsSound) {action : Action} :
    w.accepts action = true ↔ ∃ id, action.generates = some id ∧ w.CanGenerate id := by
  cases action with
  | command c =>
    cases c with
    | generate id budget capacity =>
      rw [accepts_generate hsound]
      simp [Action.generates]
    | _ => simp [accepts, Action.generates]
  | abandoned id budget capacity =>
    have hsame : w.accepts (.abandoned id budget capacity) =
        w.accepts (.command (.generate id budget capacity)) := rfl
    rw [hsame, accepts_generate hsound]
    simp [Action.generates]
  | _ => simp [accepts, Action.generates]

/-- A request to generate is counted if it is accepted. -/
theorem surplus_generates (hsound : w.StreamsSound) {action : Action} {id : SessionId}
    (haction : action.generates = some id) (stream : Stream) (budget : Nat) :
    (w.generateOn stream id budget).surplus =
      w.surplus + Pi.single .requests (if w.accepts action then 1 else 0) := by
  by_cases hcan : w.CanGenerate id
  · have haccepts : w.accepts action = true := (accepts_iff hsound).mpr ⟨id, haction, hcan⟩
    rw [if_pos haccepts]
    exact surplus_generateOn stream budget hcan
  · have hrefused : ¬ w.accepts action = true := by
      rw [accepts_iff hsound, haction]
      rintro ⟨id', hid', hcan'⟩
      exact hcan (Option.some.inj hid' ▸ hcan')
    rw [if_neg hrefused, Pi.single_zero, add_zero]
    exact surplus_generateOn_of_refused stream budget hcan

/-! ### Actions -/

/-- The tokens of input that an action has written, by the report of the tick. -/
def writes (w : Worker b) : Action → Nat
  | .tick => (w.tick.report.prefilled.map Prod.snd).sum
  | _ => 0

/-- What an action adds to the surplus of a worker. -/
def entry (w : Worker b) (action : Action) : Account → ℤ :=
  Pi.single .prefilled (w.writes action : ℤ) + Pi.single .generated (w.endedDraws action : ℤ) +
    Pi.single .requests (if w.accepts action then 1 else 0)

theorem entry_apply (w : Worker b) (action : Action) (account : Account) :
    w.entry action account =
      match account with
      | .sessions | .generations => 0
      | .prefilled => (w.writes action : ℤ)
      | .generated => (w.endedDraws action : ℤ)
      | .requests => if w.accepts action then 1 else 0 := by
  cases account <;> simp [entry]

theorem entry_of_accepts {action : Action} (hwrites : w.writes action = 0)
    (hdraws : w.endedDraws action = 0) :
    w.entry action = Pi.single .requests (if w.accepts action then 1 else 0) := by
  rw [entry, hwrites, hdraws]
  simp

theorem entry_of_ends {action : Action} (hwrites : w.writes action = 0)
    (haccepts : w.accepts action = false) :
    w.entry action = Pi.single .generated (w.endedDraws action : ℤ) := by
  rw [entry, hwrites, haccepts]
  simp

theorem entry_of_writes {action : Action} (hdraws : w.endedDraws action = 0)
    (haccepts : w.accepts action = false) :
    w.entry action = Pi.single .prefilled (w.writes action : ℤ) := by
  rw [entry, hdraws, haccepts]
  simp

/-- **What an action does to the meters.** It moves them as it moves the sessions, but for its
entry. -/
theorem surplus_act (hw : w.Seated) (hsound : w.StreamsSound) (action : Action) :
    (w.act action).surplus = w.surplus + w.entry action := by
  -- Most actions have no entry: they write nothing, end nothing and start nothing.
  have hquiet : w.writes action = 0 → action.ends = false → w.accepts action = false →
      (w.act action).surplus = w.surplus → (w.act action).surplus = w.surplus + w.entry action := by
    intro hwrites hends haccepts hsame
    rw [hsame, entry_of_accepts hwrites (endedDraws_of_ends hw hends), haccepts]
    simp
  -- A request to generate has an entry just if it is accepted.
  have hgenerate : ∀ stream id budget, action.generates = some id →
      w.writes action = 0 → action.ends = false → w.act action = w.generateOn stream id budget →
      (w.act action).surplus = w.surplus + w.entry action := by
    intro stream id budget hid hwrites hends hact
    rw [hact, entry_of_accepts hwrites (endedDraws_of_ends hw hends)]
    exact surplus_generates hsound hid stream budget
  cases action with
  | command c =>
    cases c with
    | createSession id sampling => exact hquiet rfl rfl rfl (surplus_createSession hw id sampling)
    | appendInput id text => exact hquiet rfl rfl rfl (surplus_appendInput id text)
    | generate id budget capacity => exact hgenerate _ _ _ rfl rfl rfl rfl
    | cancel id => exact hquiet rfl rfl rfl (surplus_cancel id)
    | endSession id =>
      rw [entry_of_ends rfl rfl]
      exact surplus_endSession hw id
    | snapshot id =>
      refine hquiet rfl rfl rfl ?_
      show (w.handle (.snapshot id)).2.surplus = _
      unfold handle
      dsimp only
      cases w.snapshot id <;> rfl
    | status => exact hquiet rfl rfl rfl rfl
    | shutdown => exact hquiet rfl rfl rfl rfl
  | abandoned id budget capacity => exact hgenerate _ _ _ rfl rfl rfl rfl
  | tick =>
    rw [entry_of_writes (endedDraws_of_ends hw rfl) rfl]
    exact surplus_tick hw hsound
  | shutdown =>
    rw [entry_of_ends rfl rfl]
    exact surplus_shutdown hw
  | read stream count => exact hquiet rfl rfl rfl rfl
  | drop stream => exact hquiet rfl rfl rfl rfl

/-! ### Several workers -/

section Workers

variable {n : Nat} {workers : Fin n → Worker b}

/-- The workers after something has happened to one of them. -/
def actAt (workers : Fin n → Worker b) (move : Fin n × Action) : Fin n → Worker b :=
  Function.update workers move.1 ((workers move.1).act move.2)

def runAll (workers : Fin n → Worker b) (moves : List (Fin n × Action)) : Fin n → Worker b :=
  moves.foldl actAt workers

/-- What has happened: each action, with the worker that it came to as it was then. -/
def episodes (workers : Fin n → Worker b) : List (Fin n × Action) → List (Worker b × Action)
  | [] => []
  | move :: rest => (workers move.1, move.2) :: episodes (actAt workers move) rest

theorem surplus_actAt (hworkers : ∀ i, (workers i).Seated ∧ (workers i).StreamsSound)
    (move : Fin n × Action) (account : Account) :
    ∑ i, (actAt workers move i).surplus account =
      ∑ i, (workers i).surplus account + (workers move.1).entry move.2 account := by
  obtain ⟨hw, hsound⟩ := hworkers move.1
  have hstep := congrFun (surplus_act hw hsound move.2) account
  have hupdate : ∀ i, (actAt workers move i).surplus account =
      Function.update (fun i => (workers i).surplus account) move.1
        (((workers move.1).act move.2).surplus account) i := by
    intro i
    rw [actAt, Function.update_apply, Function.update_apply]
    split_ifs <;> rfl
  have hmem : move.1 ∈ Finset.univ := Finset.mem_univ _
  rw [Finset.sum_congr rfl fun i _ => hupdate i, Finset.sum_update_of_mem hmem, hstep,
    Finset.sum_eq_add_sum_sdiff_singleton_of_mem hmem, Pi.add_apply]
  exact add_right_comm ..

theorem surplus_runAll (hworkers : ∀ i, (workers i).Seated ∧ (workers i).StreamsSound)
    (moves : List (Fin n × Action)) (account : Account) :
    ∑ i, (runAll workers moves i).surplus account = ∑ i, (workers i).surplus account +
      ((episodes workers moves).map fun episode => episode.1.entry episode.2 account).sum := by
  induction moves generalizing workers with
  | nil => simp [runAll, episodes]
  | cons move rest ih =>
    have hkept : ∀ i, (actAt workers move i).Seated ∧ (actAt workers move i).StreamsSound := by
      intro i
      rw [actAt, Function.update_apply]
      split_ifs with hi
      · have hstep := step_act (workers move.1) move.2
        obtain ⟨hw, hsound⟩ := hworkers move.1
        exact ⟨hstep.seated hw, hstep.streamsSound hw hsound⟩
      · exact hworkers i
    have hrest := ih hkept
    rw [surplus_actAt hworkers] at hrest
    rw [episodes, List.map_cons, List.sum_cons, ← add_assoc]
    exact hrest

theorem surplus_start (id : WorkerId) (context : b.Context) (config : WorkerConfig) :
    (start id context config).surplus = 0 := by
  have hempty : (start id context config).sessions.total Account.shown = 0 := by
    refine SlotArena.total_eq_zero _ fun slot s hs => ?_
    rw [get?_start] at hs
    cases hs
  rw [surplus, hempty]
  funext account
  cases account <;> rfl

/-- **The meters agree with what has happened.** Let several workers begin on one backend, and let
anything happen to them, in any order. Then, over all workers:
* the gauge of sessions says how many are live;
* the gauge of generations says how many sessions have one;
* the tokens counted as prefilled are those in the reports of all ticks;
* the tokens counted as generated are the draws of the samplers of all sessions, of those that are
  live and of those that have ended;
* the generations counted as over, for whatever reason, and those that go on are as many as the
  requests to generate that were accepted. -/
theorem metered_run (id : Fin n → WorkerId) (context : Fin n → b.Context)
    (config : Fin n → WorkerConfig) (moves : List (Fin n × Action)) :
    let started := fun i => start (id i) (context i) (config i)
    let workers := runAll started moves
    let history := episodes started moves
    ∑ i, (workers i).tally.activeSessions = ∑ i, ((workers i).sessions.toList.length : ℤ) ∧
      ∑ i, (workers i).tally.activeGenerations =
        ∑ i, ((workers i).sessions.toList.countP fun entry => entry.2.generation.isSome : ℤ) ∧
      ∑ i, (workers i).tally.tokensPrefilled =
        (history.map fun episode => episode.1.writes episode.2).sum ∧
      ∑ i, (workers i).tally.tokensGenerated =
        ∑ i, (workers i).sessions.total (fun s => s.sampler.draws) +
          (history.map fun episode => episode.1.endedDraws episode.2).sum ∧
      ∑ i, ((workers i).tally.ended : ℤ) + ∑ i, (workers i).tally.activeGenerations =
        history.countP fun episode => episode.1.accepts episode.2 := by
  intro started workers history
  have hstarted : ∀ i, (started i).Seated ∧ (started i).StreamsSound := fun i =>
    ⟨seated_start .., streamsSound_start ..⟩
  -- Nobody starts with a surplus, so that of the end is what the episodes have entered.
  have hsurplus : ∀ account, ∑ i, (workers i).surplus account =
      (history.map fun episode => episode.1.entry episode.2 account).sum := by
    intro account
    have hrun := surplus_runAll hstarted moves account
    have hzero : ∀ i, (started i).surplus account = 0 := fun i =>
      congrFun (surplus_start ..) account
    rwa [Finset.sum_congr rfl fun i _ => hzero i, Finset.sum_const_zero, zero_add] at hrun
  -- Each of the five is the balance of one account.
  refine ⟨?_, ?_, ?_, ?_, ?_⟩
  · have hsessions := hsurplus .sessions
    simp only [surplus_apply, entry_apply, Account.counted, Account.shown, SlotArena.total_one,
      Finset.sum_sub_distrib] at hsessions
    exact sub_eq_zero.mp (hsessions.trans (by simp))
  · have hgenerations := hsurplus .generations
    simp only [surplus_apply, entry_apply, Account.counted, Account.shown, SlotArena.total_boole,
      Finset.sum_sub_distrib] at hgenerations
    exact sub_eq_zero.mp (hgenerations.trans (by simp))
  · have hprefilled := hsurplus .prefilled
    simp only [surplus_apply, entry_apply, Account.counted, Account.shown, SlotArena.total_zero,
      sub_zero, sum_map_natCast] at hprefilled
    exact_mod_cast hprefilled
  · have hgenerated := hsurplus .generated
    simp only [surplus_apply, entry_apply, Account.counted, Account.shown, SlotArena.total_natCast,
      sum_map_natCast, Finset.sum_sub_distrib] at hgenerated
    have hsum := sub_eq_iff_eq_add'.mp hgenerated
    exact_mod_cast hsum
  · have hrequests := hsurplus .requests
    simp only [surplus_apply, entry_apply, Account.counted, Account.shown, SlotArena.total_zero,
      sub_zero, sum_map_boole, Finset.sum_add_distrib] at hrequests
    exact hrequests

end Workers

end Worker

end Turnwise
