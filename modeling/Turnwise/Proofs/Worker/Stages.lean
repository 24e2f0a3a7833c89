import Turnwise.Proofs.ByteModel
import Turnwise.Proofs.Worker.Effects
import Turnwise.Proofs.Worker.Streams

/-!
# A tick, as one session sees it

Each stage of a tick treats many sessions in one go, and two of them with one call of the model. For
a single session not much can happen: the sweep keeps its generation or ends it (`Swept`), the
prefill stage passes over it, writes some of its tokens or loses them (`Prefilled`), and the decode
stage passes over it, gives it a turn, or ends its generation after a failed call (`Decoded`). The
relations are about the session, its row and its stream, and about nothing else of the worker. What
the stage does to other sessions does not enter.

On any backend a share is written or lost (`prefill_share`), whoever is served gets a row of the
call or the error of it (`decode_turn`), and nothing happens to anybody else (`actsOn_prefill`,
`actsOn_decode`). The byte model adds what is in the rows. The theorems `sweep_at`, `prefill_at` and
`decode_at` put this together, for sessions that are seated and streams that are sound.
-/

namespace Turnwise

open ByteModel (logitsFor)

/-! ### What can happen to a session -/

/-- The stream of a session's generation is as it was. -/
def Session.KeepsStream (s : Session) (streams streams' : Streams) : Prop :=
  ∀ g, s.generation = some g → streams'.get? g.stream = streams.get? g.stream

/-- What the sweep does to a session. -/
inductive Swept (streams streams' : Streams) (s : Session) : Session → Prop
  | kept (hkeep : s.generation.bind (Turn.sweepEvent? streams) = none)
      (hstream : s.KeepsStream streams streams') : Swept streams streams' s s
  | ended (hend : s.generation.bind (Turn.sweepEvent? streams) ≠ none) :
      Swept streams streams' s s.idle

/-- What the prefill stage does to a session and its row. -/
inductive Prefilled (failed : Prop) (streams streams' : Streams) (s : Session) (row : List Token) :
    Session → List Token → List Effect → Prop
  | skipped (hstream : s.KeepsStream streams streams') :
      Prefilled failed streams streams' s row s row []
  | written {count : Nat} (hcount : count ≤ s.prefillReady)
      (hstream : s.KeepsStream streams streams') :
      Prefilled failed streams streams' s row (s.commitPrefill count) (row ++ s.pending.take count)
        [.written count]
  | lost (hfailed : failed) (cause : String) {count : Nat} (hcount : count ≤ s.prefillReady) :
      Prefilled failed streams streams' s row (s.lose cause count) row [.lost count]

/-- What the decode stage does to a session and its row. -/
inductive Decoded (params : ByteModel.Params) (failed : Prop) (streams streams' : Streams)
    (s : Session) (row : List Token) : Session → List Token → List Effect → Prop
  | waiting (hstream : s.KeepsStream streams streams') :
      Decoded params failed streams streams' s row s row []
  | served (hready : s.decodeReady = true) {g : Generation} (hg : s.generation = some g)
      {stream : Stream} (hstream : streams.get? g.stream = some stream)
      (hstream' : streams'.get? g.stream =
        some (s.accept (ByteModel.backend params) g stream
          (logitsFor params (row ++ [s.input]))).2) :
      Decoded params failed streams streams' s row
        (s.accept (ByteModel.backend params) g stream (logitsFor params (row ++ [s.input]))).1
        (row ++ [s.input]) (s.turnEffects (logitsFor params (row ++ [s.input])))
  | failed (hfailed : failed) (hready : s.decodeReady = true) :
      Decoded params failed streams streams' s row s.idle row []

section Names

variable {streams streams' : Streams} {s s' : Session} {row row' : List Token}
  {effects : List Effect} {failed : Prop}

theorem Swept.id_eq (h : Swept streams streams' s s') : s'.id = s.id := by
  cases h <;> rfl

theorem Prefilled.id_eq (h : Prefilled failed streams streams' s row s' row' effects) :
    s'.id = s.id := by
  cases h with
  | lost =>
    unfold Session.lose
    split <;> rfl
  | _ => rfl

theorem Decoded.id_eq {params : ByteModel.Params}
    (h : Decoded params failed streams streams' s row s' row' effects) : s'.id = s.id := by
  cases h with
  | @served hready g hg stream hstream hstream' =>
    rcases Session.accept_fst (b := ByteModel.backend params) (g := g)
        (Session.pending_of_decodeReady hready) stream (logitsFor params (row ++ [s.input])) with
      ⟨e, -, heq⟩ | ⟨token, sampler, generation, -, heq, -⟩ <;> rw [heq]
  | _ => rfl

end Names

namespace Worker

variable {b : Backend} {w : Worker b}

/-- The tokens in the context for a slot. -/
def row {params : ByteModel.Params} (w : Worker (ByteModel.backend params)) (slot : Slot) :
    List Token :=
  ByteModel.Context.row w.context slot

/-- The logits that a session gets in its turn of decoding: those after its own row. -/
def turnLogits {params : ByteModel.Params} (w : Worker (ByteModel.backend params))
    (served : Slot × Session) : Logits :=
  logitsFor params (w.row served.1 ++ [served.2.input])

/-- The next prefill call fails. -/
def PrefillFails (w : Worker b) : Prop :=
  ∃ e, (b.compute w.context w.prefillPlan.batch).2 = .error e

/-- The next decode call fails. -/
def DecodeFails (w : Worker b) : Prop :=
  ∃ e, (b.compute w.context w.decodePlan.batch).2.bind w.decodePlan.batch.assignRows = .error e

/-- Sessions in different slots have different names. -/
theorem Seated.nodup_ids (hw : w.Seated) {κ : Type} {slotOf : κ → Slot} (sessionOf : κ → Session)
    {keys : List κ} (hnodup : (keys.map slotOf).Nodup)
    (hkeys : ∀ key ∈ keys, w.sessions.get? (slotOf key) = some (sessionOf key)) :
    (keys.map fun key => (sessionOf key).id).Nodup := by
  refine List.Nodup.map_on (fun key hkey key' hkey' heq => ?_) (List.Nodup.of_map slotOf hnodup)
  have hslot := hw.find?_id (hkeys key hkey)
  rw [heq, hw.find?_id (hkeys key' hkey')] at hslot
  exact List.inj_on_of_nodup_map hnodup hkey hkey' (Option.some.inj hslot).symm

/-- A session without a share has no effects of the stage either. -/
theorem Seated.notMem_ids (hw : w.Seated) {κ : Type} {slotOf : κ → Slot}
    (sessionOf : κ → Session) {keys : List κ}
    (hkeys : ∀ key ∈ keys, w.sessions.get? (slotOf key) = some (sessionOf key)) {slot : Slot}
    {s : Session} (hs : w.sessions.get? slot = some s) (hslot : slot ∉ keys.map slotOf) :
    s.id ∉ keys.map fun key => (sessionOf key).id := by
  intro hid
  obtain ⟨key, hkey, heq⟩ := List.mem_map.mp hid
  have hfind := hw.find?_id (hkeys key hkey)
  rw [heq, hw.find?_id hs] at hfind
  exact hslot (Option.some.inj hfind ▸ List.mem_map_of_mem hkey)

/-- A stage that leaves a session alone leaves its stream alone. -/
theorem ActsOn.keepsStream {slots : List Slot} {w' : Worker b} (h : ActsOn slots w w')
    (hw : w.HoldersDistinct) {slot : Slot} {s : Session} (hs : w.sessions.get? slot = some s)
    (hslot : slot ∉ slots) : s.KeepsStream w.streams w'.streams := by
  intro g hg
  refine h.stream g.stream fun slot' hslot' hheld => hslot ?_
  have hown : w.holder slot = some g.stream := holder_eq_some_iff.mpr ⟨s, g, hs, hg, rfl⟩
  rwa [hw slot slot' g.stream hown hheld]

end Worker

namespace Turn

open Worker

variable {b : Backend}

/-! ### The sweep -/

theorem actsOn_sweep (t : Turn b) :
    ActsOn t.worker.sessions.slots t.worker t.sweep.worker := by
  have hsweep := ActsOn.foldl (fun slot => slot) t.worker.sessions.slots t
    fun t' _ slot _ => actsOn_sweepSlot t' slot
  rwa [List.map_id'] at hsweep

/-- The sweep depends on who still listens, and on nothing else about the streams. -/
theorem sweepEvent?_congr {streams streams' : Streams} {g : Generation}
    (h : streams'.isClosed g.stream = streams.isClosed g.stream) :
    sweepEvent? streams' g = sweepEvent? streams g := by
  unfold sweepEvent?
  rw [h]

/-- A sweep that finds no generation to end does nothing. -/
theorem sweep_of_kept {t : Turn b}
    (hkept : ∀ slot s, t.worker.sessions.get? slot = some s →
      s.generation.bind (sweepEvent? t.worker.streams) = none) : t.sweep = t := by
  refine List.foldl_fixed' (fun slot => ?_) _
  unfold sweepSlot
  cases hs : t.worker.sessions.get? slot with
  | none => rfl
  | some s =>
    dsimp only
    rw [hkept slot s hs]

theorem sweep_at (t : Turn b) (ht : t.worker.HoldersDistinct) {slot : Slot} {s : Session}
    (hs : t.worker.sessions.get? slot = some s) :
    ∃ s', t.sweep.worker.sessions.get? slot = some s' ∧
      Swept t.worker.streams t.sweep.worker.streams s s' := by
  have hnodup : (t.worker.sessions.slots.map fun slot => slot).Nodup := by
    rw [List.map_id']
    exact SlotArena.slots_nodup
  obtain ⟨t', ⟨others, hbefore⟩, hbefore', hafter, hstreams⟩ :=
    foldl_at hnodup t (fun t' _ slot _ => actsOn_sweepSlot t' slot)
      (SlotArena.mem_slots.mpr ⟨s, hs⟩)
  rw [hs] at hbefore'
  change t.sweep.worker.sessions.get? slot = _ at hafter
  rw [hafter, sweepSlot_worker hbefore']
  -- Steps before this one may have written to streams, but nobody has stopped listening.
  have hsame : s.generation.bind (sweepEvent? t'.worker.streams) =
      s.generation.bind (sweepEvent? t.worker.streams) :=
    congrArg s.generation.bind (funext fun g => sweepEvent?_congr (hbefore.isClosed g.stream))
  rw [hsame]
  rcases hevent : s.generation.bind (sweepEvent? t.worker.streams) with _ | event
  · refine ⟨s, hbefore', .kept hevent fun g hg => ?_⟩
    obtain ⟨hstream, hstream'⟩ :=
      hstreams ht g.stream (holder_eq_some_iff.mpr ⟨s, g, hs, hg, rfl⟩)
    change t.sweep.worker.streams.get? g.stream = _ at hstream'
    rw [hstream', sweepSlot_worker hbefore', hsame, hevent]
    exact hstream
  · exact ⟨s.idle, get?_finishGeneration hbefore' event, .ended (by rw [hevent]; exact nofun)⟩

/-! ### Calls of the model -/

/-- The same sessions and streams on a given context; cursors and counts may differ. -/
structure Recast (context : b.Context) (w w' : Worker b) : Prop where
  context : w'.context = context
  config : w'.config = w.config
  index : w'.index = w.index
  sessions : w'.sessions = w.sessions
  streams : w'.streams = w.streams

namespace Recast

variable {context : b.Context} {w w' : Worker b}

theorem holder (h : Recast context w w') (slot : Slot) : w'.holder slot = w.holder slot := by
  rw [Worker.holder, Worker.holder, h.sessions]

theorem holdersDistinct (h : Recast context w w') (hw : w.HoldersDistinct) :
    w'.HoldersDistinct := by
  intro slot slot' stream hslot hslot'
  rw [h.holder] at hslot hslot'
  exact hw slot slot' stream hslot hslot'

end Recast

/-! ### Prefill -/

/-- The turn after the call of the prefill stage, before anybody has been told of the outcome. -/
def prefillCall (t : Turn b) : Turn b :=
  { t with worker := { t.worker with
      context := (b.compute t.worker.context t.worker.prefillPlan.batch).1
      prefillCursor := t.worker.prefillPlan.cursor
      tally :=
        let tally := t.worker.tally.prefillBatch t.worker.prefillPlan.batch.size
        match (b.compute t.worker.context t.worker.prefillPlan.batch).2 with
        | .ok _ => tally
        | .error _ => tally.computeFailed } }

theorem recast_prefillCall (t : Turn b) :
    Recast (b.compute t.worker.context t.worker.prefillPlan.batch).1 t.worker
      t.prefillCall.worker :=
  ⟨rfl, rfl, rfl, rfl, rfl⟩

theorem prefill_of_prefillSlots {t : Turn b} (hslots : t.worker.prefillSlots = []) :
    t.prefill = t := by
  rw [prefill, planPrefill_eq, if_pos hslots]

/-- A prefill call that succeeds: every share is recorded as written. -/
theorem prefill_of_ok {t : Turn b} (hslots : t.worker.prefillSlots ≠ []) {logits : List Logits}
    (hcompute : (b.compute t.worker.context t.worker.prefillPlan.batch).2 = .ok logits) :
    t.prefill = (t.worker.prefillShares.foldl
      (fun t share => t.commitShare (share.slot, share.count)) t.prefillCall).update fun w =>
        { w with tally :=
            { w.tally with
              tokensPrefilled := w.tally.tokensPrefilled + t.worker.prefillPlan.batch.size } } := by
  have hshares : ∀ t' : Turn b, t.worker.prefillPlan.shares.foldl commitShare t' =
      t.worker.prefillShares.foldl
        (fun t share => t.commitShare (share.slot, share.count)) t' := fun t' => by
    rw [prefillPlan, List.foldl_map]
  rw [prefill, planPrefill_eq, if_neg hslots]
  dsimp only
  rw [runPrefill, prefillCall]
  rcases hcall : b.compute t.worker.context t.worker.prefillPlan.batch with ⟨context, e | logits'⟩
  · rw [hcall] at hcompute
    cases hcompute
  · dsimp only
    rw [hshares]

/-- A prefill call that fails: every share is dropped. -/
theorem prefill_of_error {t : Turn b} (hslots : t.worker.prefillSlots ≠ []) {e : Error}
    (hcompute : (b.compute t.worker.context t.worker.prefillPlan.batch).2 = .error e) :
    t.prefill = t.worker.prefillShares.foldl
      (fun t share => dropShare e.message t (share.slot, share.count)) t.prefillCall := by
  have hshares : ∀ t' : Turn b, t.worker.prefillPlan.shares.foldl (dropShare e.message) t' =
      t.worker.prefillShares.foldl
        (fun t share => dropShare e.message t (share.slot, share.count)) t' := fun t' => by
    rw [prefillPlan, List.foldl_map]
  rw [prefill, planPrefill_eq, if_neg hslots]
  dsimp only
  rw [← hshares, runPrefill, prefillCall]
  rcases hcall : b.compute t.worker.context t.worker.prefillPlan.batch with ⟨context, e' | logits⟩
  · rw [hcall] at hcompute
    obtain rfl := Except.error.inj hcompute
    rfl
  · rw [hcall] at hcompute
    cases hcompute

/-- What the prefill stage does to a worker: nothing, or one call and its consequences. -/
theorem prefill_cases (t : Turn b) :
    (t.worker.prefillShares = [] ∧ t.prefill = t) ∨
    (∃ context logits, b.compute t.worker.context t.worker.prefillPlan.batch =
        (context, .ok logits) ∧
      ∃ t' : Turn b, Recast context t.worker t'.worker ∧
        Recast context (t.worker.prefillShares.foldl
          (fun t share => t.commitShare (share.slot, share.count)) t').worker t.prefill.worker) ∨
    (∃ context e, b.compute t.worker.context t.worker.prefillPlan.batch = (context, .error e) ∧
      ∃ t' : Turn b, Recast context t.worker t'.worker ∧
        t.prefill.worker = (t.worker.prefillShares.foldl
          (fun t share => dropShare e.message t (share.slot, share.count)) t').worker) := by
  by_cases hslots : t.worker.prefillSlots = []
  · exact .inl ⟨prefillShares_of_prefillSlots hslots, prefill_of_prefillSlots hslots⟩
  · right
    have hcast := t.recast_prefillCall
    rcases hcompute : (b.compute t.worker.context t.worker.prefillPlan.batch).2 with e | logits
    · refine .inr ⟨_, e, Prod.ext rfl hcompute, t.prefillCall, hcast, ?_⟩
      rw [prefill_of_error hslots hcompute]
    · refine .inl ⟨_, logits, Prod.ext rfl hcompute, t.prefillCall, hcast, ?_⟩
      have hacts := ActsOn.foldl Share.slot t.worker.prefillShares t.prefillCall
        fun t' _ share _ => actsOn_commitShare t' (share.slot, share.count)
      rw [prefill_of_ok hslots hcompute]
      exact ⟨hacts.context, rfl, rfl, rfl, rfl⟩

theorem streams_commitShare (t : Turn b) (share : Slot × Nat) :
    (t.commitShare share).worker.streams = t.worker.streams := by
  unfold commitShare
  split <;> rfl

theorem streams_foldl_commitShare (shares : List Share) (t : Turn b) :
    (shares.foldl (fun t share => t.commitShare (share.slot, share.count)) t).worker.streams =
      t.worker.streams :=
  foldl_preserves (P := fun w => w.streams = t.worker.streams)
    (fun t' _ h => (streams_commitShare t' _).trans h) shares rfl

/-- **The prefill stage is about the sessions that have a share.** -/
theorem actsOn_prefill (t : Turn b) :
    ∃ context, ActsOn (t.worker.prefillShares.map Share.slot)
      { t.worker with context, prefillCursor := t.worker.prefillPlan.cursor }
      t.prefill.worker := by
  by_cases hslots : t.worker.prefillSlots = []
  · rw [prefill_of_prefillSlots hslots, prefillPlan, prefillShares_of_prefillSlots hslots]
    exact ⟨_, ActsOn.refl t.worker⟩
  -- The call and the counts are not about sessions; the shares are taken one after the other.
  · rcases hcompute : (b.compute t.worker.context t.worker.prefillPlan.batch).2 with e | logits
    · have hdrop := ActsOn.foldl Share.slot t.worker.prefillShares t.prefillCall
        fun t' _ share _ => actsOn_dropShare e.message t' (share.slot, share.count)
      rw [prefill_of_error hslots hcompute]
      exact ⟨_, { hdrop with }⟩
    · have hcommit := ActsOn.foldl Share.slot t.worker.prefillShares t.prefillCall
        fun t' _ share _ => actsOn_commitShare t' (share.slot, share.count)
      rw [prefill_of_ok hslots hcompute]
      exact ⟨_, { hcommit with }⟩

/-- **A session that has a share** has it written, or loses it together with its generation. -/
theorem prefill_share (t : Turn b) {share : Share} (hshare : share ∈ t.worker.prefillShares) :
    (∃ logits, (b.compute t.worker.context t.worker.prefillPlan.batch).2 = .ok logits ∧
      t.prefill.worker.sessions.get? share.slot =
        some (share.session.commitPrefill share.count) ∧
      t.prefill.worker.streams = t.worker.streams) ∨
    ∃ e, (b.compute t.worker.context t.worker.prefillPlan.batch).2 = .error e ∧
      t.prefill.worker.sessions.get? share.slot =
        some (share.session.lose e.message share.count) ∧
      (t.worker.HoldersDistinct → ∀ g stream, share.session.generation = some g →
        t.worker.streams.get? g.stream = some stream →
        t.prefill.worker.streams.get? g.stream = some (g.close b (.error e.message) stream)) := by
  have hs := (mem_prefillShares hshare).1
  rcases t.prefill_cases with ⟨hnone, -⟩ | ⟨context, logits, hcompute, t', hcast, hcast'⟩ |
    ⟨context, e, hcompute, t', hcast, heq⟩
  · rw [hnone] at hshare
    exact absurd hshare List.not_mem_nil
  · obtain ⟨t'', -, hbefore, hafter, -⟩ := foldl_at prefillShares_nodup t'
      (fun t _ share _ => actsOn_commitShare t (share.slot, share.count)) hshare
    rw [hcast.sessions, hs] at hbefore
    refine .inl ⟨logits, by rw [hcompute], ?_, ?_⟩
    · rw [hcast'.sessions, hafter, commitShare_worker hbefore, modifySession,
        SlotArena.get?_modify_self, hbefore, Option.map_some]
    · rw [hcast'.streams, streams_foldl_commitShare, hcast.streams]
  · obtain ⟨t'', -, hbefore, hafter, hstreams⟩ := foldl_at prefillShares_nodup t'
      (fun t _ share _ => actsOn_dropShare e.message t (share.slot, share.count)) hshare
    rw [hcast.sessions, hs] at hbefore
    refine .inr ⟨e, by rw [hcompute], by rw [heq, hafter, get?_dropShare hbefore], ?_⟩
    intro hdistinct g stream hg hstream
    obtain ⟨hstream', hstream''⟩ := hstreams (hcast.holdersDistinct hdistinct) g.stream
      ((hcast.holder share.slot).trans (holder_eq_some_iff.mpr ⟨share.session, g, hs, hg, rfl⟩))
    rw [heq, hstream'', stream_dropShare hbefore hg, hstream', hcast.streams, hstream,
      Option.map_some]

/-- The context after the prefill stage is the one that the call returned, if there was a call. -/
theorem context_prefill_of_compute (t : Turn b) :
    (t.worker.prefillShares = [] ∧ t.prefill = t) ∨
      t.prefill.worker.context = (b.compute t.worker.context t.worker.prefillPlan.batch).1 := by
  rcases t.prefill_cases with hnone | ⟨context, logits, hcompute, t', -, hcast'⟩ |
    ⟨context, e, hcompute, t', hcast, heq⟩
  · exact .inl hnone
  · right
    rw [hcast'.context, hcompute]
  · right
    have hdrop := ActsOn.foldl Share.slot t.worker.prefillShares t' fun t'' _ share _ =>
      actsOn_dropShare e.message t'' (share.slot, share.count)
    rw [heq, hdrop.context, hcast.context, hcompute]

/-- The effects of the stage on a session that has a share. -/
theorem effectsOn_prefillEffects {w : Worker b} (hw : w.Seated) {share : Share}
    (hshare : share ∈ w.prefillShares) :
    effectsOn share.session.id w.prefillEffects =
      match (b.compute w.context w.prefillPlan.batch).2 with
      | .ok _ => [.written share.count]
      | .error _ => [.lost share.count] := by
  have hids := hw.nodup_ids Share.session prefillShares_nodup fun share h =>
    (mem_prefillShares h).1
  unfold prefillEffects
  cases (b.compute w.context w.prefillPlan.batch).2 with
  | ok logits => exact effectsOn_gather hids hshare
  | error e => exact effectsOn_gather hids hshare

/-- A session without a share has no effects of the stage either. -/
theorem effectsOn_prefillEffects_of_notMem {w : Worker b} (hw : w.Seated) {slot : Slot}
    {s : Session} (hs : w.sessions.get? slot = some s)
    (hslot : slot ∉ w.prefillShares.map Share.slot) : effectsOn s.id w.prefillEffects = [] := by
  have hid := hw.notMem_ids Share.session (fun share h => (mem_prefillShares h).1) hs hslot
  unfold prefillEffects
  split <;> exact effectsOn_gather_of_notMem hid

section ByteModel

variable {params : ByteModel.Params} (t : Turn (ByteModel.backend params)) {slot : Slot}
  {s : Session}

/-- The context after the prefill stage is the one before it, or the one that the call returned. -/
theorem context_prefill :
    t.prefill.worker.context = t.worker.context ∨
      ∃ logits, (ByteModel.backend params).compute t.worker.context t.worker.prefillPlan.batch =
        (t.prefill.worker.context, .ok logits) := by
  rcases t.context_prefill_of_compute with ⟨-, heq⟩ | hcontext
  · exact .inl (by rw [heq])
  · rcases hcompute : (ByteModel.backend params).compute t.worker.context
      t.worker.prefillPlan.batch with ⟨context, e | logits⟩
    · rw [hcompute, ByteModel.context_of_compute_error hcompute] at hcontext
      exact .inl hcontext
    · rw [hcompute] at hcontext
      exact .inr ⟨logits, by rw [hcontext]⟩

/-- A row changes only where a batch has entries for it. -/
theorem row_prefill_of_notMem (hslot : slot ∉ t.worker.prefillShares.map Share.slot) :
    t.prefill.worker.row slot = t.worker.row slot := by
  unfold Worker.row
  rcases t.context_prefill with heq | ⟨logits, hcompute⟩
  · rw [heq]
  · have hrow := ByteModel.row_of_compute hcompute slot
    rwa [tokensFor_prefillPlan_of_notMem hslot, List.append_nil] at hrow

/-- **The prefill stage, as one session sees it.** -/
theorem prefill_at (ht : t.worker.Seated) (hdistinct : t.worker.HoldersDistinct)
    (hs : t.worker.sessions.get? slot = some s) :
    ∃ s', t.prefill.worker.sessions.get? slot = some s' ∧
      Prefilled t.worker.PrefillFails t.worker.streams t.prefill.worker.streams s
        (t.worker.row slot) s' (t.prefill.worker.row slot)
        (effectsOn s.id t.worker.prefillEffects) := by
  by_cases hslot : slot ∈ t.worker.prefillShares.map Share.slot
  · obtain ⟨share, hshare, rfl⟩ := List.mem_map.mp hslot
    obtain ⟨hget, hcount⟩ := mem_prefillShares hshare
    obtain rfl := Option.some.inj (hs.symm.trans hget)
    have hcontext := t.context_prefill_of_compute.resolve_left
      fun hnone => List.ne_nil_of_mem hshare hnone.1
    rcases t.prefill_share hshare with ⟨logits, hlogits, hs', hstreams⟩ | ⟨e, hfails, hs', -⟩
    · have hrow := ByteModel.row_of_compute (Prod.ext hcontext.symm hlogits) share.slot
      rw [tokensFor_prefillPlan hshare] at hrow
      change t.prefill.worker.row share.slot = t.worker.row share.slot ++ _ at hrow
      rw [hrow, effectsOn_prefillEffects ht hshare, hlogits]
      exact ⟨_, hs', .written hcount fun _ _ => by rw [hstreams]⟩
    · have hkept : t.prefill.worker.context = t.worker.context :=
        ByteModel.context_of_compute_error (Prod.ext hcontext.symm hfails)
      have hrow : t.prefill.worker.row share.slot = t.worker.row share.slot := by
        unfold Worker.row
        rw [hkept]
      rw [hrow, effectsOn_prefillEffects ht hshare, hfails]
      exact ⟨_, hs', .lost ⟨e, hfails⟩ e.message hcount⟩
  · obtain ⟨context, hacts⟩ := t.actsOn_prefill
    rw [t.row_prefill_of_notMem hslot, effectsOn_prefillEffects_of_notMem ht hs hslot]
    exact ⟨s, (hacts.session slot hslot).trans hs, .skipped (hacts.keepsStream hdistinct hs hslot)⟩

end ByteModel

/-! ### Decode -/

/-- The turn after the call of the decode stage, before anybody has been told of the outcome. -/
def decodeCall (t : Turn b) : Turn b :=
  { t with worker := { t.worker with
      context := (b.compute t.worker.context t.worker.decodePlan.batch).1
      decodeCursor := t.worker.decodePlan.cursor
      tally :=
        let tally := t.worker.tally.decodeBatch t.worker.decodePlan.batch.size
        match (b.compute t.worker.context t.worker.decodePlan.batch).2.bind
            t.worker.decodePlan.batch.assignRows with
        | .ok _ => tally
        | .error _ => tally.computeFailed } }

theorem recast_decodeCall (t : Turn b) :
    Recast (b.compute t.worker.context t.worker.decodePlan.batch).1 t.worker
      t.decodeCall.worker :=
  ⟨rfl, rfl, rfl, rfl, rfl⟩

theorem decode_of_decodeSlots {t : Turn b} (hslots : t.worker.decodeSlots = []) :
    t.decode = t := by
  rw [decode, planDecode_eq, if_pos hslots]

/-- A decode call that returned a row for each owner: every owner gets its row. -/
theorem decode_of_ok {t : Turn b} (hslots : t.worker.decodeSlots ≠ [])
    {rows : List (SessionId × Logits)}
    (hrows : (b.compute t.worker.context t.worker.decodePlan.batch).2.bind
      t.worker.decodePlan.batch.assignRows = .ok rows) :
    t.decode = rows.foldl acceptRow t.decodeCall := by
  rw [decode, planDecode_eq, if_neg hslots]
  dsimp only
  rw [runDecode, decodeCall]
  dsimp only
  rw [hrows]

/-- A decode call that failed, or returned too few rows or too many: every owner is told. -/
theorem decode_of_error {t : Turn b} (hslots : t.worker.decodeSlots ≠ []) {e : Error}
    (hfails : (b.compute t.worker.context t.worker.decodePlan.batch).2.bind
      t.worker.decodePlan.batch.assignRows = .error e) :
    t.decode = t.worker.decodeServed.foldl
      (fun t entry => failOwner e.message t entry.2.id) t.decodeCall := by
  have howners : ∀ t' : Turn b, t.worker.decodePlan.batch.owners.foldl (failOwner e.message) t' =
      t.worker.decodeServed.foldl (fun t entry => failOwner e.message t entry.2.id) t' :=
    fun t' => by rw [owners_decodePlan, List.foldl_map]
  rw [decode, planDecode_eq, if_neg hslots]
  dsimp only
  rw [← howners, runDecode, decodeCall]
  dsimp only
  rw [hfails]
  rfl

/-- What the decode stage does to a worker: nothing, or one call and its consequences. -/
theorem decode_cases (t : Turn b) :
    (t.worker.decodeServed = [] ∧ t.decode = t) ∨
    ∃ t' : Turn b,
      Recast (b.compute t.worker.context t.worker.decodePlan.batch).1 t.worker t'.worker ∧
      ((∃ rows, (b.compute t.worker.context t.worker.decodePlan.batch).2.bind
            t.worker.decodePlan.batch.assignRows = .ok rows ∧
          t.decode = rows.foldl acceptRow t') ∨
        ∃ e, (b.compute t.worker.context t.worker.decodePlan.batch).2.bind
            t.worker.decodePlan.batch.assignRows = .error e ∧
          t.decode = t.worker.decodeServed.foldl
            (fun t entry => failOwner e.message t entry.2.id) t') := by
  by_cases hslots : t.worker.decodeSlots = []
  · exact .inl ⟨decodeServed_of_decodeSlots hslots, decode_of_decodeSlots hslots⟩
  · refine .inr ⟨t.decodeCall, t.recast_decodeCall, ?_⟩
    rcases hrows : (b.compute t.worker.context t.worker.decodePlan.batch).2.bind
        t.worker.decodePlan.batch.assignRows with e | rows
    · exact .inr ⟨e, rfl, decode_of_error hslots hrows⟩
    · exact .inl ⟨rows, rfl, decode_of_ok hslots hrows⟩

section Decode

variable {t : Turn b} {slot : Slot} {s : Session} {g : Generation} {stream : Stream}

/-- The rows that a decode call returned, each with the session that it is for. -/
theorem rows_of_assignRows {w : Worker b} {result : Except Error (List Logits)}
    {rows : List (SessionId × Logits)}
    (h : result.bind w.decodePlan.batch.assignRows = .ok rows) :
    ∃ logits, result = .ok logits ∧ logits.length = w.decodeServed.length ∧
      rows = (w.decodeServed.zip logits).map fun turn => (turn.1.2.id, turn.2) := by
  rcases result with e | logits
  · cases h
  · change w.decodePlan.batch.assignRows logits = .ok rows at h
    unfold Batch.assignRows at h
    split_ifs at h with hlength
    rw [owners_decodePlan, List.length_map] at hlength
    refine ⟨logits, rfl, hlength, ?_⟩
    rw [← Except.ok.inj h, owners_decodePlan, List.zip_map_left]
    rfl

/-- There is one row for each session that is served, so the rows are for the same slots. -/
theorem slots_turns {w : Worker b} {logits : List Logits}
    (hlength : logits.length = w.decodeServed.length) :
    (w.decodeServed.zip logits).map (fun turn => turn.1.1) = w.decodeServed.map Prod.fst := by
  have hzip : (w.decodeServed.zip logits).map Prod.fst = w.decodeServed :=
    List.map_fst_zip (by omega)
  conv_rhs => rw [← hzip]
  rw [List.map_map]
  rfl

/-- While a decode batch is carried out, the sessions that it serves are found where they were. -/
theorem find?_of_decodeServed (ht : t.worker.Seated) {t' : Turn b}
    (hindex : t'.worker.index = t.worker.index) :
    ∀ entry ∈ t.worker.decodeServed, ∀ t'' : Turn b, t''.worker.index = t'.worker.index →
      t''.worker.index.find? entry.2.id = some entry.1 := by
  intro entry hentry t'' ht''
  rw [ht'', hindex]
  exact ht.find?_id (mem_decodeServed hentry).1

/-- Handing out rows is about the sessions that are served. -/
theorem actsOn_turns (ht : t.worker.Seated) (t' : Turn b)
    (hindex : t'.worker.index = t.worker.index) (logits : List Logits) :
    ∀ t'' : Turn b, t''.worker.index = t'.worker.index →
      ∀ turn ∈ t.worker.decodeServed.zip logits,
        ActsOn [turn.1.1] t''.worker (t''.acceptRow (turn.1.2.id, turn.2)).worker :=
  fun t'' ht'' turn hturn => actsOn_acceptRow t'' _ turn.1.1
    (find?_of_decodeServed ht hindex turn.1 (List.of_mem_zip hturn).1 t'' ht'')

theorem actsOn_failures (ht : t.worker.Seated) (t' : Turn b)
    (hindex : t'.worker.index = t.worker.index) (cause : String) :
    ∀ t'' : Turn b, t''.worker.index = t'.worker.index → ∀ entry ∈ t.worker.decodeServed,
      ActsOn [entry.1] t''.worker (failOwner cause t'' entry.2.id).worker :=
  fun t'' ht'' entry hentry => actsOn_failOwner cause t'' entry.1
    (find?_of_decodeServed ht hindex entry hentry t'' ht'')

/-- **The decode stage is about the sessions that are served.** -/
theorem actsOn_decode (ht : t.worker.Seated) :
    ∃ context, ActsOn (t.worker.decodeServed.map Prod.fst)
      { t.worker with context, decodeCursor := t.worker.decodePlan.cursor }
      t.decode.worker := by
  by_cases hslots : t.worker.decodeSlots = []
  · rw [decode_of_decodeSlots hslots, decodePlan, decodeServed_of_decodeSlots hslots]
    exact ⟨_, ActsOn.refl t.worker⟩
  · rcases hresult : (b.compute t.worker.context t.worker.decodePlan.batch).2.bind
      t.worker.decodePlan.batch.assignRows with e | rows
    · have hfail := ActsOn.foldl Prod.fst t.worker.decodeServed t.decodeCall
        (actsOn_failures ht t.decodeCall rfl e.message)
      rw [decode_of_error hslots hresult]
      exact ⟨_, { hfail with }⟩
    · obtain ⟨logits, -, hlength, hrows⟩ := rows_of_assignRows hresult
      have haccept := ActsOn.foldl (fun turn => turn.1.1) (t.worker.decodeServed.zip logits)
        t.decodeCall (actsOn_turns ht t.decodeCall rfl logits)
      rw [slots_turns hlength] at haccept
      rw [decode_of_ok hslots hresult, hrows, List.foldl_map]
      exact ⟨_, { haccept with }⟩

/-- The context after the decode stage is the one that the call returned, if there was a call. -/
theorem context_decode_of_compute (t : Turn b) :
    (t.worker.decodeServed = [] ∧ t.decode = t) ∨
      t.decode.worker.context = (b.compute t.worker.context t.worker.decodePlan.batch).1 := by
  have hfold : ∀ {κ : Type} {step : Turn b → κ → Turn b} (keys : List κ) (t' : Turn b),
      (∀ t'' key, (step t'' key).worker.context = t''.worker.context) →
        (keys.foldl step t').worker.context = t'.worker.context := fun keys t' hstep =>
    foldl_preserves (P := fun w => w.context = t'.worker.context)
      (fun t'' key h => (hstep t'' key).trans h) keys rfl
  rcases t.decode_cases with hnone | ⟨t', hcast, ⟨rows, -, heq⟩ | ⟨e, -, heq⟩⟩
  · exact .inl hnone
  · right
    rw [heq, hfold rows t' context_acceptRow, hcast.context]
  · right
    have hcontext := hfold t.worker.decodeServed t' fun t'' entry =>
      context_failOwner e.message t'' entry.2.id
    rw [heq, hcontext, hcast.context]

/-- The effects of a decode call that returned a row of logits for each session. -/
theorem decodeEffects_of_rows {w : Worker b} {rows : List (SessionId × Logits)}
    {logits : List Logits}
    (hrows : (b.compute w.context w.decodePlan.batch).2.bind w.decodePlan.batch.assignRows =
      .ok rows)
    (hlength : logits.length = w.decodeServed.length)
    (heq : rows = (w.decodeServed.zip logits).map fun turn => (turn.1.2.id, turn.2)) :
    w.decodeEffects = gather (fun turn => turn.1.2.id) (fun turn => turn.1.2.turnEffects turn.2)
      (w.decodeServed.zip logits) := by
  have hserved : (w.decodeServed.zip logits).map Prod.fst = w.decodeServed :=
    List.map_fst_zip (by omega)
  have hzip : w.decodeServed.zip rows =
      (w.decodeServed.zip logits).map fun turn => (turn.1, (turn.1.2.id, turn.2)) := by
    conv_lhs => rw [← hserved, heq]
    rw [List.zip_map']
  unfold decodeEffects
  rw [hrows]
  dsimp only
  rw [hzip, gather, List.flatMap_map]
  rfl

theorem decodeEffects_of_error {w : Worker b} {e : Error}
    (hfails : (b.compute w.context w.decodePlan.batch).2.bind w.decodePlan.batch.assignRows =
      .error e) : w.decodeEffects = [] := by
  unfold decodeEffects
  rw [hfails]

/-- A session that is not served has no effects of the stage. -/
theorem effectsOn_decodeEffects_of_notMem {w : Worker b} (hw : w.Seated)
    (hs : w.sessions.get? slot = some s) (hslot : slot ∉ w.decodeServed.map Prod.fst) :
    effectsOn s.id w.decodeEffects = [] := by
  unfold decodeEffects
  split
  · refine effectsOn_gather_of_notMem fun hmem => hslot ?_
    obtain ⟨turn, hturn, hid⟩ := List.mem_map.mp hmem
    have hentry := (List.of_mem_zip hturn).1
    have hfind := hw.find?_id (mem_decodeServed hentry).1
    rw [hid, hw.find?_id hs] at hfind
    exact Option.some.inj hfind ▸ List.mem_map_of_mem hentry
  · rfl

/-- If there is a step for each session served, then the step for one of them comes on a worker that
still has the session and its stream as they were. -/
theorem foldl_served_at {κ : Type} {step : Turn b → κ → Turn b} {entryOf : κ → Slot × Session}
    {keys : List κ} (ht : t.worker.Seated) (hdistinct : t.worker.HoldersDistinct)
    {context : b.Context} {t' : Turn b} (hcast : Recast context t.worker t'.worker)
    (hnodup : (keys.map fun key => (entryOf key).1).Nodup)
    (hstep : ∀ t'' : Turn b, t''.worker.index = t'.worker.index → ∀ key ∈ keys,
      ActsOn [(entryOf key).1] t''.worker (step t'' key).worker)
    {key : κ} (hkey : key ∈ keys) (hentry : entryOf key = (slot, s))
    (hs : t.worker.sessions.get? slot = some s) (hg : s.generation = some g)
    (hstream : t.worker.streams.get? g.stream = some stream) :
    ∃ t'' : Turn b, t''.worker.find? s.id = some (slot, s) ∧
      t''.worker.streams.get? g.stream = some stream ∧
      (keys.foldl step t').worker.sessions.get? slot =
        (step t'' key).worker.sessions.get? slot ∧
      (keys.foldl step t').worker.streams.get? g.stream =
        (step t'' key).worker.streams.get? g.stream := by
  obtain ⟨t'', ⟨others, hothers⟩, hbefore, hafter, hstreams⟩ := foldl_at hnodup t' hstep hkey
  rw [hentry] at hbefore hafter hstreams
  obtain ⟨hstream', hstream''⟩ := hstreams (hcast.holdersDistinct hdistinct) g.stream
    ((hcast.holder slot).trans (holder_eq_some_iff.mpr ⟨s, g, hs, hg, rfl⟩))
  rw [hcast.streams, hstream] at hstream'
  rw [hcast.sessions, hs] at hbefore
  have hindex : t''.worker.index.find? s.id = some slot := by
    rw [hothers.index, hcast.index]
    exact ht.find?_id hs
  exact ⟨t'', find?_eq_some_iff.mpr ⟨hindex, hbefore⟩, hstream', hafter, hstream''⟩

theorem decodeSlots_ne_nil (hentry : (slot, s) ∈ t.worker.decodeServed) :
    t.worker.decodeSlots ≠ [] := by
  intro hslots
  rw [decodeServed_of_decodeSlots hslots] at hentry
  exact List.not_mem_nil hentry

/-- **A failed decode call** ends the generation of whoever was to be served. -/
theorem decode_failed (ht : t.worker.Seated) (hdistinct : t.worker.HoldersDistinct) {e : Error}
    (hfails : (b.compute t.worker.context t.worker.decodePlan.batch).2.bind
      t.worker.decodePlan.batch.assignRows = .error e)
    (hentry : (slot, s) ∈ t.worker.decodeServed) (hg : s.generation = some g)
    (hstream : t.worker.streams.get? g.stream = some stream) :
    t.decode.worker.sessions.get? slot = some s.idle ∧
      t.decode.worker.streams.get? g.stream = some (g.close b (.error e.message) stream) := by
  obtain ⟨t', hfind, hstream', hsession, hstream''⟩ :=
    foldl_served_at ht hdistinct t.recast_decodeCall decodeServed_nodup
      (actsOn_failures ht t.decodeCall rfl e.message) hentry rfl (mem_decodeServed hentry).1 hg
      hstream
  rw [decode_of_error (decodeSlots_ne_nil hentry) hfails]
  constructor
  · rw [hsession, get?_failOwner e.message hfind]
  · rw [hstream'', stream_failOwner hfind hg, hstream', Option.map_some]

/-- **A session that is served gets its turn, or its generation ends.** -/
theorem decode_turn (ht : t.worker.Seated) (hdistinct : t.worker.HoldersDistinct)
    (hentry : (slot, s) ∈ t.worker.decodeServed) (hg : s.generation = some g)
    (hstream : t.worker.streams.get? g.stream = some stream) :
    (∃ logits row, (b.compute t.worker.context t.worker.decodePlan.batch).2 = .ok logits ∧
      ((slot, s), row) ∈ t.worker.decodeServed.zip logits ∧
      t.decode.worker.sessions.get? slot = some (s.accept b g stream row).1 ∧
      t.decode.worker.streams.get? g.stream = some (s.accept b g stream row).2 ∧
      effectsOn s.id t.worker.decodeEffects = s.turnEffects row) ∨
    ∃ e, (b.compute t.worker.context t.worker.decodePlan.batch).2.bind
        t.worker.decodePlan.batch.assignRows = .error e ∧
      t.decode.worker.sessions.get? slot = some s.idle ∧
      t.decode.worker.streams.get? g.stream = some (g.close b (.error e.message) stream) ∧
      t.worker.decodeEffects = [] := by
  have hs := (mem_decodeServed hentry).1
  rcases hresult : (b.compute t.worker.context t.worker.decodePlan.batch).2.bind
    t.worker.decodePlan.batch.assignRows with e | rows
  · obtain ⟨hs', hstream'⟩ := decode_failed ht hdistinct hresult hentry hg hstream
    exact .inr ⟨e, rfl, hs', hstream', decodeEffects_of_error hresult⟩
  -- The row of the session is the one at its place in the batch.
  · obtain ⟨logits, hlogits, hlength, hmap⟩ := rows_of_assignRows hresult
    have hzip : (t.worker.decodeServed.zip logits).map Prod.fst = t.worker.decodeServed :=
      List.map_fst_zip (by omega)
    have hentry' := hentry
    rw [← hzip] at hentry'
    obtain ⟨⟨entry, row⟩, hturn, rfl⟩ := List.mem_map.mp hentry'
    have hnodup : ((t.worker.decodeServed.zip logits).map fun turn => turn.1.1).Nodup := by
      rw [slots_turns hlength]
      exact decodeServed_nodup
    have hids := ht.nodup_ids (fun turn => turn.1.2) hnodup fun turn hmem =>
      (mem_decodeServed (List.of_mem_zip hmem).1).1
    obtain ⟨t', hfind, hstream', hsession, hstream''⟩ :=
      foldl_served_at ht hdistinct t.recast_decodeCall hnodup
        (actsOn_turns ht t.decodeCall rfl logits) hturn rfl hs hg hstream
    obtain ⟨hs', haccept⟩ := acceptRow_eq hfind hg hstream' row
    refine .inl ⟨logits, row, hlogits, hturn, ?_, ?_, ?_⟩
    · rw [decode_of_ok (decodeSlots_ne_nil hentry) hresult, hmap, List.foldl_map, hsession, hs']
    · rw [decode_of_ok (decodeSlots_ne_nil hentry) hresult, hmap, List.foldl_map, hstream'',
        haccept]
    · rw [decodeEffects_of_rows hresult hlength hmap]
      exact effectsOn_gather hids hturn

end Decode

section ByteModel

variable {params : ByteModel.Params} (t : Turn (ByteModel.backend params)) {slot : Slot}
  {s : Session}

/-- A decode call either fails and writes nothing, or every session gets its own logits. -/
theorem compute_decodePlan (w : Worker (ByteModel.backend params)) :
    (∃ e, (ByteModel.backend params).compute w.context w.decodePlan.batch =
      (w.context, .error e)) ∨
    ∃ context, (ByteModel.backend params).compute w.context w.decodePlan.batch =
      (context, .ok (w.decodeServed.map w.turnLogits)) := by
  rcases ByteModel.compute_cases params w.context w.decodePlan.batch with
    ⟨context, logits, heq, hwrite⟩ | ⟨e, heq, -⟩
  · refine Or.inr ⟨context, heq.trans ?_⟩
    rw [ByteModel.logits_of_writeAll_decode decodeServed_nodup hwrite]
    rfl
  · exact Or.inl ⟨e, heq⟩

theorem assignRows_decodePlan (w : Worker (ByteModel.backend params)) :
    w.decodePlan.batch.assignRows (w.decodeServed.map w.turnLogits) =
      .ok (w.decodeServed.map fun entry => (entry.2.id, w.turnLogits entry)) := by
  rw [Batch.assignRows, if_pos (by rw [decodePlan, List.length_map, List.length_map]), decodePlan,
    List.zip_map']

/-- The context after the decode stage is the one before it, or the one that the call returned. -/
theorem context_decode :
    t.decode.worker.context = t.worker.context ∨
      ∃ logits, (ByteModel.backend params).compute t.worker.context t.worker.decodePlan.batch =
        (t.decode.worker.context, .ok logits) := by
  rcases t.context_decode_of_compute with ⟨-, heq⟩ | hcontext
  · exact .inl (by rw [heq])
  · rcases compute_decodePlan t.worker with ⟨e, hcompute⟩ | ⟨context, hcompute⟩
    · rw [hcompute] at hcontext
      exact .inl hcontext
    · rw [hcontext, hcompute]
      exact .inr ⟨_, rfl⟩

/-- A row changes only where a batch has entries for it. -/
theorem row_decode_of_notMem (hslot : slot ∉ t.worker.decodeServed.map Prod.fst) :
    t.decode.worker.row slot = t.worker.row slot := by
  unfold Worker.row
  rcases t.context_decode with heq | ⟨logits, hcompute⟩
  · rw [heq]
  · have hrow := ByteModel.row_of_compute hcompute slot
    rwa [tokensFor_decodePlan_of_notMem hslot, List.append_nil] at hrow

/-- **The decode stage, as one session sees it.** -/
theorem decode_at (ht : t.worker.Seated) (hsound : t.worker.StreamsSound)
    (hs : t.worker.sessions.get? slot = some s) :
    ∃ s', t.decode.worker.sessions.get? slot = some s' ∧
      Decoded params t.worker.DecodeFails t.worker.streams t.decode.worker.streams s
        (t.worker.row slot) s' (t.decode.worker.row slot)
        (effectsOn s.id t.worker.decodeEffects) := by
  by_cases hslot : slot ∈ t.worker.decodeServed.map Prod.fst
  · obtain ⟨⟨slot, s'⟩, hentry, rfl⟩ := List.mem_map.mp hslot
    obtain ⟨hget, hready⟩ := mem_decodeServed hentry
    obtain rfl := Option.some.inj (hs.symm.trans hget)
    obtain ⟨g, hg, -⟩ := Session.active_of_decodeReady hready
    obtain ⟨stream, hstream, -⟩ := hsound.flowing slot g.stream
      (holder_eq_some_iff.mpr ⟨s, g, hs, hg, rfl⟩)
    have hcontext := t.context_decode_of_compute.resolve_left
      fun hnone => List.ne_nil_of_mem hentry hnone.1
    -- A call that fails writes nothing; one that succeeds has the logits of each session's own row.
    rcases compute_decodePlan t.worker with ⟨e', hcompute⟩ | ⟨context, hcompute⟩ <;>
      rcases decode_turn ht hsound.distinct hentry hg hstream with
        ⟨logits, row, hlogits, hturn, hs', hstream', heffects⟩ | ⟨e, hfails, hs', -, heffects⟩
    · rw [hcompute] at hlogits
      cases hlogits
    · have hrow : t.decode.worker.row slot = t.worker.row slot := by
        unfold Worker.row
        rw [hcontext, hcompute]
      rw [hrow, heffects]
      exact ⟨_, hs', .failed ⟨e, hfails⟩ hready⟩
    · rw [hcompute] at hlogits
      obtain rfl := Except.ok.inj hlogits
      have hown : row = t.worker.turnLogits (slot, s) := by
        rw [← List.map_prod_left_eq_zip] at hturn
        obtain ⟨entry, -, heq⟩ := List.mem_map.mp hturn
        obtain ⟨rfl, rfl⟩ := Prod.mk.inj heq
        rfl
      have hrow : t.decode.worker.row slot = t.worker.row slot ++ [s.input] := by
        unfold Worker.row
        rw [hcontext, hcompute, ByteModel.row_of_compute hcompute slot,
          tokensFor_decodePlan hentry]
      subst hown
      rw [hrow, heffects]
      exact ⟨_, hs', .served hready hg hstream hstream'⟩
    · rw [hcompute] at hfails
      exact nomatch (assignRows_decodePlan t.worker).symm.trans hfails
  · obtain ⟨context, hacts⟩ := actsOn_decode ht
    rw [t.row_decode_of_notMem hslot, effectsOn_decodeEffects_of_notMem ht hs hslot]
    exact ⟨s, (hacts.session slot hslot).trans hs,
      .waiting (hacts.keepsStream hsound.distinct hs hslot)⟩

end ByteModel

/-! ### Vacant slots -/

section ByteModel

variable {params : ByteModel.Params} (t : Turn (ByteModel.backend params))

/-- A row changes only where a batch has entries for it, and only sessions have entries. -/
theorem row_prefill_of_vacant {slot : Slot} (hvacant : t.worker.sessions.get? slot = none) :
    t.prefill.worker.row slot = t.worker.row slot := by
  refine t.row_prefill_of_notMem fun hmem => ?_
  obtain ⟨share, hshare, rfl⟩ := List.mem_map.mp hmem
  exact nomatch hvacant.symm.trans (mem_prefillShares hshare).1

theorem row_decode_of_vacant {slot : Slot} (hvacant : t.worker.sessions.get? slot = none) :
    t.decode.worker.row slot = t.worker.row slot := by
  refine t.row_decode_of_notMem fun hmem => ?_
  obtain ⟨⟨slot, s⟩, hserved, rfl⟩ := List.mem_map.mp hmem
  exact nomatch hvacant.symm.trans (mem_decodeServed hserved).1

end ByteModel

end Turn

end Turnwise
