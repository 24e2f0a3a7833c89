import Turnwise.Proofs.Sampler
import Turnwise.Proofs.Worker.Consistency
import Turnwise.Proofs.Worker.Treatment

/-!
# Calls that cannot fail

The byte model refuses a batch with an entry outside of the context, outside of the vocabulary or
not at the end of its row, or with the byte that it was told to refuse. A worker never submits an
entry of the first three kinds. What this takes beside `Worker.Consistent` is that every queue holds
tokens of the vocabulary only, whether they come from a text or from a sampler, and that every slot
of the arena has a row (`Worker.Accepting`). So where there is no byte to refuse, no call fails
(`Accepting.not_prefillFails`, `Accepting.not_decodeFails`): one session cannot harm another one by
what it puts into their common batch.
-/

namespace Turnwise

/-! ### Tokens of the vocabulary -/

/-- The queue of a session holds tokens of the vocabulary only. -/
def Session.Valid (s : Session) (_row : List Token) : Prop :=
  ∀ token ∈ s.pending, token < ByteModel.vocabularySize

theorem ByteModel.length_logitsFor (params : Params) (row : List Token) :
    (logitsFor params row).length = vocabularySize := by
  rw [logitsFor, List.length_map, List.length_range]

namespace Session

variable {s s' : Session} {row row' : List Token} {effects : List Effect}

/-- A session that has fewer tokens waiting has no others. -/
theorem Valid.of_subset (h : s.Valid row) (hpending : s'.pending ⊆ s.pending) : s'.Valid row' :=
  fun token htoken => h token (hpending htoken)

theorem Change.valid (hchange : s.Change s' effects) (h : s.Valid row) : s'.Valid row := by
  cases hchange with
  | none => exact h
  | queued htokens =>
    intro token htoken
    rcases List.mem_append.mp htoken with hold | hnew
    · exact h token hold
    · exact htokens token hnew
  | told => exact h
  | started => exact h
  | cancelled =>
    unfold cancel
    split <;> exact h

end Session

section Stages

variable {streams streams' : Streams} {s s' : Session} {row row' : List Token}
  {effects : List Effect} {failed : Prop}

theorem Swept.valid (hswept : Swept streams streams' s s') (h : s.Valid row) : s'.Valid row := by
  cases hswept <;> exact h

theorem Prefilled.valid (hprefilled : Prefilled failed streams streams' s row s' row' effects)
    (h : s.Valid row) : s'.Valid row' := by
  cases hprefilled with
  | skipped => exact h
  | @written count => exact h.of_subset (List.drop_subset count s.pending)
  | @lost _ cause count =>
    unfold Session.lose
    split <;> exact h.of_subset (List.drop_subset count s.pending)

/-- A turn of decoding leaves nothing in the queue but a sampled token. -/
theorem Decoded.valid {params : ByteModel.Params}
    (hdecoded : Decoded params failed streams streams' s row s' row' effects) (h : s.Valid row) :
    s'.Valid row' := by
  cases hdecoded with
  | waiting => exact h
  | @served hready g hg stream hstream hstream' =>
    rcases Session.accept_fst (b := ByteModel.backend params) (g := g)
        (Session.pending_of_decodeReady hready) stream
        (ByteModel.logitsFor params (row ++ [s.input])) with
      ⟨e, -, heq⟩ | ⟨token, sampler, generation, hsample, heq, -⟩
    · rw [heq]
      exact nofun
    · rw [heq]
      intro token' htoken'
      have hlt := Sampler.lt_length_of_sample hsample
      rw [ByteModel.length_logitsFor] at hlt
      rwa [List.mem_singleton.mp htoken']
  | failed => exact h

end Stages

namespace Worker

theorem sessionInvariant_valid (params : ByteModel.Params) :
    SessionInvariant params Session.Valid where
  created _ _ _ := nofun
  change hchange h := hchange.valid h
  swept hswept h := hswept.valid h
  prefilled hprefilled h := hprefilled.valid h
  decoded hdecoded h := hdecoded.valid h

/-! ### Slots with rows -/

section Rows

variable {params : ByteModel.Params} {w w' : Worker (ByteModel.backend params)}
  {t : Turn (ByteModel.backend params)}

/-- How many rows the context of a worker has. -/
def rowCount (w : Worker (ByteModel.backend params)) : Nat :=
  (ByteModel.Context.rows w.context).length

theorem rowCount_congr (h : w'.context = w.context) : w'.rowCount = w.rowCount := by
  rw [rowCount, h, rowCount]

theorem rowCount_releaseAll (w : Worker (ByteModel.backend params)) (slots : List Slot) :
    (w.releaseAll slots).rowCount = w.rowCount := by
  induction slots generalizing w with
  | nil => rfl
  | cons first rest ih =>
    exact (ih (w.release first)).trans (ByteModel.length_rows_removeSlot w.context first)

theorem rowCount_prefill : t.prefill.worker.rowCount = t.worker.rowCount := by
  rcases t.context_prefill with heq | ⟨logits, hcompute⟩
  · exact rowCount_congr heq
  · exact ByteModel.length_rows_of_compute hcompute

theorem rowCount_decode : t.decode.worker.rowCount = t.worker.rowCount := by
  rcases t.context_decode with heq | ⟨logits, hcompute⟩
  · exact rowCount_congr heq
  · exact ByteModel.length_rows_of_compute hcompute

theorem rowCount_sweep : t.sweep.worker.rowCount = t.worker.rowCount :=
  rowCount_congr t.actsOn_sweep.context

theorem Step.rowCount {action : Action} (h : Step w action w') : w'.rowCount = w.rowCount := by
  cases h with
  | same => rfl
  | create => rfl
  | append => rfl
  | @generate _ id s hs budget => exact rowCount_congr (w.context_generateOn s id budget)
  | cancel => rfl
  | @endSession id slot hslot tally =>
    exact (ByteModel.length_rows_removeSlot _ slot).trans <|
      rowCount_congr (actsOn_finishGeneration w slot (.done .sessionEnded)).context
  | tick =>
    rw [Worker.tick, rowCount_decode, rowCount_prefill, rowCount_sweep]
    rfl
  | shutdown =>
    rw [shutdown_eq]
    exact (rowCount_releaseAll ..).trans (rowCount_congr (actsOn_quiesce w).context)
  | consume => rfl

/-! ### Calls -/

/-- Nothing that the worker can submit is refused, except for the byte that is to be refused. -/
structure Accepting (w : Worker (ByteModel.backend params)) : Prop where
  consistent : w.Consistent
  valid : w.Every Session.Valid
  places : w.sessions.entries.length ≤ w.rowCount

namespace Accepting

theorem fresh (params : ByteModel.Params) (id : WorkerId) (rows : Nat) (config : WorkerConfig) :
    (fresh params id rows config).Accepting where
  consistent := consistent_fresh params id rows config
  valid := every_fresh Session.Valid params id rows config
  places := by
    -- The arena has as many slots as sessions are allowed, but never more than there are rows.
    show (List.replicate _ _).length ≤ (List.replicate _ _).length
    rw [List.length_replicate, List.length_replicate]
    show min config.maxSessions (List.replicate rows []).length ≤ rows
    rw [List.length_replicate]
    exact Nat.min_le_right ..

theorem beginTick (hw : w.Accepting) : w.beginTick.worker.Accepting :=
  ⟨hw.consistent.beginTick, hw.valid, hw.places⟩

theorem sweep (ht : t.worker.Accepting) : t.sweep.worker.Accepting where
  consistent := ht.consistent.sweep
  valid := (sessionInvariant_valid params).sweep ht.consistent.streams ht.valid
  places := by
    rw [rowCount_sweep, t.actsOn_sweep.places]
    exact ht.places

theorem prefill (ht : t.worker.Accepting) : t.prefill.worker.Accepting where
  consistent := ht.consistent.prefill
  valid :=
    (sessionInvariant_valid params).prefill ht.consistent.seated ht.consistent.streams ht.valid
  places := by
    rw [rowCount_prefill, (stepInvariant_places _).prefill rfl]
    exact ht.places

theorem act (hw : w.Accepting) (action : Action) : (w.act action).Accepting where
  consistent := hw.consistent.act action
  valid := (sessionInvariant_valid params).act hw.consistent hw.valid action
  places := by
    rw [(step_act w action).rowCount, (step_act w action).length_entries]
    exact hw.places

theorem lt_rowCount (hw : w.Accepting) {slot : Slot} {s : Session}
    (hs : w.sessions.get? slot = some s) : slot.index < w.rowCount :=
  Nat.lt_of_lt_of_le (SlotArena.lt_length_of_get?_eq_some hs) hw.places

theorem not_prefillFails (hw : w.Accepting) (hfail : params.failOn = none) : ¬ w.PrefillFails := by
  rintro ⟨e, he⟩
  -- Each share is a run of valid tokens at the end of the row of its session.
  have hshares : ∀ share ∈ w.prefillShares,
      share.slot.index < w.rowCount ∧
      (∀ token ∈ share.tokens, token < ByteModel.vocabularySize) ∧
      share.session.position = (w.row share.slot).length := by
    intro share hshare
    obtain ⟨hs, -⟩ := mem_prefillShares hshare
    exact ⟨hw.lt_rowCount hs,
      fun token htoken => hw.valid share.slot share.session hs token (List.mem_of_mem_take htoken),
      (hw.consistent.occupied share.slot share.session hs).position⟩
  obtain ⟨context, hwrite⟩ := ByteModel.writeAll_shares hfail prefillShares_nodup hshares
  rcases ByteModel.compute_cases params w.context w.prefillPlan.batch with
    ⟨_, _, heq, -⟩ | ⟨_, -, herror⟩
  · exact nomatch (congrArg Prod.snd heq).symm.trans he
  · exact nomatch hwrite.symm.trans herror

theorem not_decodeFails (hw : w.Accepting) (hfail : params.failOn = none) : ¬ w.DecodeFails := by
  rintro ⟨e, he⟩
  -- Each session served has its one token in its queue, and it goes to the end of its own row.
  have hserved : ∀ entry ∈ w.decodeServed,
      entry.1.index < w.rowCount ∧ entry.2.input < ByteModel.vocabularySize ∧
      entry.2.position = (w.row entry.1).length := by
    rintro ⟨slot, s⟩ hentry
    obtain ⟨hs, hready⟩ := mem_decodeServed hentry
    have hinput : s.input ∈ s.pending := by
      rw [Session.pending_of_decodeReady hready]
      exact List.mem_singleton_self _
    exact ⟨hw.lt_rowCount hs, hw.valid slot s hs s.input hinput,
      (hw.consistent.occupied slot s hs).position⟩
  obtain ⟨context, logits, hwrite⟩ := ByteModel.writeAll_decode hfail decodeServed_nodup hserved
  rcases Turn.compute_decodePlan w with ⟨e', heq⟩ | ⟨context', heq⟩
  · rcases ByteModel.compute_cases params w.context w.decodePlan.batch with
      ⟨_, _, hok, -⟩ | ⟨_, -, herror⟩
    · exact nomatch (Prod.mk.inj (heq.symm.trans hok)).2
    · exact nomatch hwrite.symm.trans herror
  · rw [heq] at he
    exact nomatch (Turn.assignRows_decodePlan w).symm.trans he

end Accepting

end Rows

end Worker

end Turnwise
