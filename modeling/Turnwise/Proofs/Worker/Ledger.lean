import Mathlib.Data.List.Induction
import Turnwise.Proofs.Worker.Consistency

/-!
# Where the tokens of a session are

Every token that is queued for a session, as input or because it was sampled, waits in the session's
pending queue until it is written to the context or dropped after a failed prefill call. A `Ledger`
follows the tokens of one session through this: it keeps those that have left the queue, with what
became of them, and those that still wait. It knows nothing of the worker but the effects of the run
(`Worker.trace`).

Tokens leave the queue at its front and join it at its end, so the ledger never changes the order in
which they were queued (`Ledger.enqueued_of`). That the worker does what the ledger says is
`Worker.conserved_run`: the row of a session holds the tokens that were written and its queue those
that wait. Nothing is lost but what failed prefill calls have dropped, nothing is written twice, and
input that arrives in the middle of a generation makes no difference.
-/

namespace Turnwise

/-- The tokens queued for a session since it began, in order. -/
def enqueued (effects : List Effect) : List Token :=
  effects.foldl
    (fun tokens effect =>
      match effect with
      | .created => []
      | .queued more => tokens ++ more
      | .sampled _ token => tokens ++ [token]
      | .written _ | .lost _ => tokens)
    []

/-- What became of the tokens of a session. -/
structure Ledger where
  /-- The tokens that have left the queue, in order, and whether they were written. -/
  settled : List (Token × Bool) := []
  /-- The tokens in the queue. -/
  waiting : List Token := []
  deriving DecidableEq, Repr

namespace Ledger

/-- The first so many of the waiting tokens leave the queue. -/
def settle (l : Ledger) (wasWritten : Bool) (count : Nat) : Ledger where
  settled := l.settled ++ (l.waiting.take count).map fun token => (token, wasWritten)
  waiting := l.waiting.drop count

/-- Notes an effect. A session that begins has no tokens. -/
def record (l : Ledger) : Effect → Ledger
  | .created => {}
  | .queued tokens => { l with waiting := l.waiting ++ tokens }
  | .sampled _ token => { l with waiting := l.waiting ++ [token] }
  | .written count => l.settle true count
  | .lost count => l.settle false count

/-- The ledger after a list of effects. -/
def of (effects : List Effect) : Ledger := effects.foldl record {}

/-- The tokens that were written. -/
def written (l : Ledger) : List Token := (l.settled.filter Prod.snd).map Prod.fst

/-- Every token of the session. -/
def all (l : Ledger) : List Token := l.settled.map Prod.fst ++ l.waiting

variable {l : Ledger}

@[simp] theorem all_settle (l : Ledger) (wasWritten : Bool) (count : Nat) :
    (l.settle wasWritten count).all = l.all := by
  have htake : ((l.waiting.take count).map fun token => (token, wasWritten)).map Prod.fst =
      l.waiting.take count := by
    rw [List.map_map]
    exact List.map_id _
  rw [all, settle, List.map_append, htake, List.append_assoc, List.take_append_drop, all]

/-- **A ledger keeps the order in which tokens were queued.** -/
theorem enqueued_of (effects : List Effect) : (of effects).all = enqueued effects := by
  induction effects using List.reverseRecOn with
  | nil => rfl
  | append_singleton effects effect ih =>
    rw [of, enqueued, List.foldl_concat, List.foldl_concat]
    change (record (of effects) effect).all = _
    change _ = (match effect with
      | .created => []
      | .queued more => enqueued effects ++ more
      | .sampled _ token => enqueued effects ++ [token]
      | .written _ | .lost _ => enqueued effects)
    rw [← ih]
    cases effect with
    | created => rfl
    | queued tokens => exact (List.append_assoc ..).symm
    | sampled stream token => exact (List.append_assoc ..).symm
    | written count => exact all_settle ..
    | lost count => exact all_settle ..

theorem written_settle_true (l : Ledger) (count : Nat) :
    (l.settle true count).written = l.written ++ l.waiting.take count := by
  rw [written, settle, List.filter_append, List.map_append, written]
  congr 1
  rw [List.filter_eq_self.mpr, List.map_map]
  · exact List.map_id _
  · intro entry hentry
    obtain ⟨_, _, rfl⟩ := List.mem_map.mp hentry
    rfl

theorem written_settle_false (l : Ledger) (count : Nat) :
    (l.settle false count).written = l.written := by
  rw [written, settle, List.filter_append, List.map_append, written]
  have hnone : ((l.waiting.take count).map fun token => (token, false)).filter Prod.snd = [] := by
    rw [List.filter_eq_nil_iff]
    intro entry hentry
    obtain ⟨_, _, rfl⟩ := List.mem_map.mp hentry
    exact Bool.false_ne_true
  rw [hnone, List.map_nil, List.append_nil]

/-- If nothing was lost, the tokens written and the tokens waiting are all there are. -/
theorem written_append_waiting (h : ∀ entry ∈ l.settled, entry.2 = true) :
    l.written ++ l.waiting = l.all := by
  rw [written, List.filter_eq_self.mpr h, all]

/-! ### One session -/

/-- A row and a queue are as the ledger says. -/
structure Agrees (l : Ledger) (row pending : List Token) : Prop where
  row : row = l.written
  pending : pending = l.waiting

variable {row row' pending : List Token} {s s' : Session} {effects : List Effect}

theorem Agrees.write (h : l.Agrees row pending) (count : Nat) :
    (l.record (.written count)).Agrees (row ++ pending.take count) (pending.drop count) where
  row := by rw [record, written_settle_true, h.row, h.pending]
  pending := by rw [record, settle, h.pending]

theorem Agrees.lose (h : l.Agrees row pending) (count : Nat) :
    (l.record (.lost count)).Agrees row (pending.drop count) where
  row := by rw [record, written_settle_false, h.row]
  pending := by rw [record, settle, h.pending]

theorem Agrees.change (h : l.Agrees row s.pending) (hchange : s.Change s' effects) :
    (effects.foldl record l).Agrees row s'.pending := by
  cases hchange with
  | none => exact h
  | @queued tokens => exact ⟨h.row, congrArg (· ++ tokens) h.pending⟩
  | told => exact h
  | started => exact h
  | cancelled =>
    unfold Session.cancel
    split <;> exact h

theorem Agrees.swept {streams streams' : Streams} (h : l.Agrees row s.pending)
    (hswept : Swept streams streams' s s') : l.Agrees row s'.pending := by
  cases hswept <;> exact h

theorem Agrees.prefilled {failed : Prop} {streams streams' : Streams}
    (h : l.Agrees row s.pending)
    (hprefilled : Prefilled failed streams streams' s row s' row' effects) :
    (effects.foldl record l).Agrees row' s'.pending := by
  cases hprefilled with
  | skipped => exact h
  | @written count => exact h.write count
  | @lost _ cause count =>
    have hpending : (s.lose cause count).pending = s.pending.drop count := by
      unfold Session.lose
      split <;> rfl
    rw [hpending]
    exact h.lose count

/-- A turn of decoding writes the one token that waits. If a token is sampled it takes its place. -/
theorem Agrees.decoded {params : ByteModel.Params} {failed : Prop} {streams streams' : Streams}
    (h : l.Agrees row s.pending)
    (hdecoded : Decoded params failed streams streams' s row s' row' effects) :
    (effects.foldl record l).Agrees row' s'.pending := by
  cases hdecoded with
  | waiting => exact h
  | @served hready g hg stream hstream hstream' =>
    have hpending := Session.pending_of_decodeReady hready
    -- The queue holds the decode input and nothing else, so it is empty once this is written.
    have hwrite : (l.record (.written 1)).Agrees (row ++ [s.input]) [] := by
      have hwritten := h.write 1
      rwa [hpending] at hwritten
    rw [Session.turnEffects, List.foldl_cons]
    rcases Session.accept_fst (b := ByteModel.backend params) (g := g) hpending stream
        (ByteModel.logitsFor params (row ++ [s.input])) with
      ⟨e, hsample, heq⟩ | ⟨token, sampler, generation, hsample, heq, -⟩
    · rw [heq, hsample]
      exact hwrite
    · rw [heq, hsample]
      exact ⟨hwrite.row, congrArg (· ++ [token]) hwrite.pending⟩
  | failed => exact h

end Ledger

/-! ### All runs -/

namespace Worker

variable {params : ByteModel.Params} {w : Worker (ByteModel.backend params)}

/-- Every live session has its tokens where its ledger says. -/
def Conserved (w : Worker (ByteModel.backend params)) (ledgers : SessionId → Ledger) : Prop :=
  ∀ slot s, w.sessions.get? slot = some s → (ledgers s.id).Agrees (w.row slot) s.pending

theorem Conserved.tick {ledgers : SessionId → Ledger} (h : w.Conserved ledgers)
    (hw : w.Consistent) :
    w.tick.worker.Conserved fun id =>
      (effectsOn id w.tickEffects).foldl Ledger.record (ledgers id) := by
  intro slot s₃ hs₃
  cases hs : w.sessions.get? slot with
  | none => exact nomatch ((get?_tick_eq_none_iff w slot).mpr hs).symm.trans hs₃
  | some s =>
    obtain ⟨s₁, s₂, s₃', hs₃', hswept, hprefilled, hdecoded⟩ := tick_at hw.seated hw.streams hs
    obtain rfl := Option.some.inj (hs₃.symm.trans hs₃')
    -- The session keeps its name, so the effects of all the stages go to one ledger.
    have hid₁ := hswept.id_eq
    have hid₂ := hprefilled.id_eq
    have hid₃ := hdecoded.id_eq
    show ((effectsOn s₃.id w.tickEffects).foldl Ledger.record (ledgers s₃.id)).Agrees _ _
    rw [tickEffects, effectsOn_append, List.foldl_append, hid₃]
    rw [hid₂] at hdecoded ⊢
    rw [hid₁] at hprefilled hdecoded ⊢
    exact (((h slot s hs).swept hswept).prefilled hprefilled).decoded hdecoded

theorem Conserved.act {ledgers : SessionId → Ledger} (h : w.Conserved ledgers)
    (hw : w.Consistent) (action : Action) :
    (w.act action).Conserved fun id =>
      (effectsOn id (w.effects action)).foldl Ledger.record (ledgers id) := by
  by_cases htick : action = .tick
  · rw [htick]
    exact h.tick hw
  · intro slot s' hs'
    obtain ⟨hrow, ⟨s, hs, hchange⟩ | ⟨id, sampling, hvacant, rfl, hcreated⟩⟩ :=
      act_at hw.seated htick slot s' hs'
    · rw [hrow, hchange.id_eq]
      exact (h slot s hs).change hchange
    · rw [hrow, hw.vacant slot hvacant]
      show ((effectsOn id (w.effects action)).foldl Ledger.record (ledgers id)).Agrees _ _
      rw [hcreated]
      exact ⟨rfl, rfl⟩

theorem conserved_trace (id : WorkerId) (rows : Nat) (config : WorkerConfig)
    (actions : List Action) :
    ((fresh params id rows config).run actions).Conserved fun name =>
      Ledger.of (effectsOn name ((fresh params id rows config).trace actions)) := by
  induction actions using List.reverseRecOn with
  | nil =>
    intro slot s hs
    exact nomatch (get?_fresh params id rows config slot).symm.trans hs
  | append_singleton actions action ih =>
    have hstep := ih.act (consistent_run_fresh params id rows config actions) action
    intro slot s hs
    rw [run_append] at hs ⊢
    show (Ledger.of (effectsOn s.id _)).Agrees _ _
    rw [trace_append, effectsOn_append, Ledger.of, List.foldl_append, trace, trace,
      List.append_nil]
    exact hstep slot s hs

/-- **Every token is where its history says.** Take any run over the byte model, a session that is
live after it, and the history of this session: what was queued for it by acknowledged commands and
by sampling, and what the outcomes of the batches were.

* The row holds exactly the tokens that were written and the queue exactly those that wait.
* The tokens that have left the queue, followed by those that wait, are the tokens that were queued,
  in order. So the row and the queue are the tokens that were queued less those that failed prefill
  calls took from the front of the queue.
* If no prefill call lost tokens of the session, the row followed by the queue is the list of the
  tokens that were queued: each of them is at the index at which it was queued, once. -/
theorem conserved_run (params : ByteModel.Params) (id : WorkerId) (rows : Nat)
    (config : WorkerConfig) (actions : List Action) :
    let w := (fresh params id rows config).run actions
    ∀ slot s, w.sessions.get? slot = some s →
      let history := effectsOn s.id ((fresh params id rows config).trace actions)
      let ledger := Ledger.of history
      w.row slot = ledger.written ∧ s.pending = ledger.waiting ∧
      ledger.settled.map Prod.fst ++ ledger.waiting = enqueued history ∧
      ((∀ entry ∈ ledger.settled, entry.2 = true) →
        w.row slot ++ s.pending = enqueued history) := by
  intro w slot s hs history ledger
  have hagrees := conserved_trace id rows config actions slot s hs
  refine ⟨hagrees.row, hagrees.pending, Ledger.enqueued_of history, fun hkept => ?_⟩
  rw [hagrees.row, hagrees.pending, Ledger.written_append_waiting hkept]
  exact Ledger.enqueued_of history

end Worker

end Turnwise
