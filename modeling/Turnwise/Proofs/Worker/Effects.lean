import Turnwise.Proofs.Worker.Action
import Turnwise.Proofs.Worker.Plans

/-!
# What happens to the tokens of a session

A run of a worker is told here from the side of the tokens: which were queued for a session, which
were sampled for it, and what became of the tokens at the front of its queue when a batch was
submitted (`Effect`). `Worker.effects` reads this off a worker and an action: off the answers to
commands, and off the two plans of a tick and the outcome of the two calls. `Worker.trace` collects
the effects of a run.
-/

namespace Turnwise

/-- Something that happens to a session or its tokens. -/
inductive Effect where
  /-- The session begins. Its id may have had another session before. -/
  | created
  /-- Input was queued. -/
  | queued (tokens : List Token)
  /-- A token was sampled for the generation on a stream, and queued. -/
  | sampled (stream : Option StreamId) (token : Token)
  /-- The first so many of the waiting tokens were written to the context. -/
  | written (count : Nat)
  /-- The first so many of the waiting tokens were dropped after a failed call. -/
  | lost (count : Nat)
  deriving DecidableEq, Repr

/-- The effects on one session. -/
def effectsOn (id : SessionId) (effects : List (SessionId × Effect)) : List Effect :=
  (effects.filter (·.1 = id)).map Prod.snd

/-- The effects of a stage that treats one session after the other. -/
def gather {κ : Type} (idOf : κ → SessionId) (effectsOf : κ → List Effect) (keys : List κ) :
    List (SessionId × Effect) :=
  keys.flatMap fun key => (effectsOf key).map fun effect => (idOf key, effect)

@[simp] theorem effectsOn_nil (id : SessionId) : effectsOn id [] = [] := rfl

theorem effectsOn_append (id : SessionId) (effects effects' : List (SessionId × Effect)) :
    effectsOn id (effects ++ effects') = effectsOn id effects ++ effectsOn id effects' := by
  rw [effectsOn, List.filter_append, List.map_append]
  rfl

theorem effectsOn_singleton (id id' : SessionId) (effect : Effect) :
    effectsOn id [(id', effect)] = if id' = id then [effect] else [] := by
  rw [effectsOn, List.filter_singleton]
  by_cases h : id' = id
  · rw [if_pos h, decide_eq_true h]
    rfl
  · rw [if_neg h, decide_eq_false h]
    rfl

theorem mem_of_mem_effectsOn {name : SessionId} {effect : Effect}
    {effects : List (SessionId × Effect)} (h : effect ∈ effectsOn name effects) :
    (name, effect) ∈ effects := by
  obtain ⟨⟨name', effect'⟩, hmem, rfl⟩ := List.mem_map.mp h
  obtain ⟨hmem, hname⟩ := List.mem_filter.mp hmem
  rwa [← of_decide_eq_true hname]

section Gather

variable {κ : Type} {idOf : κ → SessionId} {effectsOf : κ → List Effect} {keys : List κ}

theorem effectsOn_gather_of_notMem {id : SessionId} (h : id ∉ keys.map idOf) :
    effectsOn id (gather idOf effectsOf keys) = [] := by
  rw [effectsOn, List.map_eq_nil_iff, List.filter_eq_nil_iff]
  intro effect heffect heq
  obtain ⟨key, hkey, heffect⟩ := List.mem_flatMap.mp heffect
  obtain ⟨_, _, rfl⟩ := List.mem_map.mp heffect
  exact h (List.mem_map.mpr ⟨key, hkey, of_decide_eq_true heq⟩)

theorem effectsOn_map_pair (id : SessionId) (effects : List Effect) :
    effectsOn id (effects.map fun effect => (id, effect)) = effects := by
  rw [effectsOn, List.filter_eq_self.mpr, List.map_map]
  · exact List.map_id _
  · intro effect heffect
    obtain ⟨_, _, rfl⟩ := List.mem_map.mp heffect
    exact decide_eq_true rfl

/-- A stage that treats every session once has on a session the effects of its one treatment. -/
theorem effectsOn_gather (hnodup : (keys.map idOf).Nodup) {key : κ} (hkey : key ∈ keys) :
    effectsOn (idOf key) (gather idOf effectsOf keys) = effectsOf key := by
  obtain ⟨before, after, rfl⟩ := List.append_of_mem hkey
  -- No other treatment is of a session with this name.
  rw [List.map_append, List.map_cons, List.nodup_middle, List.nodup_cons, List.mem_append,
    not_or] at hnodup
  have hbefore : effectsOn (idOf key) (gather idOf effectsOf before) = [] :=
    effectsOn_gather_of_notMem hnodup.1.1
  have hafter : effectsOn (idOf key) (gather idOf effectsOf after) = [] :=
    effectsOn_gather_of_notMem hnodup.1.2
  unfold gather at hbefore hafter ⊢
  rw [List.flatMap_append, List.flatMap_cons, effectsOn_append, effectsOn_append, hbefore, hafter,
    effectsOn_map_pair, List.append_nil, List.nil_append]

end Gather

/-- The tokens sampled for the generation on a stream. -/
def sampledOn (stream : StreamId) (effects : List Effect) : List Token :=
  effects.filterMap fun effect =>
    match effect with
    | .sampled (some id) token => if id = stream then some token else none
    | _ => none

theorem sampledOn_append (stream : StreamId) (effects effects' : List Effect) :
    sampledOn stream (effects ++ effects') =
      sampledOn stream effects ++ sampledOn stream effects' :=
  List.filterMap_append

theorem sampledOn_eq_nil {stream : StreamId} {effects : List Effect}
    (h : ∀ token, .sampled (some stream) token ∉ effects) : sampledOn stream effects = [] := by
  rw [sampledOn, List.filterMap_eq_nil_iff]
  intro effect heffect
  split
  · rename_i id token
    rw [if_neg]
    rintro rfl
    exact h token heffect
  · rfl

/-- The effects of a turn of decoding, given the logits after the decode input. -/
def Session.turnEffects (s : Session) (logits : Logits) : List Effect :=
  .written 1 ::
    match s.sampler.sample logits with
    | .ok (token, _) => [.sampled (s.generation.map Generation.stream) token]
    | .error _ => []

theorem Session.sampledOn_turnEffects_of_error {s : Session} {logits : Logits} {e : Error}
    (h : s.sampler.sample logits = .error e) (stream : StreamId) :
    sampledOn stream (s.turnEffects logits) = [] := by
  rw [turnEffects, h]
  rfl

theorem Session.sampledOn_turnEffects_of_ok {s : Session} {g : Generation}
    (hg : s.generation = some g) {logits : Logits} {token : Token} {sampler : Sampler}
    (h : s.sampler.sample logits = .ok (token, sampler)) :
    sampledOn g.stream (s.turnEffects logits) = [token] := by
  rw [turnEffects, h, hg]
  simp [sampledOn]

namespace Worker

variable {b : Backend}

/-- The effects of the prefill stage of a worker. -/
def prefillEffects (w : Worker b) : List (SessionId × Effect) :=
  match (b.compute w.context w.prefillPlan.batch).2 with
  | .ok _ => gather (·.session.id) (fun share => [.written share.count]) w.prefillShares
  | .error _ => gather (·.session.id) (fun share => [.lost share.count]) w.prefillShares

/-- The effects of the decode stage of a worker. A session keeps the decode input of a failed
call. -/
def decodeEffects (w : Worker b) : List (SessionId × Effect) :=
  match (b.compute w.context w.decodePlan.batch).2.bind w.decodePlan.batch.assignRows with
  | .ok rows =>
      gather (fun turn => turn.1.2.id) (fun turn => turn.1.2.turnEffects turn.2.2)
        (w.decodeServed.zip rows)
  | .error _ => []

/-- The effects of a tick. -/
def tickEffects (w : Worker b) : List (SessionId × Effect) :=
  w.beginTick.sweep.worker.prefillEffects ++ w.beginTick.sweep.prefill.worker.decodeEffects

/-- The effects of an action. Of the commands only those count that were acknowledged. -/
def effects (w : Worker b) : Action → List (SessionId × Effect)
  | .command (.createSession id sampling) =>
      match w.createSession id sampling with
      | .ok _ => [(id, .created)]
      | .error _ => []
  | .command (.appendInput id text) =>
      match w.appendInput id text, b.tokenize text with
      | .ok _, .ok tokens => [(id, .queued tokens)]
      | _, _ => []
  | .tick => w.tickEffects
  | _ => []

/-- Nothing is sampled between two ticks. -/
theorem sampledOn_effects (w : Worker b) {action : Action} (htick : action ≠ .tick)
    (id : StreamId) (name : SessionId) :
    sampledOn id (effectsOn name (w.effects action)) = [] := by
  refine sampledOn_eq_nil fun token hmem => ?_
  have hmem := mem_of_mem_effectsOn hmem
  unfold effects at hmem
  split at hmem
  · split at hmem
    · exact nomatch List.mem_singleton.mp hmem
    · exact List.not_mem_nil hmem
  · split at hmem
    · exact nomatch List.mem_singleton.mp hmem
    · exact List.not_mem_nil hmem
  · exact htick rfl
  · exact List.not_mem_nil hmem

/-- The effects of a run, in order. -/
def trace (w : Worker b) : List Action → List (SessionId × Effect)
  | [] => []
  | action :: actions => w.effects action ++ (w.act action).trace actions

theorem trace_append (w : Worker b) (actions actions' : List Action) :
    w.trace (actions ++ actions') = w.trace actions ++ (w.run actions).trace actions' := by
  induction actions generalizing w with
  | nil => rfl
  | cons action rest ih => rw [List.cons_append, trace, ih, trace, List.append_assoc, run_cons]

end Worker

end Turnwise
