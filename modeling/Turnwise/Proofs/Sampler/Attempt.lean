import Turnwise.ByteModel
import Turnwise.Proofs.Sampler.Candidates

/-!
# An attempt on a sampler in place

`Sampler.sample` gives a sampler back only together with a token. This module takes it apart into
steps on a sampler that stays where it is, so that what a step has changed stays changed when a
later one fails (`Attempt`). Taking a word of the generator is a step, and so is counting the draw.
The candidates and their weights are two lists side by side, cut to the same length. A place is
drawn by the weights and looked up among the candidates, and the attempt would fail if it were not
there.

* The steps give what `Sampler.sample` gives, no place is ever missing, and an attempt that fails
  has changed nothing (`start_attempt`).
* The place that is picked has a finite logit, and there are bounds on what may rank above it
  (`sample_accounted`). In a row that is longer than there are tokens, the token need not stand at
  this place any more (`sample_folds_back`).
-/

namespace Turnwise.Sampler

/-! ### Steps -/

/-- Why an attempt stops without a token: an error, or a place that a list does not have. -/
inductive Stop where
  | error (e : Error)
  | outOfRange
  deriving DecidableEq, Repr

/-- Steps on a sampler. What they have changed before they stop stays changed. -/
abbrev Attempt := ExceptT Stop (StateM Sampler)

namespace Attempt

variable {α β : Type}

/-- What comes of the steps, and the sampler after them. -/
def start (steps : Attempt α) (sampler : Sampler) : Except Stop α × Sampler :=
  (steps.run.run sampler).run

theorem start_get (sampler : Sampler) : start get sampler = (.ok sampler, sampler) := rfl

theorem start_bind (steps : Attempt α) (next : α → Attempt β) (sampler : Sampler) :
    start (steps >>= next) sampler =
      match steps.start sampler with
      | (.ok x, sampler') => start (next x) sampler'
      | (.error stop, sampler') => (.error stop, sampler') := by
  rw [start, ExceptT.run_bind, StateT.run_bind, start]
  rcases steps.run.run sampler with ⟨_ | _, _⟩ <;> rfl

theorem start_bind_of_ok {steps : Attempt α} {sampler sampler' : Sampler} {x : α}
    (h : steps.start sampler = (.ok x, sampler')) (next : α → Attempt β) :
    start (steps >>= next) sampler = start (next x) sampler' := by
  rw [start_bind, h]

theorem start_bind_of_error {steps : Attempt α} {sampler sampler' : Sampler} {stop : Stop}
    (h : steps.start sampler = (.error stop, sampler')) (next : α → Attempt β) :
    start (steps >>= next) sampler = (.error stop, sampler') := by
  rw [start_bind, h]

end Attempt

open Attempt

/-- Takes a word of the generator. -/
def nextWord : Attempt UInt32 := do
  let sampler ← get
  modify fun sampler => { sampler with generator := sampler.generator.advance }
  pure sampler.generator.peek

/-- The element of a list at a place. -/
def elementAt {α : Type} (list : List α) (place : Nat) : Attempt α :=
  match list[place]? with
  | some x => pure x
  | none => throw .outOfRange

/-- The place in whose share of the total the point lies. -/
def placeAt (point before weight : Float32) : List Float32 → Nat
  | [] => 0
  | next :: rest =>
      if before + weight ≤ point then placeAt point (before + weight) next rest + 1 else 0

/-- How many weights reach the share. -/
def reach (share sum : Float32) : List Float32 → Nat
  | [] => 0
  | weight :: rest => if share ≤ sum + weight then 1 else reach share (sum + weight) rest + 1

/-- How many candidates take part in the draw, if these are the weights of the best ones. -/
def keptCount (config : SamplingConfig) (weights : List Float32) : Nat :=
  if config.topP < 1 then reach config.topP 0 weights else weights.length

/-- The weights of candidates: exponentials, divided by their sum. -/
def weightsOf (candidates : List Scored) (top : Float32) : List Float32 :=
  let weights := candidates.map fun (_, score) => Float32.exp (score - top)
  weights.map (· / weights.foldl (· + ·) 0)

def refusal (reason : WeightsError) : Stop :=
  .error (.sampling s!"invalid distribution: {reason.message}")

/-- Draws a place by weight. -/
def drawPlace (weights : List Float32) : Attempt Nat :=
  match weights with
  | [] => throw (refusal .noItem)
  | weight :: rest =>
      if !(weights.all fun weight => 0 ≤ weight) then throw (refusal .invalidWeight)
      else
        let total := rest.foldl (· + ·) weight
        if total == 0 then throw (refusal .allZero)
        else do
          let word ← nextWord
          pure (placeAt (unitInterval word * lowerScale total 64 total) 0 weight rest)

/-- The distribution mode. -/
def attemptDraw (logits : Logits) : Attempt Token := do
  let config := (← get).config
  let candidates := tempered config.temperature logits
  if candidates.isEmpty then throw (.error nothingToSample)
  else
    let candidates := keepTop config.topK (ranked candidates)
    let best ← elementAt candidates 0
    let weights := weightsOf candidates best.2
    let kept := keptCount config weights
    let place ← drawPlace (weights.take kept)
    let choice ← elementAt (candidates.take kept) place
    pure (Token.ofPlace choice.1)

/-- Both modes. -/
def attempt (logits : Logits) : Attempt Token := do
  let sampler ← get
  let token ←
    if sampler.isGreedy then
      match argmax logits with
      | .ok token => pure token
      | .error e => throw (.error e)
    else attemptDraw logits
  modify fun sampler => { sampler with draws := sampler.draws + 1 }
  pure token

/-! ### Places -/

theorem start_elementAt {α : Type} {list : List α} {place : Nat} {x : α}
    (h : list[place]? = some x) (sampler : Sampler) :
    (elementAt list place).start sampler = (.ok x, sampler) := by
  rw [elementAt, h]
  rfl

/-- The item that is drawn stands at the place that is drawn. -/
theorem getElem?_placeAt {α : Type} (point before weight : Float32) (item : α)
    (rest : List (α × Float32)) :
    (item :: rest.map Prod.fst)[placeAt point before weight (rest.map Prod.snd)]? =
      some (itemAt point before item weight rest) := by
  induction rest generalizing before item weight with
  | nil => rfl
  | cons next rest ih =>
    obtain ⟨next, nextWeight⟩ := next
    simp only [List.map_cons, placeAt, itemAt]
    split_ifs
    · rw [List.getElem?_cons_succ, ih]
    · rfl

theorem nucleus_eq_take (share sum : Float32) (items : List Scored) :
    nucleus share sum items = items.take (reach share sum (items.map Prod.snd)) := by
  induction items generalizing sum with
  | nil => rfl
  | cons item rest ih =>
    obtain ⟨token, weight⟩ := item
    simp only [List.map_cons, nucleus, reach]
    split_ifs
    · rfl
    · rw [List.take_succ_cons, ih]

theorem map_snd_softmax (first : Scored) (rest : List Scored) :
    (softmax (first :: rest)).map Prod.snd = weightsOf (first :: rest) first.2 := by
  simp only [softmax, weightsOf, runningSum, List.foldl_map, List.map_map]
  rfl

/-- The weights refuse a draw, and nothing has changed; or a word is taken, and the item at the
place drawn is the one that is chosen. -/
theorem start_drawPlace (items : List Scored) (sampler : Sampler) :
    (∃ reason, chooseWeighted sampler.generator items = .error reason ∧
      (drawPlace (items.map Prod.snd)).start sampler = (.error (refusal reason), sampler)) ∨
    ∃ place item, (items.map Prod.fst)[place]? = some item ∧
      chooseWeighted sampler.generator items = .ok (item, sampler.generator.advance) ∧
      (drawPlace (items.map Prod.snd)).start sampler =
        (.ok place, { sampler with generator := sampler.generator.advance }) := by
  cases items with
  | nil => exact .inl ⟨.noItem, rfl, rfl⟩
  | cons item rest =>
    obtain ⟨item, weight⟩ := item
    have hall : ((item, weight) :: rest).all (fun item => 0 ≤ item.2) =
        (weight :: rest.map Prod.snd).all fun weight => 0 ≤ weight := by
      rw [List.all_cons, List.all_cons, List.all_map]
      rfl
    have htotal : runningSum weight rest = (rest.map Prod.snd).foldl (· + ·) weight :=
      List.foldl_map.symm
    rw [List.map_cons, drawPlace, chooseWeighted, hall, htotal]
    dsimp only
    split_ifs
    · exact .inl ⟨.invalidWeight, rfl, rfl⟩
    · exact .inl ⟨.allZero, rfl, rfl⟩
    · exact .inr ⟨_, _, getElem?_placeAt _ _ _ item rest, rfl, rfl⟩

/-- Cut to the same length, the two lists are the two sides of the candidates that take part in the
draw. -/
theorem map_shortlist {config : SamplingConfig} {logits : Logits} {first : Scored}
    {rest : List Scored}
    (h : keepTop config.topK (ranked (tempered config.temperature logits)) = first :: rest) :
    let weights := weightsOf (first :: rest) first.2
    (shortlist config logits).map Prod.snd = weights.take (keptCount config weights) ∧
      (shortlist config logits).map Prod.fst =
        ((first :: rest).take (keptCount config weights)).map Prod.fst := by
  intro weights
  have hweights : (softmax (first :: rest)).map Prod.snd = weights := map_snd_softmax first rest
  -- Without a nucleus both lists are taken whole, as they are equally long.
  have hlength : weights.length = (first :: rest).length := by
    rw [← hweights, List.length_map, ← List.length_map (f := Prod.fst), map_fst_softmax,
      List.length_map]
  unfold shortlist keptCount
  dsimp only
  rw [h]
  split_ifs
  · rw [nucleus_eq_take, List.map_take, List.map_take, List.map_take, hweights, map_fst_softmax]
    exact ⟨rfl, rfl⟩
  · rw [hweights, map_fst_softmax, List.take_length, hlength, List.take_length]
    exact ⟨rfl, rfl⟩

theorem exists_keepTop_eq {k : Nat} {candidates : List Scored} (h : candidates ≠ []) :
    ∃ first rest, keepTop k (ranked candidates) = first :: rest := by
  have hranked : ranked candidates ≠ [] := fun hnil =>
    h (List.perm_nil.mp (hnil ▸ (ranked_perm candidates).symm))
  refine List.exists_cons_of_ne_nil ?_
  unfold keepTop
  split_ifs with hk
  · exact hranked
  · exact fun hnil => (List.take_eq_nil_iff.mp hnil).elim hk hranked

/-- **The distribution mode in place.** -/
theorem start_attemptDraw (logits : Logits) (sampler : Sampler) :
    (attemptDraw logits).start sampler =
      match sampler.drawWeighted logits with
      | .ok (token, generator) => (.ok token, { sampler with generator })
      | .error e => (.error (.error e), sampler) := by
  unfold attemptDraw drawWeighted
  rw [start_bind_of_ok (start_get sampler)]
  dsimp only
  by_cases hempty : (tempered sampler.config.temperature logits).isEmpty = true
  · rw [if_pos hempty, if_pos hempty]
    rfl
  · obtain ⟨first, rest, hkept⟩ := exists_keepTop_eq (k := sampler.config.topK)
      (fun hnil => hempty (List.isEmpty_iff.mpr hnil))
    obtain ⟨hweights, hplaces⟩ := map_shortlist hkept
    rw [if_neg hempty, if_neg hempty, hkept,
      start_bind_of_ok (start_elementAt (x := first) rfl sampler)]
    rcases start_drawPlace (shortlist sampler.config logits) sampler with
      ⟨reason, hrefused, hsteps⟩ | ⟨place, item, hitem, hchosen, hsteps⟩
    · rw [hweights] at hsteps
      rw [hrefused]
      exact start_bind_of_error hsteps _
    -- The place is one of the cut list of weights, so it is one of the cut list of candidates.
    · rw [hweights] at hsteps
      rw [hplaces, List.getElem?_map, Option.map_eq_some_iff] at hitem
      obtain ⟨choice, hchoice, rfl⟩ := hitem
      rw [hchosen]
      refine (start_bind_of_ok hsteps _).trans ?_
      exact start_bind_of_ok (start_elementAt hchoice _) _

/-- **An attempt in place** gives what the sampler gives. No place is missing, and nothing has
changed if there is no token. -/
theorem start_attempt (logits : Logits) (sampler : Sampler) :
    (attempt logits).start sampler =
      match sampler.sample logits with
      | .ok (token, sampler') => (.ok token, sampler')
      | .error e => (.error (.error e), sampler) := by
  unfold attempt sample
  rw [start_bind_of_ok (start_get sampler)]
  by_cases hgreedy : sampler.isGreedy = true
  · rw [if_pos hgreedy, if_pos hgreedy]
    rcases argmax logits with e | token <;> rfl
  · rw [if_neg hgreedy, if_neg hgreedy]
    have hsteps := start_attemptDraw logits sampler
    rcases hdraw : sampler.drawWeighted logits with e | ⟨token, generator⟩ <;> rw [hdraw] at hsteps
    · exact start_bind_of_error hsteps _
    · exact start_bind_of_ok hsteps _

theorem token_eq_place {logits : Logits} {place : Nat} {token : Token} {logit : Float32}
    (htoken : token = Token.ofPlace place) (hlogit : logits[place]? = some logit)
    (hlength : logits.length ≤ Token.limit) : token = place := by
  have hplace := (List.getElem?_eq_some_iff.mp hlogit).1
  exact htoken.trans (Token.ofPlace_of_lt (Nat.lt_of_lt_of_le hplace hlength))

/-- **What a sampler gives.** An attempt in place, step by step, gives what `sample` says: it never
looks for a place that is not there, and without a token it leaves the sampler as it was. A token
counts as one draw; it takes one word of the generator in the distribution mode, and none in the
greedy mode. It is the token at a place of the row whose logit is finite, and if the row has no more
places than there are tokens, it is this place. In the greedy mode no number of the row ranks above
the logit, and the place is the last one that has it. In the distribution mode fewer than `topK`
finite logits of the row have a higher quotient by the temperature. -/
theorem sample_accounted (sampler : Sampler) (logits : Logits) :
    (attempt logits).start sampler =
        (match sampler.sample logits with
        | .ok (token, sampler') => (.ok token, sampler')
        | .error e => (.error (.error e), sampler)) ∧
      ∀ token sampler', sampler.sample logits = .ok (token, sampler') →
        sampler' = { sampler with
          draws := sampler.draws + 1
          generator := if sampler.config.temperature ≤ 0 then sampler.generator
            else sampler.generator.advance } ∧
        ∃ place logit, token = Token.ofPlace place ∧
          (logits.length ≤ Token.limit → token = place) ∧
          logits[place]? = some logit ∧ logit.isFinite = true ∧
          (sampler.config.temperature ≤ 0 →
            ∀ place' x, logits[place']? = some x → x.isNaN = false →
              totalRank x ≤ totalRank logit ∧ (totalRank x = totalRank logit → place' ≤ place)) ∧
          (¬ sampler.config.temperature ≤ 0 → 0 < sampler.config.topK →
            logits.countP (fun x => x.isFinite &&
              totalRank (logit / sampler.config.temperature) <
                totalRank (x / sampler.config.temperature)) < sampler.config.topK) := by
  refine ⟨start_attempt logits sampler, fun token sampler' hsample => ?_⟩
  obtain ⟨hgreedy, hbest, rfl⟩ | ⟨hgreedy, generator, hdraw, rfl⟩ := sample_cases hsample
  · have hcold : sampler.config.temperature ≤ 0 := of_decide_eq_true hgreedy
    obtain ⟨place, logit, htoken, hlogit, hfinite, hmost⟩ := exists_of_argmax hbest
    rw [if_pos hcold]
    exact ⟨rfl, place, logit, htoken, token_eq_place htoken hlogit, hlogit, hfinite,
      fun _ => hmost, fun hwarm => absurd hcold hwarm⟩
  · have hwarm : ¬ sampler.config.temperature ≤ 0 := of_decide_eq_false hgreedy
    obtain ⟨place, hmem, htoken, hgenerator⟩ := exists_mem_shortlist_of_drawWeighted hdraw
    obtain ⟨logit, hlogit, hfinite, hcount⟩ := exists_of_mem_shortlist hmem
    rw [if_neg hwarm, ← hgenerator]
    exact ⟨rfl, place, logit, htoken, token_eq_place htoken hlogit, hlogit, hfinite,
      fun hcold => absurd hcold hwarm, fun _ => hcount⟩

/-- A row of one place more than there are tokens, of which only the last place has a finite logit.
The greedy mode picks this place, and the token is the first of the vocabulary, whose logit is not
finite. -/
theorem sample_folds_back :
    let row : Logits := List.replicate Token.limit ByteModel.masked ++ [0]
    (ofConfig {}).sample row = .ok (0, { ofConfig {} with draws := 1 }) ∧
      row[0]? = some ByteModel.masked ∧ ByteModel.masked.isFinite = false := by
  intro row
  have hbest : argmax row =
      .ok (Token.ofPlace (List.replicate Token.limit ByteModel.masked).length) :=
    argmax_append_singleton (by decide +kernel) (by decide +kernel) fun x hx => by
      rw [List.eq_of_mem_replicate hx]
      decide +kernel
  rw [List.length_replicate] at hbest
  refine ⟨?_, ?_, by decide +kernel⟩
  · rw [sample, if_pos (by decide +kernel), hbest]
    rfl
  · rw [List.getElem?_append_left (by rw [List.length_replicate]; decide), List.getElem?_replicate,
      if_pos (by decide)]

end Turnwise.Sampler
