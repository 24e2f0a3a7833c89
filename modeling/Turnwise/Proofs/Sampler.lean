import Mathlib.Data.List.Basic
import Mathlib.Tactic.SplitIfs
import Turnwise.Sampler

/-!
# What a sampler gives

A row of logits has one value per place of the vocabulary, and whatever the mode and the parameters
of a sampler, what it picks is one of these places. Each step of the distribution mode only drops,
reorders or reweighs candidates (`Sampler.lt_length_of_mem_shortlist`). So the token is one that the
row has a value for, also where places fold back (`Sampler.lt_length_of_sample`). Each token is one
draw (`Sampler.draws_of_sample`).
-/

namespace Turnwise

/-! ### Weighted choice -/

section Weighted

variable {α : Type}

theorem itemAt_mem (point before : Float32) (item : α) (weight : Float32)
    (rest : List (α × Float32)) :
    itemAt point before item weight rest ∈ item :: rest.map Prod.fst := by
  induction rest generalizing before item weight with
  | nil => exact List.mem_singleton_self item
  | cons next rest ih =>
    obtain ⟨next, nextWeight⟩ := next
    rw [itemAt]
    split_ifs
    · exact List.mem_cons_of_mem item (ih _ next nextWeight)
    · exact List.mem_cons_self

/-- What is chosen is one of the items, and it takes one word of the generator. -/
theorem mem_of_chooseWeighted {g g' : ChaCha.Generator} {items : List (α × Float32)} {choice : α}
    (h : chooseWeighted g items = .ok (choice, g')) :
    choice ∈ items.map Prod.fst ∧ g' = g.advance := by
  unfold chooseWeighted at h
  split at h
  · cases h
  · rename_i item weight rest
    split_ifs at h
    dsimp only at h
    split_ifs at h
    obtain ⟨rfl, rfl⟩ := Prod.mk.inj (Except.ok.inj h)
    exact ⟨itemAt_mem _ _ item weight rest, rfl⟩

end Weighted

namespace Sampler

variable {logits : Logits} {items : List Scored} {place : Nat} {token : Token}

theorem mem_scored {item : Scored} : item ∈ scored logits ↔ logits[item.1]? = some item.2 := by
  obtain ⟨place, logit⟩ := item
  rw [scored, List.mem_map, ← List.mem_zipIdx_iff_getElem? (x := (logit, place))]
  constructor
  · rintro ⟨⟨logit', place'⟩, hmem, heq⟩
    obtain ⟨rfl, rfl⟩ := Prod.mk.inj heq
    exact hmem
  · exact fun hmem => ⟨_, hmem, rfl⟩

theorem lt_length_of_mem_scored {item : Scored} (h : item ∈ scored logits) :
    item.1 < logits.length :=
  (List.getElem?_eq_some_iff.mp (mem_scored.mp h)).1

/-! ### Greedy mode -/

theorem best?_mem {item : Scored} (h : best? items = some item) : item ∈ items := by
  have hfold : ∀ (rest : List Scored) (first : Scored),
      rest.foldl better first ∈ first :: rest := by
    intro rest
    induction rest with
    | nil => exact fun first => List.mem_singleton_self first
    | cons next rest ih =>
      intro first
      rw [List.foldl_cons, better]
      split_ifs
      · exact List.mem_cons_of_mem first (ih next)
      · rcases List.mem_cons.mp (ih first) with heq | hmem
        · rw [heq]
          exact List.mem_cons_self
        · exact List.mem_cons_of_mem first (List.mem_cons_of_mem next hmem)
  cases items with
  | nil => cases h
  | cons first rest => exact Option.some.inj h ▸ hfold rest first

theorem lt_length_of_argmax (h : argmax logits = .ok token) : token < logits.length := by
  unfold argmax at h
  split at h
  · rename_i place logit hbest
    split_ifs at h
    obtain rfl := Except.ok.inj h
    have hmem := List.mem_of_mem_filter (best?_mem hbest)
    exact Nat.lt_of_le_of_lt (Token.ofPlace_le place) (lt_length_of_mem_scored hmem)
  · cases h

/-! ### Distribution mode -/

theorem map_fst_softmax (items : List Scored) :
    (softmax items).map Prod.fst = items.map Prod.fst := by
  unfold softmax
  split
  · rfl
  · rw [List.map_map, List.map_map]
    rfl

theorem nucleus_sublist (share sum : Float32) (items : List Scored) :
    (nucleus share sum items).Sublist items := by
  induction items generalizing sum with
  | nil => exact List.Sublist.refl []
  | cons item rest ih =>
    obtain ⟨place, weight⟩ := item
    rw [nucleus]
    -- The nucleus either stops at this candidate or takes it and goes on.
    split_ifs
    · exact List.Sublist.cons_cons _ (List.nil_sublist rest)
    · exact List.Sublist.cons_cons _ (ih _)

/-- A candidate is a finite logit with its quotient by the temperature. -/
theorem exists_of_mem_tempered {temperature : Float32} {item : Scored}
    (h : item ∈ tempered temperature logits) :
    ∃ logit, logits[item.1]? = some logit ∧ logit.isFinite = true ∧
      item.2 = logit / temperature := by
  obtain ⟨⟨place, logit⟩, hmem, rfl⟩ := List.mem_map.mp h
  obtain ⟨hscored, hfinite⟩ := List.mem_filter.mp hmem
  exact ⟨logit, mem_scored.mp hscored, hfinite, rfl⟩

/-! Of the order of the candidates only the two lemmas that follow are used. -/

theorem ranked_perm (candidates : List Scored) : (ranked candidates).Perm candidates :=
  List.mergeSort_perm candidates _

/-- The candidates go from the best to the worst. -/
theorem pairwise_ranked (candidates : List Scored) :
    (ranked candidates).Pairwise fun x y => totalRank y.2 ≤ totalRank x.2 := by
  unfold ranked
  refine (List.pairwise_mergeSort ?_ ?_ candidates).imp fun h => of_decide_eq_true h
  · intro x y z hxy hyz
    simp only [decide_eq_true_eq] at hxy hyz ⊢
    omega
  · intro x y
    simp only [Bool.or_eq_true, decide_eq_true_eq]
    omega

theorem mem_tempered_of_mem_keepTop {k : Nat} {temperature : Float32} {item : Scored}
    (h : item ∈ keepTop k (ranked (tempered temperature logits))) :
    item ∈ tempered temperature logits := by
  have hranked : item ∈ ranked (tempered temperature logits) := by
    unfold keepTop at h
    split_ifs at h
    · exact h
    · exact List.mem_of_mem_take h
  exact (ranked_perm _).mem_iff.mp hranked

/-- The candidates that take part in the draw are among the best ones. -/
theorem exists_mem_keepTop_of_mem_shortlist {config : SamplingConfig}
    (h : place ∈ (shortlist config logits).map Prod.fst) :
    ∃ score, (place, score) ∈
      keepTop config.topK (ranked (tempered config.temperature logits)) := by
  have hweights : place ∈ (softmax (keepTop config.topK
      (ranked (tempered config.temperature logits)))).map Prod.fst := by
    unfold shortlist at h
    dsimp only at h
    split_ifs at h
    · exact ((nucleus_sublist _ _ _).map Prod.fst).subset h
    · exact h
  rw [map_fst_softmax] at hweights
  obtain ⟨⟨place', score⟩, hmem, rfl⟩ := List.mem_map.mp hweights
  exact ⟨score, hmem⟩

/-- They are places of the row. -/
theorem lt_length_of_mem_shortlist {config : SamplingConfig}
    (h : place ∈ (shortlist config logits).map Prod.fst) : place < logits.length := by
  obtain ⟨score, hkept⟩ := exists_mem_keepTop_of_mem_shortlist h
  obtain ⟨logit, hlogit, -⟩ := exists_of_mem_tempered (mem_tempered_of_mem_keepTop hkept)
  exact (List.getElem?_eq_some_iff.mp hlogit).1

/-! ### Both modes -/

variable {sampler sampler' : Sampler} {generator : ChaCha.Generator}

theorem exists_mem_shortlist_of_drawWeighted
    (h : sampler.drawWeighted logits = .ok (token, generator)) :
    ∃ place ∈ (shortlist sampler.config logits).map Prod.fst, token = Token.ofPlace place ∧
      generator = sampler.generator.advance := by
  unfold drawWeighted at h
  split_ifs at h
  split at h
  · rename_i place generator' hchoice
    obtain ⟨rfl, rfl⟩ := Prod.mk.inj (Except.ok.inj h)
    obtain ⟨hmem, hadvance⟩ := mem_of_chooseWeighted hchoice
    exact ⟨place, hmem, rfl, hadvance⟩
  · cases h

/-- How a token comes about, and what it leaves. -/
theorem sample_cases (h : sampler.sample logits = .ok (token, sampler')) :
    sampler.isGreedy = true ∧ argmax logits = .ok token ∧
        sampler' = { sampler with draws := sampler.draws + 1 } ∨
      sampler.isGreedy = false ∧ ∃ generator,
        sampler.drawWeighted logits = .ok (token, generator) ∧
          sampler' = { sampler with generator, draws := sampler.draws + 1 } := by
  unfold sample at h
  split_ifs at h with hgreedy
  · split at h
    · rename_i token' hbest
      obtain ⟨rfl, rfl⟩ := Prod.mk.inj (Except.ok.inj h)
      exact .inl ⟨hgreedy, hbest, rfl⟩
    · cases h
  · split at h
    · rename_i token' generator hdraw
      obtain ⟨rfl, rfl⟩ := Prod.mk.inj (Except.ok.inj h)
      exact .inr ⟨Bool.eq_false_iff.mpr hgreedy, generator, hdraw, rfl⟩
    · cases h

/-- **A sampled token is one that the row has a logit for.** -/
theorem lt_length_of_sample (h : sampler.sample logits = .ok (token, sampler')) :
    token < logits.length := by
  obtain ⟨-, hbest, -⟩ | ⟨-, generator, hdraw, -⟩ := sample_cases h
  · exact lt_length_of_argmax hbest
  · obtain ⟨place, hmem, rfl, -⟩ := exists_mem_shortlist_of_drawWeighted hdraw
    exact Nat.lt_of_le_of_lt (Token.ofPlace_le place) (lt_length_of_mem_shortlist hmem)

/-- A sampler that gives a token has drawn once more. -/
theorem draws_of_sample (h : sampler.sample logits = .ok (token, sampler')) :
    sampler'.draws = sampler.draws + 1 := by
  obtain ⟨-, -, rfl⟩ | ⟨-, generator, -, rfl⟩ := sample_cases h <;> rfl

end Sampler

end Turnwise
