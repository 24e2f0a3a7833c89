import Turnwise.Proofs.Number.Arithmetic
import Turnwise.Proofs.Sampler.Attempt

/-!
# When a sampler finds a token

Which rows a sampler refuses, in either mode, and how it words the refusal.

* The greedy mode sets aside what is not a number, takes the best of the rest and then asks whether
  it is finite. Infinity is above every finite logit, so a row with infinity in it is refused
  however many finite logits it has (`exists_argmax_iff`).
* The distribution mode sets aside all that is not finite and divides the rest by the temperature.
  If the best quotient is finite, its weight is one and no weight is above it. So the weights have a
  finite positive sum, the best candidate keeps a positive share, and the draw has nothing to refuse
  (`softmaxBy_of_isFinite`). If the best quotient is infinite, its distance from itself is not a
  number, and the draw refuses the weights (`softmaxBy_of_not_isFinite`).

`Float32.exp` has no definition in the logic. What a draw needs of it is `IsExponential`, so the
distribution mode is looked at for any function that has these properties.
-/

namespace Turnwise.Sampler

open Single

variable {exp : Float32 → Float32} {logits : Logits} {items : List Scored} {sampler : Sampler}

/-! ### Any exponential function -/

/-- What a draw relies on in the exponential function. -/
structure IsExponential (exp : Float32 → Float32) : Prop where
  nan : ∀ x, x.isNaN = true → (exp x).isNaN = true
  zero : exp 0 = 1
  nonneg : ∀ x ≤ 0, 0 ≤ exp x
  le_one : ∀ x ≤ 0, exp x ≤ 1

def softmaxBy (exp : Float32 → Float32) : List Scored → List Scored
  | [] => []
  | candidates@((_, top) :: _) =>
      let weights := candidates.map fun (place, score) => (place, exp (score - top))
      let total := runningSum 0 weights
      weights.map fun (place, weight) => (place, weight / total)

def shortlistBy (exp : Float32 → Float32) (config : SamplingConfig) (logits : Logits) :
    List Scored :=
  let weights := softmaxBy exp (keepTop config.topK (ranked (tempered config.temperature logits)))
  if config.topP < 1 then nucleus config.topP 0 weights else weights

def drawWeightedBy (exp : Float32 → Float32) (sampler : Sampler) (logits : Logits) :
    Except Error (Token × ChaCha.Generator) :=
  if (tempered sampler.config.temperature logits).isEmpty then .error nothingToSample
  else
    match chooseWeighted sampler.generator (shortlistBy exp sampler.config logits) with
    | .ok (place, generator) => .ok (Token.ofPlace place, generator)
    | .error refusal => .error (.sampling s!"invalid distribution: {refusal.message}")

/-- `sample` with a given exponential function. -/
def sampleBy (exp : Float32 → Float32) (sampler : Sampler) (logits : Logits) :
    Except Error (Token × Sampler) :=
  if sampler.isGreedy then
    match argmax logits with
    | .ok token => .ok (token, { sampler with draws := sampler.draws + 1 })
    | .error e => .error e
  else
    match drawWeightedBy exp sampler logits with
    | .ok (token, generator) =>
        .ok (token, { sampler with generator, draws := sampler.draws + 1 })
    | .error e => .error e

theorem sampleBy_exp : sampleBy Float32.exp = sample := rfl

/-! ### Rows -/

theorem exists_mem_scored {x : Float32} (h : x ∈ logits) : ∃ place, (place, x) ∈ scored logits := by
  obtain ⟨place, hplace⟩ := List.mem_iff_getElem?.mp h
  exact ⟨place, mem_scored.mpr hplace⟩

theorem mem_of_mem_scored {item : Scored} (h : item ∈ scored logits) : item.2 ∈ logits :=
  List.mem_of_getElem? (mem_scored.mp h)

theorem mem_tempered {temperature x : Float32} {place : Nat} (h : (place, x) ∈ scored logits)
    (hfinite : x.isFinite = true) : (place, x / temperature) ∈ tempered temperature logits :=
  List.mem_map.mpr ⟨(place, x), List.mem_filter.mpr ⟨h, hfinite⟩, rfl⟩

theorem isEmpty_tempered {temperature : Float32} :
    (tempered temperature logits).isEmpty = true ↔ ∀ x ∈ logits, x.isFinite = false := by
  rw [tempered, List.isEmpty_iff, List.map_eq_nil_iff, List.filter_eq_nil_iff]
  constructor
  · intro h x hx
    obtain ⟨place, hmem⟩ := exists_mem_scored hx
    exact eq_false_of_ne_true (h (place, x) hmem)
  · intro h item hitem
    exact ne_true_of_eq_false (h item.2 (mem_of_mem_scored hitem))

/-! ### Greedy mode -/

theorem eq_nothingToSample {e : Error} (h : argmax logits = .error e) : e = nothingToSample := by
  unfold argmax at h
  split at h
  · split_ifs at h
    exact (Except.error.inj h).symm
  · exact (Except.error.inj h).symm

/-- **The greedy mode** needs a finite logit and no infinite one above it. -/
theorem exists_argmax_iff :
    (∃ token, argmax logits = .ok token) ↔
      (∃ x ∈ logits, x.isFinite = true) ∧ infinity ∉ logits := by
  constructor
  · rintro ⟨token, htoken⟩
    obtain ⟨place, logit, -, hlogit, hfinite, hbest⟩ := exists_of_argmax htoken
    refine ⟨⟨logit, List.mem_of_getElem? hlogit, hfinite⟩, fun hmem => ?_⟩
    obtain ⟨place', hplace'⟩ := List.mem_iff_getElem?.mp hmem
    have hrank := (hbest place' infinity hplace' (by rfl)).1
    have hbelow := (isFinite_iff.mp hfinite).2
    rw [totalRank_infinity] at hrank
    omega
  · rintro ⟨⟨x, hx, hfinite⟩, hinfinity⟩
    obtain ⟨place, hplace⟩ := exists_mem_scored hx
    have hcounted : (place, x) ∈ (scored logits).filter fun item => !item.2.isNaN :=
      List.mem_filter.mpr ⟨hplace, by rw [isNaN_of_isFinite hfinite]; rfl⟩
    unfold argmax
    rcases hbest : best? ((scored logits).filter fun item => !item.2.isNaN) with _ | ⟨best, logit⟩
    · rcases hitems : (scored logits).filter fun item => !item.2.isNaN with _ | _
      · rw [hitems] at hcounted
        cases hcounted
      · rw [hitems] at hbest
        cases hbest
    · have hmem := List.mem_filter.mp (best?_mem hbest)
      have hnumber : logit.isNaN = false := by simpa using hmem.2
      -- The best logit is not below a finite one, and above the finite ones is only infinity.
      have hatMost := atMost_of_best? ((pairwise_scored logits).filter _) hbest _ hcounted
      have hle : totalRank x ≤ totalRank logit := by
        rcases hatMost with hlt | ⟨heq, -⟩
        · exact Int.le_of_lt hlt
        · exact Int.le_of_eq heq
      have habove := (isFinite_iff.mp hfinite).1
      have hlogit : logit.isFinite = true := by
        refine isFinite_iff.mpr ⟨by omega, ?_⟩
        by_contra hge
        refine hinfinity ?_
        rw [← eq_infinity_of_le hnumber (Int.not_lt.mp hge)]
        exact mem_of_mem_scored hmem.1
      exact ⟨Token.ofPlace best, if_pos hlogit⟩

/-! ### Weights -/

section Weights

variable {α : Type} {list : List (α × Float32)} {sum : Float32} {generator : ChaCha.Generator}

theorem runningSum_pos (hsum : 0 < sum) (hlist : ∀ item ∈ list, 0 ≤ item.2) :
    0 < runningSum sum list := by
  induction list generalizing sum with
  | nil => exact hsum
  | cons item list ih =>
    obtain ⟨hitem, hlist⟩ := List.forall_mem_cons.mp hlist
    exact ih (Single.add_pos hsum hitem) hlist

theorem runningSum_le (hsum : 0 < sum) (hlimit : sum ≤ weightLimit)
    (hlist : ∀ item ∈ list, 0 ≤ item.2 ∧ item.2 ≤ 1) : runningSum sum list ≤ weightLimit := by
  induction list generalizing sum with
  | nil => exact hlimit
  | cons item list ih =>
    obtain ⟨⟨hnonneg, hone⟩, hlist⟩ := List.forall_mem_cons.mp hlist
    exact ih (Single.add_pos hsum hnonneg) (add_le_weightLimit hsum hlimit hnonneg hone) hlist

/-- A choice is made if the first weight is positive and none is below zero. -/
theorem exists_chooseWeighted {item : α} {weight : Float32} (hpos : 0 < weight)
    (hall : ∀ x ∈ (item, weight) :: list, 0 ≤ x.2) :
    ∃ choice, chooseWeighted generator ((item, weight) :: list) = .ok choice := by
  have hvalid : ((item, weight) :: list).all (fun item => 0 ≤ item.2) = true :=
    List.all_eq_true.mpr fun x hx => decide_eq_true (hall x hx)
  have htotal : (runningSum weight list == 0) = false :=
    beq_zero_of_pos (runningSum_pos hpos (List.forall_mem_cons.mp hall).2)
  rw [chooseWeighted, hvalid]
  dsimp only
  rw [htotal]
  exact ⟨_, rfl⟩

theorem chooseWeighted_of_isNaN {item : α} {weight : Float32} (h : weight.isNaN = true) :
    chooseWeighted generator ((item, weight) :: list) = .error .invalidWeight := by
  have hinvalid : ((item, weight) :: list).all (fun item => 0 ≤ item.2) = false := by
    rw [List.all_cons, decide_eq_false, Bool.false_and]
    intro hnonneg
    rw [(isNaN_of_le hnonneg).2] at h
    cases h
  rw [chooseWeighted, hinvalid]
  rfl

end Weights

/-! ### Distribution mode -/

section Softmax

variable {top : Float32} {rest : List Scored}

/-- The first of the weights is that of the first candidate. -/
theorem softmaxBy_cons (exp : Float32 → Float32) (place : Nat) (top : Float32)
    (rest : List Scored) :
    ∃ total rest', total = runningSum (0 + exp (top - top))
        (rest.map fun (place, score) => (place, exp (score - top))) ∧
      rest' = rest.map (fun (place, score) => (place, exp (score - top) / total)) ∧
      softmaxBy exp ((place, top) :: rest) = (place, exp (top - top) / total) :: rest' := by
  refine ⟨_, _, rfl, rfl, ?_⟩
  rw [softmaxBy, List.map_cons, List.map_cons, List.map_map]
  rfl

/-- **The weights of candidates of which the best is finite.** -/
theorem softmaxBy_of_isFinite (place : Nat) (hexp : IsExponential exp)
    (htop : top.isFinite = true)
    (hrest : ∀ item ∈ rest, item.2.isNaN = false ∧ totalRank item.2 ≤ totalRank top) :
    ∃ weight rest', softmaxBy exp ((place, top) :: rest) = (place, weight) :: rest' ∧
      0 < weight ∧ ∀ item ∈ rest', 0 ≤ item.2 := by
  obtain ⟨total, rest', htotal, hrest', hsoftmax⟩ := softmaxBy_cons exp place top rest
  have hone : exp (top - top) = 1 := by rw [sub_self_of_isFinite htop, hexp.zero]
  have hstart : (0 : Float32) + 1 = 1 := by rfl
  have hweights : ∀ item ∈ rest.map (fun (place, score) => (place, exp (score - top))),
      0 ≤ item.2 ∧ item.2 ≤ 1 := by
    intro item hitem
    obtain ⟨⟨place, score⟩, hmem, rfl⟩ := List.mem_map.mp hitem
    obtain ⟨hnumber, hbelow⟩ := hrest _ hmem
    have hdistance := sub_nonpos hnumber htop hbelow
    exact ⟨hexp.nonneg _ hdistance, hexp.le_one _ hdistance⟩
  rw [hone, hstart] at htotal
  have hpos : 0 < total :=
    htotal ▸ runningSum_pos (by decide +kernel) fun item hitem => (hweights item hitem).1
  have hfinite : total.isFinite = true := isFinite_of_le_weightLimit hpos
    (htotal ▸ runningSum_le (by decide +kernel) (by decide +kernel) hweights)
  refine ⟨_, rest', hsoftmax, ?_, ?_⟩
  · rw [hone]
    exact one_div_pos hpos hfinite
  · intro item hitem
    rw [hrest'] at hitem
    obtain ⟨⟨place, score⟩, hmem, rfl⟩ := List.mem_map.mp hitem
    have hweight := hweights _ (List.mem_map.mpr ⟨_, hmem, rfl⟩)
    exact div_nonneg hweight.1 hpos hfinite

theorem softmaxBy_of_not_isFinite (place : Nat) (rest : List Scored) (hexp : IsExponential exp)
    (htop : top.isFinite = false) :
    ∃ weight rest', softmaxBy exp ((place, top) :: rest) = (place, weight) :: rest' ∧
      weight.isNaN = true := by
  obtain ⟨total, rest', -, -, hsoftmax⟩ := softmaxBy_cons exp place top rest
  exact ⟨_, rest', hsoftmax, isNaN_div (hexp.nan _ (isNaN_sub_self htop)) total⟩

end Softmax

/-- The nucleus keeps the first candidate. -/
theorem exists_nucleus_eq (share sum : Float32) (first : Scored) (rest : List Scored) :
    ∃ rest', nucleus share sum (first :: rest) = first :: rest' ∧ rest'.Sublist rest := by
  obtain ⟨place, weight⟩ := first
  rw [nucleus]
  split_ifs
  · exact ⟨[], rfl, List.nil_sublist rest⟩
  · exact ⟨_, rfl, nucleus_sublist _ _ rest⟩

/-- So does the shortlist. -/
theorem exists_shortlistBy_eq {config : SamplingConfig} {first : Scored} {rest : List Scored}
    (h : softmaxBy exp (keepTop config.topK (ranked (tempered config.temperature logits))) =
      first :: rest) :
    ∃ rest', shortlistBy exp config logits = first :: rest' ∧ rest'.Sublist rest := by
  unfold shortlistBy
  dsimp only
  rw [h]
  split_ifs
  · exact exists_nucleus_eq config.topP 0 first rest
  · exact ⟨rest, rfl, List.Sublist.refl rest⟩

section Draw

variable {k place : Nat} {temperature top : Float32} {rest : List Scored}

/-- No candidate is above the first one that is kept. -/
theorem totalRank_le_of_keepTop (h : keepTop k (ranked items) = (place, top) :: rest)
    {item : Scored} (hitem : item ∈ items) : totalRank item.2 ≤ totalRank top := by
  obtain ⟨rest', hranked⟩ : ∃ rest', ranked items = (place, top) :: rest' := by
    unfold keepTop at h
    split_ifs at h with hk
    · exact ⟨rest, h⟩
    · rcases hlist : ranked items with _ | ⟨first, rest'⟩
      · rw [hlist, List.take_nil] at h
        cases h
      · obtain ⟨k, rfl⟩ := Nat.exists_eq_succ_of_ne_zero hk
        rw [hlist, List.take_succ_cons] at h
        exact ⟨rest', by rw [(List.cons.inj h).1]⟩
  have hmem : item ∈ ranked items := (ranked_perm items).mem_iff.mpr hitem
  have hsorted := pairwise_ranked items
  rw [hranked] at hmem hsorted
  rcases List.mem_cons.mp hmem with rfl | hmem
  · exact Int.le_refl _
  · exact (List.pairwise_cons.mp hsorted).1 item hmem

/-- Some finite logit has a finite quotient by the temperature, and none has an infinite one above
it. -/
def HasBestQuotient (temperature : Float32) (logits : Logits) : Prop :=
  (∃ x ∈ logits, x.isFinite = true ∧ (x / temperature).isFinite = true) ∧
    ∀ x ∈ logits, x.isFinite = true → x / temperature ≠ infinity

theorem isFinite_top_iff (hpos : 0 < temperature) (hfinite : temperature.isFinite = true)
    (h : keepTop k (ranked (tempered temperature logits)) = (place, top) :: rest) :
    top.isFinite = true ↔ HasBestQuotient temperature logits := by
  have hmem : (place, top) ∈ tempered temperature logits :=
    mem_tempered_of_mem_keepTop (h ▸ List.mem_cons_self)
  obtain ⟨logit, hlogit, hlogitFinite, htop⟩ := exists_of_mem_tempered hmem
  dsimp only at htop
  have hbest : ∀ x ∈ logits, x.isFinite = true → totalRank (x / temperature) ≤ totalRank top := by
    intro x hx hxFinite
    obtain ⟨place', hplace'⟩ := exists_mem_scored hx
    -- Named first: the pair has to be taken apart before the ranks are compared.
    have hle := totalRank_le_of_keepTop h (mem_tempered hplace' hxFinite)
    exact hle
  have hnumber : top.isNaN = false := by
    rw [htop]
    exact isNaN_div_of_isFinite hlogitFinite hpos hfinite
  constructor
  · intro htopFinite
    refine ⟨⟨logit, List.mem_of_getElem? hlogit, hlogitFinite, ?_⟩, ?_⟩
    · rwa [← htop]
    intro x hx hxFinite hinfinity
    have hle := hbest x hx hxFinite
    have hbelow := (isFinite_iff.mp htopFinite).2
    rw [hinfinity, totalRank_infinity] at hle
    omega
  · rintro ⟨⟨x, hx, hxFinite, hquotient⟩, hnone⟩
    have hle := hbest x hx hxFinite
    have habove := (isFinite_iff.mp hquotient).1
    refine isFinite_iff.mpr ⟨by omega, ?_⟩
    by_contra hge
    refine hnone logit (List.mem_of_getElem? hlogit) hlogitFinite ?_
    exact htop.symm.trans (eq_infinity_of_le hnumber (Int.not_lt.mp hge))

theorem mem_tempered_of_mem_rest (h : keepTop k (ranked (tempered temperature logits)) =
    (place, top) :: rest) {item : Scored} (hitem : item ∈ rest) :
    item ∈ tempered temperature logits :=
  mem_tempered_of_mem_keepTop (h ▸ List.mem_cons_of_mem _ hitem)

end Draw

section Outcome

variable {temperature : Float32}

/-- The failure of a draw whose weights are not numbers. -/
def invalidDistribution : Error :=
  .sampling "invalid distribution: A weight is invalid in distribution"

/-- **The distribution mode** sets aside what is not finite, and then needs a finite best
quotient. -/
theorem drawWeightedBy_cases (logits : Logits) (hexp : IsExponential exp)
    (hpos : 0 < sampler.config.temperature)
    (hfinite : sampler.config.temperature.isFinite = true) :
    (∀ x ∈ logits, x.isFinite = false) ∧
        drawWeightedBy exp sampler logits = .error nothingToSample ∨
      (∃ x ∈ logits, x.isFinite = true) ∧
        (HasBestQuotient sampler.config.temperature logits ∧
            (∃ choice, drawWeightedBy exp sampler logits = .ok choice) ∨
          ¬ HasBestQuotient sampler.config.temperature logits ∧
            drawWeightedBy exp sampler logits = .error invalidDistribution) := by
  unfold drawWeightedBy
  by_cases hempty : (tempered sampler.config.temperature logits).isEmpty = true
  · rw [if_pos hempty]
    exact .inl ⟨isEmpty_tempered.mp hempty, rfl⟩
  · rw [if_neg hempty]
    have hsome : ∃ x ∈ logits, x.isFinite = true := by
      by_contra hnone
      exact hempty (isEmpty_tempered.mpr fun x hx => eq_false_of_ne_true fun h => hnone ⟨x, hx, h⟩)
    -- Whether the weights are valid depends on the first score only, which is the greatest.
    obtain ⟨⟨place, top⟩, rest, hkept⟩ := exists_keepTop_eq (k := sampler.config.topK)
      (fun hnil => hempty (List.isEmpty_iff.mpr hnil))
    refine .inr ⟨hsome, ?_⟩
    rw [← isFinite_top_iff hpos hfinite hkept]
    cases htop : top.isFinite with
    | true =>
      have hrest : ∀ item ∈ rest, item.2.isNaN = false ∧ totalRank item.2 ≤ totalRank top := by
        intro item hitem
        have hmem := mem_tempered_of_mem_rest hkept hitem
        obtain ⟨logit, -, hlogit, hscore⟩ := exists_of_mem_tempered hmem
        refine ⟨?_, totalRank_le_of_keepTop hkept hmem⟩
        rw [hscore]
        exact isNaN_div_of_isFinite hlogit hpos hfinite
      obtain ⟨weight, weights, hsoftmax, hweight, hweights⟩ :=
        softmaxBy_of_isFinite place hexp htop hrest
      obtain ⟨weights', hshortlist, hsublist⟩ := exists_shortlistBy_eq (hkept ▸ hsoftmax)
      have hall : ∀ item ∈ (place, weight) :: weights', 0 ≤ item.2 := by
        intro item hitem
        rcases List.mem_cons.mp hitem with rfl | hitem
        · exact le_of_pos hweight
        · exact hweights item (hsublist.subset hitem)
      obtain ⟨⟨place', generator⟩, hchoice⟩ := exists_chooseWeighted hweight hall
      rw [hshortlist, hchoice]
      exact .inl ⟨rfl, (Token.ofPlace place', generator), rfl⟩
    -- An infinite first score makes its own weight NaN, and with it the sum.
    | false =>
      obtain ⟨weight, weights, hsoftmax, hweight⟩ :=
        softmaxBy_of_not_isFinite place rest hexp htop
      obtain ⟨weights', hshortlist, -⟩ := exists_shortlistBy_eq (hkept ▸ hsoftmax)
      rw [hshortlist, chooseWeighted_of_isNaN hweight]
      exact .inr ⟨Bool.false_ne_true, rfl⟩

end Outcome

/-! ### Both modes -/

theorem isFinite_of_validate {config : SamplingConfig} (h : config.validate = .ok ()) :
    config.temperature.isFinite = true := by
  by_contra hinfinite
  have hfalse : config.temperature.isFinite = false := eq_false_of_ne_true hinfinite
  rw [SamplingConfig.validate, hfalse] at h
  cases h

theorem exists_sampleBy_iff :
    (∃ token sampler', sampleBy exp sampler logits = .ok (token, sampler')) ↔
      if sampler.config.temperature ≤ 0 then ∃ token, argmax logits = .ok token
      else ∃ choice, drawWeightedBy exp sampler logits = .ok choice := by
  unfold sampleBy isGreedy
  by_cases hcold : sampler.config.temperature ≤ 0
  · rw [if_pos (decide_eq_true hcold), if_pos hcold]
    rcases argmax logits with e | token
    · exact iff_of_false (fun ⟨_, _, h⟩ => by cases h) (fun ⟨_, h⟩ => by cases h)
    · exact iff_of_true ⟨token, _, rfl⟩ ⟨token, rfl⟩
  · rw [if_neg (ne_true_of_eq_false (decide_eq_false hcold)), if_neg hcold]
    rcases drawWeightedBy exp sampler logits with e | ⟨token, generator⟩
    · exact iff_of_false (fun ⟨_, _, h⟩ => by cases h) (fun ⟨_, h⟩ => by cases h)
    · exact iff_of_true ⟨token, _, rfl⟩ ⟨_, rfl⟩

theorem error_of_sampleBy {e : Error} (h : sampleBy exp sampler logits = .error e) :
    if sampler.config.temperature ≤ 0 then argmax logits = .error e
    else drawWeightedBy exp sampler logits = .error e := by
  unfold sampleBy isGreedy at h
  by_cases hcold : sampler.config.temperature ≤ 0
  · rw [if_pos (decide_eq_true hcold)] at h
    rw [if_pos hcold]
    rcases hbest : argmax logits with e' | token <;> rw [hbest] at h
    · rw [Except.error.inj h]
    · cases h
  · rw [if_neg (ne_true_of_eq_false (decide_eq_false hcold))] at h
    rw [if_neg hcold]
    rcases hdraw : drawWeightedBy exp sampler logits with e' | ⟨token, generator⟩ <;>
      rw [hdraw] at h
    · rw [Except.error.inj h]
    · cases h

/-- **Which rows a sampler refuses.** This is so for every valid configuration, every state of the
generator and every row. In the greedy mode there is a token exactly if the row has a finite logit
and infinity is not in it. In the distribution mode there is one exactly if some finite logit has a
finite quotient by the temperature and none has an infinite one above it. Both modes refuse a row
without finite logits because there is nothing to sample from. The greedy mode says so of every row
that it refuses; the distribution mode says of the others that their weights are invalid. -/
theorem sample_outcome (hexp : IsExponential exp) (hvalid : sampler.config.validate = .ok ())
    (logits : Logits) :
    sampler.sample logits = sampleBy Float32.exp sampler logits ∧
      ((∃ token sampler', sampleBy exp sampler logits = .ok (token, sampler')) ↔
        if sampler.config.temperature ≤ 0 then
          (∃ x ∈ logits, x.isFinite = true) ∧ infinity ∉ logits
        else HasBestQuotient sampler.config.temperature logits) ∧
      ∀ e, sampleBy exp sampler logits = .error e →
        e = if sampler.config.temperature ≤ 0 ∨ ∀ x ∈ logits, x.isFinite = false then
          nothingToSample else invalidDistribution := by
  refine ⟨by rw [sampleBy_exp], ?_⟩
  rw [exists_sampleBy_iff]
  by_cases hcold : sampler.config.temperature ≤ 0
  · rw [if_pos hcold, if_pos hcold]
    refine ⟨exists_argmax_iff, fun e herror => ?_⟩
    have hbest := error_of_sampleBy herror
    rw [if_pos hcold] at hbest
    rw [if_pos (.inl hcold)]
    exact eq_nothingToSample hbest
  · rw [if_neg hcold, if_neg hcold]
    have hfinite := isFinite_of_validate hvalid
    have hpos := pos_of_not_le_zero (isNaN_of_isFinite hfinite) hcold
    -- Above zero an error of `sampleBy` is one of the distribution mode.
    have herrors : ∀ e, sampleBy exp sampler logits = .error e →
        drawWeightedBy exp sampler logits = .error e := by
      intro e herror
      have hdraw := error_of_sampleBy herror
      rwa [if_neg hcold] at hdraw
    rcases drawWeightedBy_cases logits hexp hpos hfinite with
      ⟨hnone, hdraw⟩ | ⟨⟨x, hx, hsome⟩, ⟨hbest, choice, hdraw⟩ | ⟨hbest, hdraw⟩⟩ <;>
      rw [hdraw] at herrors ⊢
    · refine ⟨iff_of_false (fun ⟨_, h⟩ => by cases h) ?_, fun e herror => ?_⟩
      · rintro ⟨⟨x, hx, hsome, -⟩, -⟩
        exact absurd hsome (ne_true_of_eq_false (hnone x hx))
      · rw [if_pos (.inr hnone)]
        exact (Except.error.inj (herrors e herror)).symm
    · exact ⟨iff_of_true ⟨choice, rfl⟩ hbest, fun e herror => by cases herrors e herror⟩
    · refine ⟨iff_of_false (fun ⟨_, h⟩ => by cases h) hbest, fun e herror => ?_⟩
      rw [if_neg]
      · exact (Except.error.inj (herrors e herror)).symm
      · rintro (h | hnone)
        · exact hcold h
        · exact absurd hsome (ne_true_of_eq_false (hnone x hx))

/-- An exponential function that is right at zero. -/
theorem isExponential_flat : IsExponential fun x => if x.isNaN then x else 1 := by
  have hone : ∀ x : Float32, x ≤ 0 → (if x.isNaN then x else 1) = 1 := by
    intro x hx
    rw [(isNaN_of_le hx).1]
    rfl
  refine ⟨fun x h => ?_, by decide +kernel, fun x hx => ?_, fun x hx => ?_⟩
  · rw [if_pos h]
    exact h
  · rw [hone x hx]
    decide +kernel
  · rw [hone x hx]
    decide +kernel

/-- At temperature one a finite logit beside infinity is found. -/
theorem sample_outcome_one :
    ∃ token sampler', sampleBy (fun x => if x.isNaN then x else 1)
      (ofConfig { temperature := 1 }) [infinity, 1] = .ok (token, sampler') := by
  refine (sample_outcome isExponential_flat (by decide +kernel) [infinity, 1]).2.1.mpr ?_
  rw [if_neg (by decide +kernel)]
  refine ⟨⟨1, List.mem_cons_of_mem _ List.mem_cons_self, by decide +kernel, by decide +kernel⟩, ?_⟩
  decide +kernel

/-- In the greedy mode it is not. -/
theorem sample_infinity_greedy :
    (ofConfig {}).config.validate = .ok () ∧ (1 : Float32).isFinite = true ∧
      (ofConfig {}).sample [infinity, 1] = .error nothingToSample := by
  decide +kernel

end Turnwise.Sampler
