import Turnwise.Proofs.Sampler

/-!
# The best places of a row

Both modes of a sampler prefer places with higher logits, in the total order of all 32-bit values.

* The greedy mode takes the last of the best ones (`exists_of_argmax`). The candidates are looked at
  one by one, and the one that is kept is never behind any of those before it (`atMost_foldl`).
* The distribution mode sorts the candidates and keeps the first `k`. In a sorted list only what
  stands before an item can rank above it, so fewer than `k` candidates rank above one that is kept
  (`countP_lt_of_mem_keepTop`).
-/

namespace Turnwise.Sampler

variable {logits : Logits} {items : List Scored} {place : Nat} {token : Token}
variable {temperature : Float32}

/-! ### Rows -/

theorem map_snd_scored (logits : Logits) : (scored logits).map Prod.snd = logits := by
  rw [scored, List.map_map]
  exact List.zipIdx_map_fst 0 logits

/-- The places of a row are numbered one after the other. -/
theorem pairwise_scored (logits : Logits) : (scored logits).Pairwise fun x y => x.1 < y.1 := by
  have hplaces : (scored logits).map Prod.fst = List.range' 0 logits.length := by
    rw [scored, List.map_map]
    exact List.zipIdx_map_snd 0 logits
  rw [← List.pairwise_map (f := Prod.fst) (R := (· < ·)), hplaces]
  exact List.pairwise_lt_range'

/-! ### Greedy mode -/

/-- The first place is ranked below the second, or both are level and the second is no earlier. -/
def AtMost (x y : Scored) : Prop :=
  totalRank x.2 < totalRank y.2 ∨ totalRank x.2 = totalRank y.2 ∧ x.1 ≤ y.1

theorem AtMost.refl (x : Scored) : AtMost x x := .inr ⟨rfl, Nat.le_refl _⟩

theorem AtMost.trans {x y z : Scored} (h : AtMost x y) (h' : AtMost y z) : AtMost x z := by
  rcases h with hlt | ⟨heq, hle⟩ <;> rcases h' with hlt' | ⟨heq', hle'⟩
  · exact .inl (Int.lt_trans hlt hlt')
  · exact .inl (heq' ▸ hlt)
  · exact .inl (heq ▸ hlt')
  · exact .inr ⟨heq.trans heq', Nat.le_trans hle hle'⟩

/-- The better of two places is one of them, and neither is above it. -/
theorem better_spec {best next : Scored} (h : best.1 < next.1) :
    (better best next = best ∨ better best next = next) ∧
      AtMost best (better best next) ∧ AtMost next (better best next) := by
  unfold better
  split_ifs with hle
  · exact ⟨.inr rfl, (Int.lt_or_eq_of_le hle).imp_right fun heq => ⟨heq, Nat.le_of_lt h⟩,
      .refl next⟩
  · exact ⟨.inl rfl, .refl best, .inl (Int.lt_of_not_ge hle)⟩

/-- No place is above the one that is kept in the end. -/
theorem atMost_foldl {first : Scored} {rest : List Scored}
    (h : (first :: rest).Pairwise fun x y => x.1 < y.1) :
    ∀ item ∈ first :: rest, AtMost item (rest.foldl better first) := by
  induction rest generalizing first with
  | nil =>
    intro item hitem
    rw [List.mem_singleton.mp hitem]
    exact .refl first
  | cons next rest ih =>
    obtain ⟨hfirst, hrest⟩ := List.pairwise_cons.mp h
    obtain ⟨hnext, hlater⟩ := List.pairwise_cons.mp hrest
    obtain ⟨hone, hbest, hbetter⟩ := better_spec (hfirst next List.mem_cons_self)
    -- Whichever is kept, the places to come are later than it.
    have hkept : (better first next :: rest).Pairwise fun x y => x.1 < y.1 := by
      refine List.pairwise_cons.mpr ⟨fun item hitem => ?_, hlater⟩
      rcases hone with heq | heq <;> rw [heq]
      · exact hfirst item (List.mem_cons_of_mem next hitem)
      · exact hnext item hitem
    have hall := ih hkept
    rw [List.foldl_cons]
    intro item hitem
    rcases List.mem_cons.mp hitem with rfl | hitem
    · exact hbest.trans (hall _ List.mem_cons_self)
    · rcases List.mem_cons.mp hitem with rfl | hitem
      · exact hbetter.trans (hall _ List.mem_cons_self)
      · exact hall item (List.mem_cons_of_mem _ hitem)

theorem atMost_of_best? {best : Scored} (hitems : items.Pairwise fun x y => x.1 < y.1)
    (h : best? items = some best) : ∀ item ∈ items, AtMost item best := by
  cases items with
  | nil => cases h
  | cons first rest => exact Option.some.inj h ▸ atMost_foldl hitems

/-- **The greedy token** is at a place with a finite logit. No number of the row is above this
logit, and the place is the last one that has it. -/
theorem exists_of_argmax (h : argmax logits = .ok token) :
    ∃ place logit, token = Token.ofPlace place ∧ logits[place]? = some logit ∧
      logit.isFinite = true ∧
      ∀ place' x, logits[place']? = some x → x.isNaN = false →
        totalRank x ≤ totalRank logit ∧ (totalRank x = totalRank logit → place' ≤ place) := by
  unfold argmax at h
  split at h
  · rename_i place logit hbest
    split_ifs at h with hfinite
    obtain rfl := Except.ok.inj h
    have hplace := mem_scored.mp (List.mem_of_mem_filter (best?_mem hbest))
    refine ⟨place, logit, rfl, hplace, hfinite, ?_⟩
    intro place' x hx hnumber
    have hcounted : (place', x) ∈ (scored logits).filter fun item => !item.2.isNaN :=
      List.mem_filter.mpr ⟨mem_scored.mpr hx, by rw [hnumber]; rfl⟩
    rcases atMost_of_best? ((pairwise_scored logits).filter _) hbest _ hcounted with
      hlt | ⟨heq, hle⟩
    · exact ⟨Int.le_of_lt hlt, fun heq => absurd heq (Int.ne_of_lt hlt)⟩
    · exact ⟨Int.le_of_eq heq, fun _ => hle⟩
  · cases h

example : argmax [1, 2, 2, -1] = .ok 2 := by decide +kernel

theorem best?_append_singleton {last : Scored}
    (h : ∀ item ∈ items, totalRank item.2 ≤ totalRank last.2) :
    best? (items ++ [last]) = some last := by
  cases items with
  | nil => rfl
  | cons first rest =>
    have hmem : rest.foldl better first ∈ first :: rest := best?_mem rfl
    rw [List.cons_append, best?, List.foldl_append, List.foldl_cons, List.foldl_nil, better,
      if_pos (h _ hmem)]

/-- The last place is taken if its logit is finite and none is above it. -/
theorem argmax_append_singleton {logit : Float32} (hnumber : logit.isNaN = false)
    (hfinite : logit.isFinite = true) (h : ∀ x ∈ logits, totalRank x ≤ totalRank logit) :
    argmax (logits ++ [logit]) = .ok (Token.ofPlace logits.length) := by
  have hscored : scored (logits ++ [logit]) = scored logits ++ [(logits.length, logit)] := by
    rw [scored, List.zipIdx_append, List.map_append, List.zipIdx_singleton, Nat.zero_add]
    rfl
  have hcounted : [(logits.length, logit)].filter (fun item : Scored => !item.2.isNaN) =
      [(logits.length, logit)] := List.filter_cons_of_pos (by rw [hnumber]; rfl)
  have hbest : best? ((scored logits).filter (fun item => !item.2.isNaN) ++
      [(logits.length, logit)]) = some (logits.length, logit) := by
    refine best?_append_singleton fun item hitem => h item.2 ?_
    exact List.mem_of_getElem? (mem_scored.mp (List.mem_of_mem_filter hitem))
  rw [argmax, hscored, List.filter_append, hcounted, hbest]
  exact if_pos hfinite

/-! ### Distribution mode -/

/-- In a list that goes down, only what stands before an item can be above it. -/
theorem countP_le_of_pairwise (h : items.Pairwise fun x y => totalRank y.2 ≤ totalRank x.2)
    {place : Nat} {item : Scored} (hitem : items[place]? = some item) :
    items.countP (fun x => totalRank item.2 < totalRank x.2) ≤ place := by
  induction items generalizing place with
  | nil => cases hitem
  | cons first rest ih =>
    obtain ⟨hfirst, hrest⟩ := List.pairwise_cons.mp h
    cases place with
    | zero =>
      -- Nothing stands before the first item, and nothing after it is above it.
      obtain rfl := Option.some.inj hitem
      refine Nat.le_of_eq (List.countP_eq_zero.mpr fun x hx => ?_)
      rw [decide_eq_true_eq]
      rcases List.mem_cons.mp hx with rfl | hx
      · exact Int.lt_irrefl _
      · exact Int.not_lt.mpr (hfirst x hx)
    | succ place =>
      have hcount := ih hrest hitem
      rw [List.countP_cons]
      split_ifs <;> omega

/-- Fewer than `k` candidates rank above one of the first `k`. -/
theorem countP_lt_of_mem_keepTop {k : Nat} (hk : 0 < k) {candidates : List Scored} {item : Scored}
    (h : item ∈ keepTop k (ranked candidates)) :
    candidates.countP (fun x => totalRank item.2 < totalRank x.2) < k := by
  rw [keepTop, if_neg (Nat.ne_of_gt hk)] at h
  obtain ⟨place, hplace⟩ := List.mem_iff_getElem?.mp h
  obtain ⟨hlt, -⟩ := List.getElem?_eq_some_iff.mp hplace
  rw [List.length_take] at hlt
  rw [List.getElem?_take_of_lt (by omega)] at hplace
  have hcount := countP_le_of_pairwise (pairwise_ranked candidates) hplace
  rw [(ranked_perm candidates).countP_eq] at hcount
  omega

/-- The candidates of a row can be counted in the row. -/
theorem countP_tempered (temperature : Float32) (logits : Logits) (P : Float32 → Bool) :
    (tempered temperature logits).countP (fun item => P item.2) =
      logits.countP fun logit => logit.isFinite && P (logit / temperature) := by
  conv_rhs => rw [← map_snd_scored logits]
  rw [tempered, List.countP_map, List.countP_filter, List.countP_map]
  refine List.countP_congr fun item _ => ?_
  simp only [Function.comp_apply, Bool.and_comm]

/-- **A place that can be drawn** has a finite logit, and fewer than `topK` finite logits of the row
give a higher quotient by the temperature. -/
theorem exists_of_mem_shortlist {config : SamplingConfig}
    (h : place ∈ (shortlist config logits).map Prod.fst) :
    ∃ logit, logits[place]? = some logit ∧ logit.isFinite = true ∧
      (0 < config.topK →
        logits.countP (fun x => x.isFinite &&
          totalRank (logit / config.temperature) < totalRank (x / config.temperature)) <
            config.topK) := by
  obtain ⟨score, hkept⟩ := exists_mem_keepTop_of_mem_shortlist h
  obtain ⟨logit, hlogit, hfinite, hscore⟩ :=
    exists_of_mem_tempered (mem_tempered_of_mem_keepTop hkept)
  refine ⟨logit, hlogit, hfinite, fun hk => ?_⟩
  have hcount := countP_lt_of_mem_keepTop hk hkept
  rw [countP_tempered config.temperature logits fun x => totalRank score < totalRank x] at hcount
  rw [← show score = logit / config.temperature from hscore]
  exact hcount

end Turnwise.Sampler
