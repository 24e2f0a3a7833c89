import Turnwise.Proofs.Number.Rounding

/-!
# Order and sign in 32-bit arithmetic

What a weighted choice relies on in its sums, differences and quotients, for every value that they
can be given.

* The total order of finite values is the order of their exact values (`value_le_of_place_le`), so
  the difference from a value that is not below is at most zero (`sub_nonpos`).
* A sum of something positive and something that is not negative is positive (`add_pos`). However
  many weights of at most one are added up, their sum stays finite: at `2 ^ 25` a weight is less
  than half of the last place and is lost (`add_le_weightLimit`).
* A quotient by a positive finite value keeps the sign of the dividend (`div_nonneg`), and the
  reciprocal of a positive finite value is not rounded to zero (`one_div_pos`).
-/

namespace Turnwise.Single

open Float.Model (Format UnpackedFloat)
open Float.Model.UnpackedFloat

inductive Positive : UnpackedFloat → Prop
  | infinity : Positive (.infinity .positive)
  | finite {m : Nat} {e : Int} (hm : 0 < m) : Positive (.finite .positive m e hm)

/-- Zero, with either sign, or positive. -/
inductive Nonnegative : UnpackedFloat → Prop
  | zero (s : Sign) : Nonnegative (.zero s)
  | positive {u : UnpackedFloat} (h : Positive u) : Nonnegative u

variable {u v : UnpackedFloat} {m m₁ m₂ : Nat} {e e₁ e₂ : Int} {s : Sign} {x y : Float32}

/-! ### Values -/

/-- The value of a finite shape in ticks. -/
def value : UnpackedFloat → Int
  | .finite s m e _ => s.apply (ticks m e)
  | _ => 0

theorem ticks_lt (h₁ : IsCanonical m₁ e₁) (h₂ : IsCanonical m₂ e₂) (h : e₁ < e₂) :
    ticks m₁ e₁ < ticks m₂ e₂ := by
  have hlowest := h₁.lowest
  have hfull : 2 ^ 23 ≤ m₂ := h₂.full.resolve_left (by omega)
  calc ticks m₁ e₁ < 2 ^ 24 * 2 ^ (e₁ + 149).toNat :=
        Nat.mul_lt_mul_of_pos_right h₁.lt (Nat.two_pow_pos _)
    _ = 2 ^ 23 * 2 ^ ((e₁ + 149).toNat + 1) := by rw [Nat.pow_succ 2 (e₁ + 149).toNat]; omega
    _ ≤ m₂ * 2 ^ (e₂ + 149).toNat :=
        Nat.mul_le_mul hfull (Nat.pow_le_pow_right (by decide) (by omega))

theorem ticks_le (h₁ : IsCanonical m₁ e₁) (h₂ : IsCanonical m₂ e₂)
    (h : (e₁ + 149).toNat * 2 ^ 23 + m₁ ≤ (e₂ + 149).toNat * 2 ^ 23 + m₂) :
    ticks m₁ e₁ ≤ ticks m₂ e₂ := by
  have hlt := h₂.lt
  have hlowest₁ := h₁.lowest
  have hlowest₂ := h₂.lowest
  have hfull := h₁.full
  rcases Int.lt_trichotomy e₁ e₂ with hless | rfl | hgreater
  · exact (ticks_lt h₁ h₂ hless).le
  · exact Nat.mul_le_mul_right _ (by omega)
  · omega

/-- Finite shapes stand in the total order by their values. -/
theorem value_le_of_place_le (hu : Fits u) (hv : Fits v) (hufinite : u.isFinite = true)
    (hvfinite : v.isFinite = true) (h : place u ≤ place v) : value u ≤ value v := by
  rcases u with _ | _ | s₁ | ⟨s₁, m₁, e₁, hm₁⟩
  · cases hufinite
  · cases hufinite
  · rcases v with _ | _ | s₂ | ⟨s₂, m₂, e₂, hm₂⟩
    · cases hvfinite
    · cases hvfinite
    · exact Int.le_refl _
    · cases s₁ <;> cases s₂ <;> simp only [place, signedPlace, value, Sign.apply] at h ⊢ <;> omega
  · rcases v with _ | _ | s₂ | ⟨s₂, m₂, e₂, hm₂⟩
    · cases hvfinite
    · cases hvfinite
    · cases s₁ <;> cases s₂ <;> simp only [place, signedPlace, value, Sign.apply] at h ⊢ <;> omega
    · cases s₁ <;> cases s₂ <;> simp only [place, signedPlace, value, Sign.apply] at h ⊢
      · have := ticks_le hv.1 hu.1 (by omega)
        omega
      · omega
      · omega
      · have := ticks_le hu.1 hv.1 (by omega)
        omega

/-! ### Signs -/

theorem zero_lt_iff : 0 < x ↔ Positive (shape x) := by
  rw [lt_iff, shape_zero]
  generalize shape x = u
  constructor
  · intro h
    rcases u with ⟨_ | _⟩ | _ | _ | ⟨⟨_ | _⟩, m, e, hm⟩
    · cases h
    · exact .infinity
    · cases h
    · cases h
    · cases h
    · exact .finite hm
  · intro h
    cases h <;> rfl

theorem zero_le_iff : 0 ≤ x ↔ Nonnegative (shape x) := by
  rw [le_iff, shape_zero]
  generalize shape x = u
  constructor
  · intro h
    rcases u with ⟨_ | _⟩ | _ | s | ⟨⟨_ | _⟩, m, e, hm⟩
    · cases h
    · exact .positive .infinity
    · cases h
    · exact .zero s
    · cases h
    · exact .positive (.finite hm)
  · intro h
    rcases h with _ | ⟨_ | _⟩ <;> rfl

theorem le_of_pos (h : 0 < x) : 0 ≤ x := zero_le_iff.mpr (.positive (zero_lt_iff.mp h))

theorem pos_of_not_le_zero (h : x.isNaN = false) (hx : ¬ x ≤ 0) : 0 < x := by
  rw [isNaN_eq] at h
  rw [le_iff, shape_zero] at hx
  rw [zero_lt_iff]
  generalize shape x = u at *
  rcases u with ⟨_ | _⟩ | _ | _ | ⟨⟨_ | _⟩, m, e, hm⟩
  · exact absurd rfl hx
  · exact .infinity
  · cases h
  · exact absurd rfl hx
  · exact absurd rfl hx
  · exact .finite hm

theorem beq_zero_of_pos (h : 0 < x) : (x == 0) = false := by
  rw [zero_lt_iff] at h
  rw [beq_eq, shape_zero]
  generalize shape x = u at *
  cases h <;> rfl

/-- What is not a number is not comparable. -/
theorem isNaN_of_le (h : x ≤ y) : x.isNaN = false ∧ y.isNaN = false := by
  rw [le_iff] at h
  rw [isNaN_eq, isNaN_eq]
  generalize shape x = u at *
  generalize shape y = v at *
  rcases u with _ | _ | _ | _ <;> rcases v with _ | _ | _ | _
  all_goals first | exact ⟨rfl, rfl⟩ | cases h

theorem positive_settle (hm : 0 < m) (h : IsCanonical m e) :
    Positive (settle (.finite .positive m e hm)) := by
  rcases settle_canonical h with heq | heq <;> rw [heq]
  · exact .infinity
  · exact .finite hm

theorem settle_le_zero (hm : 0 < m) (h : IsCanonical m e) :
    (settle (.finite .negative m e hm)).le (.zero .positive) = true := by
  rcases settle_canonical h with heq | heq <;> rw [heq] <;> rfl

/-! ### Places in the total order -/

/-- The value above all finite ones. -/
def infinity : Float32 := .ofBits 0x7f800000

theorem totalRank_infinity : totalRank infinity = 0x7f800000 := by decide +kernel

theorem totalRank_injective (h : totalRank x = totalRank y) : x = y := by
  have hbits : x.toBits = y.toBits := by
    have hx := x.toBits.toNat_lt
    have hy := y.toBits.toNat_lt
    unfold totalRank at h
    refine UInt32.toNat_inj.mp ?_
    dsimp only at h
    split_ifs at h <;> omega
  obtain ⟨⟨x, hx⟩⟩ := x
  obtain ⟨⟨y, hy⟩⟩ := y
  obtain rfl : x = y := hbits
  rfl

theorem isFinite_iff :
    x.isFinite = true ↔ -0x7f800001 < totalRank x ∧ totalRank x < 0x7f800000 := by
  have hfits := shape_fits x
  rw [isFinite_eq, totalRank_eq]
  generalize shape x = u at *
  rcases u with ⟨_ | _⟩ | _ | ⟨_ | _⟩ | ⟨_ | _, m, e, hm⟩
  · decide
  · decide
  · decide
  · decide
  · decide
  all_goals
    obtain ⟨⟨hlt, hlowest, -⟩, hle⟩ := hfits
    simp only [UnpackedFloat.isFinite, place, signedPlace, true_iff]
    omega

theorem isNaN_of_isFinite (h : x.isFinite = true) : x.isNaN = false := by
  rw [isFinite_eq] at h
  rw [isNaN_eq]
  rcases hx : shape x with _ | _ | _ | _ <;> rw [hx] at h
  · cases h
  · cases h
  · rfl
  · rfl

/-- A number that is not below infinity is infinity. -/
theorem eq_infinity_of_le (h : x.isNaN = false) (hle : 0x7f800000 ≤ totalRank x) :
    x = infinity := by
  refine totalRank_injective ?_
  rw [totalRank_infinity]
  rw [isNaN_eq] at h
  by_cases hfinite : x.isFinite = true
  · have := (isFinite_iff.mp hfinite).2
    omega
  · rw [isFinite_eq] at hfinite
    rw [totalRank_eq] at *
    rcases hx : shape x with ⟨_ | _⟩ | _ | _ | _ <;> rw [hx] at h hle hfinite
    · exact absurd hle (by decide)
    · rfl
    · cases h
    · exact absurd rfl hfinite
    · exact absurd rfl hfinite

/-! ### Differences -/

theorem apply_shiftLeft (s : Sign) (m : Nat) {e' : Int} (h : e' ≤ e) (hlowest : -149 ≤ e') :
    s.apply (m <<< (e - e').toNat : Nat) * (2 ^ (e' + 149).toNat : Nat) = s.apply (ticks m e) := by
  rw [← ticks_shiftLeft m (e - e').toNat e e' (by omega) hlowest, ticks,
    Int.natCast_mul]
  cases s
  · exact Int.neg_mul _ _
  · rfl

theorem normalize_of_neg {n : Int} (h : n < 0) (e : Int) (s : Sign) :
    normalize .binary32 n e s = round .binary32 .negative (-n).toNat e := by
  have hcompare : compare n 0 = .lt := Int.compare_eq_lt.mpr h
  rw [UnpackedFloat.normalize, hcompare]

theorem normalize_zero (e : Int) (s : Sign) : normalize .binary32 0 e s = .zero s := by
  have hcompare : compare (0 : Int) 0 = .eq := rfl
  rw [UnpackedFloat.normalize, hcompare]

theorem normalize_of_pos {n : Int} (h : 0 < n) (e : Int) (s : Sign) :
    normalize .binary32 n e s = round .binary32 .positive n.toNat e := by
  have hcompare : compare n 0 = .gt := Int.compare_eq_gt.mpr h
  rw [UnpackedFloat.normalize, hcompare]

/-- The exact difference decides the sign of the stored one. -/
theorem sub_finite_le_zero (s₁ s₂ : Sign) (hm₁ : 0 < m₁) (hm₂ : 0 < m₂) (h₁ : IsCanonical m₁ e₁)
    (h₂ : IsCanonical m₂ e₂) (h : s₁.apply (ticks m₁ e₁) ≤ s₂.apply (ticks m₂ e₂)) :
    (settle (sub .binary32 (.finite s₁ m₁ e₁ hm₁) (.finite s₂ m₂ e₂ hm₂))).le
      (.zero .positive) = true := by
  have hlowest : -149 ≤ min e₁ e₂ := le_min h₁.lowest h₂.lowest
  have hsub : sub .binary32 (.finite s₁ m₁ e₁ hm₁) (.finite s₂ m₂ e₂ hm₂) =
      normalize .binary32 (s₁.apply (m₁ <<< (e₁ - min e₁ e₂).toNat : Nat) -
        s₂.apply (m₂ <<< (e₂ - min e₁ e₂).toNat : Nat)) (min e₁ e₂) .positive := rfl
  have hexact := Int.sub_mul (s₁.apply (m₁ <<< (e₁ - min e₁ e₂).toNat : Nat))
    (s₂.apply (m₂ <<< (e₂ - min e₁ e₂).toNat : Nat)) (2 ^ (min e₁ e₂ + 149).toNat : Nat)
  rw [apply_shiftLeft s₁ m₁ (min_le_left e₁ e₂) hlowest,
    apply_shiftLeft s₂ m₂ (min_le_right e₁ e₂) hlowest] at hexact
  rw [hsub]
  generalize s₁.apply (m₁ <<< (e₁ - min e₁ e₂).toNat : Nat) -
    s₂.apply (m₂ <<< (e₂ - min e₁ e₂).toNat : Nat) = n at *
  have hunit : (0 : Int) < (2 ^ (min e₁ e₂ + 149).toNat : Nat) :=
    Int.natCast_pos.mpr (Nat.two_pow_pos _)
  rcases Int.lt_trichotomy n 0 with hneg | rfl | hpos
  · rw [normalize_of_neg hneg]
    obtain ⟨m, e, hm, heq, hcanonical, -⟩ :=
      round_of_pos .negative (m := (-n).toNat) (by omega) hlowest
    rw [heq]
    exact settle_le_zero hm hcanonical
  · rw [normalize_zero]
    rfl
  · have := Int.mul_pos hpos hunit
    omega

theorem sub_le_zero (hu : Fits u) (hv : Fits v) (hufinite : u.isFinite = true)
    (hvfinite : v.isFinite = true) (h : value u ≤ value v) :
    (settle (sub .binary32 u v)).le (.zero .positive) = true := by
  rcases u with _ | _ | s₁ | ⟨s₁, m₁, e₁, hm₁⟩
  · cases hufinite
  · cases hufinite
  · rcases v with _ | _ | s₂ | ⟨s₂, m₂, e₂, hm₂⟩
    · cases hvfinite
    · cases hvfinite
    · cases s₁ <;> cases s₂ <;> rfl
    · cases s₂ with
      | negative =>
        have := ticks_pos hm₂ e₂
        simp only [value, Sign.apply] at h
        omega
      | positive => exact settle_le_zero hm₂ hv.1
  · rcases v with _ | _ | s₂ | ⟨s₂, m₂, e₂, hm₂⟩
    · cases hvfinite
    · cases hvfinite
    · cases s₁ with
      | negative => exact settle_le_zero hm₁ hu.1
      | positive =>
        have := ticks_pos hm₁ e₁
        simp only [value, Sign.apply] at h
        omega
    · exact sub_finite_le_zero s₁ s₂ hm₁ hm₂ hu.1 hv.1 h

/-- **The difference from a finite value** is at most zero for every number that the total order
does not put above it. -/
theorem sub_nonpos (hx : x.isNaN = false) (hy : y.isFinite = true)
    (h : totalRank x ≤ totalRank y) : x - y ≤ 0 := by
  have hfits := shape_fits x
  have hfits' := shape_fits y
  have hbelow := (isFinite_iff.mp hy).2
  rw [totalRank_eq] at hbelow
  rw [totalRank_eq, totalRank_eq] at h
  rw [isFinite_eq] at hy
  rw [isNaN_eq] at hx
  rw [le_iff, shape_sub, shape_zero]
  generalize shape x = u at *
  generalize shape y = v at *
  by_cases hfinite : u.isFinite = true
  · exact sub_le_zero hfits hfits' hfinite hy (value_le_of_place_le hfits hfits' hfinite hy h)
  -- Of the infinities only the negative one is below a finite value.
  · rcases u with ⟨_ | _⟩ | _ | _ | _
    · rcases v with _ | _ | _ | _
      · cases hy
      · cases hy
      · simp only [sub, settle_infinity]
        rfl
      · simp only [sub, settle_infinity]
        rfl
    · have hplace : place (.infinity .positive) = 0x7f800000 := rfl
      omega
    · cases hx
    · exact absurd rfl hfinite
    · exact absurd rfl hfinite

theorem sub_self_of_isFinite (h : x.isFinite = true) : x - x = 0 := by
  have hsub : sub .binary32 (shape x) (shape x) = .zero .positive := by
    rw [isFinite_eq] at h
    rcases hx : shape x with _ | _ | s | ⟨s, m, e, hm⟩ <;> rw [hx] at h
    · cases h
    · cases h
    · cases s <;> rfl
    · simp only [sub, Int.sub_self, normalize_zero]
  exact congrArg (fun u => Float32.ofModel (.pack u)) hsub

theorem isNaN_sub_self (h : x.isFinite = false) : (x - x).isNaN = true := by
  rw [isFinite_eq] at h
  rw [isNaN_eq, shape_sub]
  rcases hx : shape x with s | _ | s | ⟨s, m, e, hm⟩ <;> rw [hx] at h
  · cases s <;> rfl
  · rfl
  · cases h
  · cases h

/-! ### Sums -/

theorem add_finite (hm₁ : 0 < m₁) (hm₂ : 0 < m₂) (h₁ : IsCanonical m₁ e₁)
    (h₂ : IsCanonical m₂ e₂) :
    ∃ m e hm, add .binary32 (.finite .positive m₁ e₁ hm₁) (.finite .positive m₂ e₂ hm₂) =
        .finite .positive m e hm ∧ IsCanonical m e ∧
      ∃ k, Rounds k (ticks m₁ e₁ + ticks m₂ e₂) (ticks m e) := by
  have hlowest : -149 ≤ min e₁ e₂ := le_min h₁.lowest h₂.lowest
  have hadd : add .binary32 (.finite .positive m₁ e₁ hm₁) (.finite .positive m₂ e₂ hm₂) =
      normalize .binary32 ((m₁ <<< (e₁ - min e₁ e₂).toNat : Nat) +
        (m₂ <<< (e₂ - min e₁ e₂).toNat : Nat)) (min e₁ e₂) .positive := rfl
  have hpos := Nat.add_pos_left (shiftLeft_pos hm₁ (e₁ - min e₁ e₂).toNat)
    (m₂ <<< (e₂ - min e₁ e₂).toNat)
  have hticks : ticks (m₁ <<< (e₁ - min e₁ e₂).toNat + m₂ <<< (e₂ - min e₁ e₂).toNat)
      (min e₁ e₂) = ticks m₁ e₁ + ticks m₂ e₂ := by
    rw [← ticks_shiftLeft m₁ (e₁ - min e₁ e₂).toNat e₁ (min e₁ e₂) (by omega) hlowest,
      ← ticks_shiftLeft m₂ (e₂ - min e₁ e₂).toNat e₂ (min e₁ e₂) (by omega) hlowest]
    exact Nat.add_mul _ _ _
  rw [hadd, ← Int.natCast_add, normalize_of_pos (Int.natCast_pos.mpr hpos), Int.toNat_natCast,
    ← hticks]
  exact round_of_pos .positive hpos hlowest

theorem positive_add (hu : Fits u) (hv : Fits v) (hpositive : Positive u)
    (hnonnegative : Nonnegative v) : Positive (settle (add .binary32 u v)) := by
  rcases hpositive with _ | hm₁
  · rcases hnonnegative with s | ⟨_ | hm₂⟩ <;> simp only [add, settle_infinity] <;> exact .infinity
  · rcases hnonnegative with s | ⟨_ | hm₂⟩
    · exact positive_settle hm₁ hu.1
    · simp only [add, settle_infinity]
      exact .infinity
    · obtain ⟨m, e, hm, heq, hcanonical, -⟩ := add_finite hm₁ hm₂ hu.1 hv.1
      rw [heq]
      exact positive_settle hm hcanonical

theorem add_pos (hx : 0 < x) (hy : 0 ≤ y) : 0 < x + y :=
  zero_lt_iff.mpr (positive_add (shape_fits x) (shape_fits y) (zero_lt_iff.mp hx)
    (zero_le_iff.mp hy))

/-- A bound on the sums of weights of at most one. -/
def weightLimit : Float32 := .ofBits 0x4c000000

theorem shape_weightLimit : shape weightLimit = .finite .positive (2 ^ 23) 2 (by decide) := by rfl

theorem isFinite_of_le_weightLimit (hx : 0 < x) (h : x ≤ weightLimit) : x.isFinite = true := by
  rw [zero_lt_iff] at hx
  rw [le_iff, shape_weightLimit] at h
  rw [isFinite_eq]
  generalize shape x = u at *
  rcases hx with _ | _
  · cases h
  · rfl

theorem le_iff_ticks_le (hm₁ : 0 < m₁) (hm₂ : 0 < m₂) (h₁ : IsCanonical m₁ e₁)
    (h₂ : IsCanonical m₂ e₂) :
    (UnpackedFloat.finite .positive m₁ e₁ hm₁).le (.finite .positive m₂ e₂ hm₂) = true ↔
      ticks m₁ e₁ ≤ ticks m₂ e₂ := by
  have hle : (UnpackedFloat.finite .positive m₁ e₁ hm₁).le (.finite .positive m₂ e₂ hm₂) =
      ((compare e₁ e₂).then (compare m₁ m₂)).isLE := rfl
  rw [hle]
  rcases Int.lt_trichotomy e₁ e₂ with hless | rfl | hgreater
  · rw [Int.compare_eq_lt.mpr hless]
    exact iff_of_true rfl (ticks_lt h₁ h₂ hless).le
  · have hself : compare e₁ e₁ = .eq := Int.compare_eq_eq.mpr rfl
    rw [hself]
    exact Nat.isLE_compare.trans (Nat.mul_le_mul_right_iff (Nat.two_pow_pos _)).symm
  · rw [Int.compare_eq_gt.mpr hgreater]
    exact iff_of_false Bool.false_ne_true (ticks_lt h₂ h₁ hgreater).not_ge

theorem Rounds.le_limit {k n r : Nat} (h : Rounds k n r) (hn : n ≤ 2 ^ 174 + 2 ^ 149) :
    r ≤ 2 ^ 174 := by
  obtain ⟨⟨c, hc⟩, hnear, hle, hfull⟩ := h
  rcases Nat.lt_trichotomy k 151 with hless | rfl | hgreater
  · exact hle.trans (Nat.pow_le_pow_right (by decide) (by omega))
  · omega
  · have hlarge : 2 ^ (23 + 152) ≤ 2 ^ (23 + k) := Nat.pow_le_pow_right (by decide) (by omega)
    omega

/-- **Sums of weights stay bounded.** -/
theorem add_le_weightLimit (hx : 0 < x) (hlimit : x ≤ weightLimit) (hy : 0 ≤ y) (hone : y ≤ 1) :
    x + y ≤ weightLimit := by
  have hfits := shape_fits x
  have hfits' := shape_fits y
  have hcanonical : IsCanonical (2 ^ 23) 2 := ⟨by decide, by decide, .inr (Nat.le_refl _)⟩
  have hcanonical' : IsCanonical (2 ^ 23) (-23) := ⟨by decide, by decide, .inr (Nat.le_refl _)⟩
  rw [zero_lt_iff] at hx
  rw [zero_le_iff] at hy
  rw [le_iff, shape_one] at hone
  rw [le_iff, shape_weightLimit] at *
  rw [shape_add]
  generalize shape x = u at *
  generalize shape y = v at *
  rcases hx with _ | hm₁
  · cases hlimit
  · rcases hy with s | ⟨_ | hm₂⟩
    · simp only [add, settle_of_fits hfits, hlimit]
    · cases hone
    · obtain ⟨m, e, hm, heq, hround, k, hrounds⟩ := add_finite hm₁ hm₂ hfits.1 hfits'.1
      rw [le_iff_ticks_le _ _ hfits.1 hcanonical] at hlimit
      rw [le_iff_ticks_le _ _ hfits'.1 hcanonical'] at hone
      have hticks : ticks m e ≤ ticks (2 ^ 23) 2 := hrounds.le_limit (Nat.add_le_add hlimit hone)
      have hexponent : e ≤ 104 := by
        by_contra hlarge
        exact (ticks_lt hcanonical hround (by omega)).not_ge hticks
      rw [heq, settle_finite hround hexponent]
      exact (le_iff_ticks_le _ _ hround hcanonical).mpr hticks

/-! ### Quotients -/

/-- The exponent at which a quotient is taken. -/
def quotientExponent (m₁ : Nat) (e₁ : Int) (m₂ : Nat) (e₂ : Int) : Int :=
  min (e₁ - e₂) (max (m₁.log2 + 1 + e₁ - (m₂.log2 + 1 + e₂) - 24) (-149))

/-- The significand of a quotient before it is rounded. -/
def quotient (m₁ : Nat) (e₁ : Int) (m₂ : Nat) (e₂ : Int) : Nat :=
  m₁ <<< (e₁ - e₂ - quotientExponent m₁ e₁ m₂ e₂).toNat / m₂

theorem exists_div_eq (s₁ s₂ : Sign) (e₁ e₂ : Int) (hm₁ : 0 < m₁) (hm₂ : 0 < m₂) :
    ∃ accuracy, div .binary32 (.finite s₁ m₁ e₁ hm₁) (.finite s₂ m₂ e₂ hm₂) =
      roundWithAccuracy .binary32 (s₁ / s₂) (quotient m₁ e₁ m₂ e₂)
        (quotientExponent m₁ e₁ m₂ e₂) accuracy := ⟨_, rfl⟩

/-- Above the lowest exponent a quotient has at least 24 bits. -/
theorem quotientExponent_le_target (e₁ e₂ : Int) (hm₁ : 0 < m₁) (hm₂ : 0 < m₂) :
    quotientExponent m₁ e₁ m₂ e₂ ≤
      target (quotient m₁ e₁ m₂ e₂) (quotientExponent m₁ e₁ m₂ e₂) := by
  by_cases hlowest : quotientExponent m₁ e₁ m₂ e₂ ≤ -149
  · exact hlowest.trans (lowest_le_target _ _)
  · have hplaces : m₂.log2 + 24 ≤ m₁.log2 + (e₁ - e₂ - quotientExponent m₁ e₁ m₂ e₂).toNat := by
      unfold quotientExponent at *
      omega
    have hbits : 2 ^ 23 ≤ quotient m₁ e₁ m₂ e₂ := by
      rw [quotient, Nat.le_div_iff_mul_le hm₂, Nat.shiftLeft_eq]
      calc 2 ^ 23 * m₂ ≤ 2 ^ 23 * 2 ^ (m₂.log2 + 1) := Nat.mul_le_mul_left _ Nat.lt_log2_self.le
        _ = 2 ^ (m₂.log2 + 24) := by rw [← Nat.pow_add]; congr 1; omega
        _ ≤ 2 ^ (m₁.log2 + (e₁ - e₂ - quotientExponent m₁ e₁ m₂ e₂).toNat) :=
            Nat.pow_le_pow_right (by decide) hplaces
        _ = 2 ^ m₁.log2 * 2 ^ (e₁ - e₂ - quotientExponent m₁ e₁ m₂ e₂).toNat := Nat.pow_add ..
        _ ≤ m₁ * 2 ^ (e₁ - e₂ - quotientExponent m₁ e₁ m₂ e₂).toNat :=
            Nat.mul_le_mul_right _ (Nat.log2_self_le hm₁.ne')
    have hlog : 23 ≤ (quotient m₁ e₁ m₂ e₂).log2 := (Nat.le_log2 (by omega)).mpr hbits
    unfold target
    omega

theorem div_finite (s₁ s₂ : Sign) (e₁ e₂ : Int) (hm₁ : 0 < m₁) (hm₂ : 0 < m₂) :
    div .binary32 (.finite s₁ m₁ e₁ hm₁) (.finite s₂ m₂ e₂ hm₂) = .zero (s₁ / s₂) ∨
      ∃ m e hm, div .binary32 (.finite s₁ m₁ e₁ hm₁) (.finite s₂ m₂ e₂ hm₂) =
        .finite (s₁ / s₂) m e hm ∧ IsCanonical m e := by
  obtain ⟨accuracy, heq⟩ := exists_div_eq s₁ s₂ e₁ e₂ hm₁ hm₂
  rw [heq]
  rcases roundWithAccuracy_cases (s₁ / s₂) accuracy (quotientExponent_le_target e₁ e₂ hm₁ hm₂) with
    ⟨-, hzero⟩ | ⟨m, e, hm, hround, hcanonical, -⟩
  · exact .inl hzero
  · exact .inr ⟨m, e, hm, hround, hcanonical⟩

theorem div_nonneg (hx : 0 ≤ x) (hy : 0 < y) (hfinite : y.isFinite = true) : 0 ≤ x / y := by
  rw [zero_le_iff] at *
  rw [zero_lt_iff] at hy
  rw [isFinite_eq] at hfinite
  rw [shape_div]
  generalize shape x = u at *
  generalize shape y = v at *
  rcases hy with _ | @⟨m₂, e₂, hm₂⟩
  · cases hfinite
  · rcases hx with s | ⟨_ | @⟨m₁, e₁, hm₁⟩⟩
    · simp only [div, settle_zero]
      exact .zero _
    · simp only [div, settle_infinity]
      exact .positive .infinity
    · rcases div_finite .positive .positive e₁ e₂ hm₁ hm₂ with heq | ⟨m, e, hm, heq, hcanonical⟩
      · rw [heq, settle_zero]
        exact .zero _
      · rw [heq]
        exact .positive (positive_settle hm hcanonical)

theorem isNaN_div_of_isFinite (hx : x.isFinite = true) (hy : 0 < y) (hfinite : y.isFinite = true) :
    (x / y).isNaN = false := by
  rw [zero_lt_iff] at hy
  rw [isFinite_eq] at hx hfinite
  rw [isNaN_eq, shape_div]
  generalize shape x = u at *
  generalize shape y = v at *
  rcases hy with _ | @⟨m₂, e₂, hm₂⟩
  · cases hfinite
  · rcases u with _ | _ | s | ⟨s, m₁, e₁, hm₁⟩
    · cases hx
    · cases hx
    · simp only [div, settle_zero]
      rfl
    · rcases div_finite s .positive e₁ e₂ hm₁ hm₂ with heq | ⟨m, e, hm, heq, hcanonical⟩
      · rw [heq, settle_zero]
        rfl
      · rw [heq]
        rcases settle_canonical hcanonical with hstored | hstored <;> rw [hstored] <;> rfl

theorem isNaN_div (h : x.isNaN = true) (y : Float32) : (x / y).isNaN = true := by
  rw [isNaN_eq] at h
  rw [isNaN_eq, shape_div]
  rcases hx : shape x with _ | _ | _ | _ <;> rw [hx] at h <;> cases h
  simp only [div, settle_notANumber]
  rfl

/-- The least reciprocal is that of the largest finite value, and it has bits to spare. -/
theorem one_div_pos (hx : 0 < x) (hfinite : x.isFinite = true) : 0 < 1 / x := by
  have hfits := shape_fits x
  rw [zero_lt_iff] at *
  rw [isFinite_eq] at hfinite
  rw [shape_div, shape_one]
  generalize shape x = u at *
  rcases hx with _ | @⟨m, e, hm⟩
  -- Infinity is positive too, but not finite.
  · cases hfinite
  · obtain ⟨⟨hlt, -, -⟩, hle⟩ := hfits
    have hone : (0 : Nat) < 2 ^ 23 := by decide
    have hlog : (2 ^ 23 : Nat).log2 = 23 := Nat.log2_two_pow
    -- The dividend is moved up far enough for the quotient to have a bit left.
    have hplaces : 1 ≤ (-23 - e - quotientExponent (2 ^ 23) (-23) m e).toNat := by
      unfold quotientExponent
      rw [hlog]
      omega
    have hquotient : 0 < quotient (2 ^ 23) (-23) m e := by
      have hpow := Nat.pow_le_pow_right (n := 2) (by decide) hplaces
      rw [quotient, Nat.shiftLeft_eq]
      exact Nat.div_pos (by omega) hm
    have hlowest : -149 ≤ quotientExponent (2 ^ 23) (-23) m e := by
      unfold quotientExponent
      omega
    obtain ⟨accuracy, heq⟩ := exists_div_eq .positive .positive (-23) e hone hm
    rw [heq]
    rcases roundWithAccuracy_cases _ accuracy (quotientExponent_le_target (-23) e hone hm) with
      ⟨hzero, -⟩ | ⟨m', e', hm', hround, hcanonical, -⟩
    · exact absurd hzero (rounded_pos accuracy hquotient hlowest).ne'
    · rw [hround]
      exact positive_settle hm' hcanonical

end Turnwise.Single
