import Mathlib
import Turnwise.Number.Binary

/-!
# How 32-bit values are rounded

A 32-bit value has the shape of a sign, a significand and an exponent (`shape`). Each operation is
carried out on shapes and its result is stored in 32 bits (`settle`).

* Every finite value has a canonical shape (`shape_fits`), and its place in the total order is its
  exponent followed by its significand (`totalRank_eq`). A canonical shape is stored as it is, or as
  infinity if it is too large (`settle_finite`, `settle_of_lt`).
* The exact result of an operation is brought to 24 bits (`rounded`). What comes out is canonical
  (`roundWithAccuracy_cases`). In units of the smallest positive value (`ticks`), the result for
  a sum is a multiple of a power of two at most half of it above the sum (`round_of_pos`).
-/

namespace Turnwise.Single

open Float.Model (Format UnpackedFloat)
open Float.Model.UnpackedFloat

/-! ### Shapes -/

/-- A value taken apart. -/
def shape (x : Float32) : UnpackedFloat := x.toModel.unpack

/-- What is left of a result when it is stored in 32 bits. -/
def settle (u : UnpackedFloat) : UnpackedFloat := unpack .binary32 (pack .binary32 u)

/-- A significand of 24 bits, which has its highest bit unless the exponent is the lowest one. -/
structure IsCanonical (m : Nat) (e : Int) : Prop where
  lt : m < 2 ^ 24
  lowest : -149 ≤ e
  full : e = -149 ∨ 2 ^ 23 ≤ m

/-- The shapes of 32-bit values. -/
def Fits : UnpackedFloat → Prop
  | .finite _ m e _ => IsCanonical m e ∧ e ≤ 104
  | _ => True

def signedPlace : Sign → Nat → Int
  | .positive, n => n
  | .negative, n => -1 - n

/-- The place of a shape in the total order. -/
def place : UnpackedFloat → Int
  | .notANumber => 0x7fc00000
  | .infinity s => signedPlace s 0x7f800000
  | .zero s => signedPlace s 0
  | .finite s m e _ => signedPlace s ((e + 149).toNat * 2 ^ 23 + m)

theorem shape_zero : shape 0 = .zero .positive := by rfl

theorem shape_one : shape 1 = .finite .positive (2 ^ 23) (-23) (by decide) := by rfl

section Facts

variable (x y : Float32)

theorem isFinite_eq : x.isFinite = (shape x).isFinite := rfl

theorem isNaN_eq : x.isNaN = (shape x).isNaN := rfl

theorem le_iff : x ≤ y ↔ (shape x).le (shape y) = true := decide_eq_true_iff

theorem lt_iff : x < y ↔ (shape x).lt (shape y) = true := decide_eq_true_iff

theorem beq_eq : (x == y) = (shape x).beq (shape y) := rfl

theorem shape_add : shape (x + y) = settle (add .binary32 (shape x) (shape y)) := rfl

theorem shape_sub : shape (x - y) = settle (sub .binary32 (shape x) (shape y)) := rfl

theorem shape_div : shape (x / y) = settle (div .binary32 (shape x) (shape y)) := rfl

end Facts

/-! ### Bits -/

section Bits

variable (b : BitVec Format.binary32.numBits)

theorem toNat_unpackMantissa : (unpackMantissa b).toNat = b.toNat % 2 ^ 23 := by
  simp [unpackMantissa]

theorem toNat_unpackExponent : (unpackExponent b).toNat = b.toNat / 2 ^ 23 % 2 ^ 8 := by
  simp [unpackExponent, Nat.shiftRight_eq_div_pow]

theorem toNat_unpackSign : (unpackSign b).toNat = b.toNat / 2 ^ 31 := by
  have hlt : b.toNat < 2 ^ 32 := b.isLt
  simp only [unpackSign, BitVec.toNat_cast, BitVec.extractLsb_toNat, Nat.shiftRight_eq_div_pow]
  omega

theorem ofBitVec_unpackSign :
    Sign.ofBitVec (unpackSign b) = if b.toNat < 2 ^ 31 then .positive else .negative := by
  have hlt : b.toNat < 2 ^ 32 := b.isLt
  have hsign : unpackSign b = 0#1 ↔ b.toNat < 2 ^ 31 := by
    rw [← BitVec.toNat_inj, toNat_unpackSign, BitVec.toNat_ofNat]
    omega
  simp only [Sign.ofBitVec, hsign]

/-- The leading bit of a significand is not stored. -/
theorem toNat_implicit_append (m : BitVec 23) : (1#1 ++ m).toNat = 2 ^ 23 + m.toNat := by
  rw [BitVec.toNat_append, ← Nat.shiftLeft_add_eq_or_of_lt m.isLt]
  rfl

theorem signedPlace_unpackSign {n : Nat} (h : n = b.toNat % 2 ^ 31) :
    signedPlace (Sign.ofBitVec (unpackSign b)) n =
      if b.toNat < 2 ^ 31 then (b.toNat : Int) else 2 ^ 31 - 1 - b.toNat := by
  have hlt : b.toNat < 2 ^ 32 := b.isLt
  rw [ofBitVec_unpackSign]
  split_ifs <;> simp only [signedPlace] <;> omega

theorem unpack_spec (hvalid : Format.binary32.Valid b) :
    Fits (unpack .binary32 b) ∧
      place (unpack .binary32 b) =
        if b.toNat < 2 ^ 31 then (b.toNat : Int) else 2 ^ 31 - 1 - b.toNat := by
  have hmantissa := toNat_unpackMantissa b
  have hexponent := toNat_unpackExponent b
  have hones : unpackExponent b = -1#_ ↔ b.toNat / 2 ^ 23 % 2 ^ 8 = 255 := by
    rw [← hexponent, ← BitVec.toNat_inj]
    rfl
  have hzeros : unpackExponent b = 0#_ ↔ b.toNat / 2 ^ 23 % 2 ^ 8 = 0 := by
    rw [← hexponent, ← BitVec.toNat_inj]
    rfl
  have hnone : unpackMantissa b = 0#_ ↔ b.toNat % 2 ^ 23 = 0 := by
    rw [← hmantissa, ← BitVec.toNat_inj]
    rfl
  have hbias : (Format.binary32.exponentBias : Int) + Format.binary32.mantissaBitsWithoutImplicit =
      150 := rfl
  unfold unpack
  by_cases hspecial : unpackExponent b = -1#_
  · by_cases hfraction : unpackMantissa b = 0#_
    · simp only [if_pos hspecial, if_pos hfraction]
      rw [hones] at hspecial
      rw [hnone] at hfraction
      exact ⟨trivial, signedPlace_unpackSign b (by omega)⟩
    -- Only one pattern stands for what is not a number.
    · simp only [if_pos hspecial, if_neg hfraction]
      rw [hvalid.eq_packedNaN hspecial hfraction]
      exact ⟨trivial, rfl⟩
  · by_cases hlowest : unpackExponent b = 0#_
    · by_cases hfraction : unpackMantissa b = 0#_
      · simp only [if_neg hspecial, if_pos hlowest, dif_pos hfraction]
        rw [hzeros] at hlowest
        rw [hnone] at hfraction
        exact ⟨trivial, signedPlace_unpackSign b (by omega)⟩
      · simp only [if_neg hspecial, if_pos hlowest, dif_neg hfraction, hmantissa, hexponent, hbias]
        rw [hzeros] at hlowest
        refine ⟨⟨⟨by omega, by omega, .inl (by omega)⟩, by omega⟩, signedPlace_unpackSign b ?_⟩
        omega
    · simp only [if_neg hspecial, if_neg hlowest, toNat_implicit_append, hmantissa, hexponent,
        hbias]
      rw [hones] at hspecial
      rw [hzeros] at hlowest
      refine ⟨⟨⟨by omega, by omega, .inr (by omega)⟩, by omega⟩, signedPlace_unpackSign b ?_⟩
      omega

end Bits

theorem shape_fits (x : Float32) : Fits (shape x) := (unpack_spec _ x.toModel.valid).1

theorem totalRank_eq (x : Float32) : totalRank x = place (shape x) :=
  (unpack_spec _ x.toModel.valid).2.symm

/-! ### Storing -/

@[simp]
theorem settle_zero (s : Sign) : settle (.zero s) = .zero s := by
  cases s <;> rfl

@[simp]
theorem settle_infinity (s : Sign) : settle (.infinity s) = .infinity s := by
  cases s <;> rfl

@[simp]
theorem settle_notANumber : settle .notANumber = .notANumber := rfl

section Settle

variable {s : Sign} {m : Nat} {e : Int} {hm : 0 < m}

theorem settle_of_lt (h : 104 < e) : settle (.finite s m e hm) = .infinity s := by
  have hfield : 2 ^ 8 ≤ (e + (127 : Nat) + (23 : Nat)).toNat + 1 := by omega
  rw [settle, pack]
  exact (congrArg _ (if_pos hfield)).trans (settle_infinity s)

theorem settle_finite (hcanonical : IsCanonical m e) (h : e ≤ 104) :
    settle (.finite s m e hm) = .finite s m e hm := by
  obtain ⟨hlt, hlowest, hfull⟩ := hcanonical
  have hbias : (Format.binary32.exponentBias : Int) = 127 := rfl
  have hfraction : (BitVec.ofNat 23 m).toNat = m % 2 ^ 23 := BitVec.toNat_ofNat m 23
  -- The exponent is stored with an offset, and it is small enough for the field.
  obtain ⟨field, hfield⟩ : ∃ field : Nat, e + 127 + (23 : Nat) = field :=
    ⟨(e + 150).toNat, by omega⟩
  have hexponent : (BitVec.ofNat 8 field).toNat = field :=
    (BitVec.toNat_ofNat field 8).trans (Nat.mod_eq_of_lt (by omega))
  have hsmall : ¬ 2 ^ 8 ≤ field + 1 := by omega
  unfold settle pack
  simp only [hbias, hfield, Int.toNat_natCast, if_neg hsmall]
  -- With its leading one at the top the mantissa is stored without it. Otherwise the exponent is
  -- the lowest, and the field of the exponent is zero.
  by_cases hnormal : 2 ^ 23 ≤ m
  · have hlog : m.log2 + 1 = Format.binary32.mantissaBits := by
      have := (Nat.log2_lt hm.ne').mpr hlt
      have := (Nat.le_log2 hm.ne').mpr hnormal
      show _ = 24
      omega
    have hones : BitVec.ofNat 8 field ≠ -1#8 := by
      rw [ne_eq, ← BitVec.toNat_inj, hexponent]
      show ¬ field = 255
      omega
    have hzeros : BitVec.ofNat 8 field ≠ 0#8 := by
      rw [ne_eq, ← BitVec.toNat_inj, hexponent]
      show ¬ field = 0
      omega
    simp only [if_pos hlog, unpack, unpackMantissa_packComponents, unpackExponent_packComponents,
      unpackSign_packComponents, Sign.ofBitVec_toBitVec, if_neg hones, if_neg hzeros,
      toNat_implicit_append, hfraction, hexponent, hbias]
    congr 1 <;> omega
  · have hlog : ¬ m.log2 + 1 = Format.binary32.mantissaBits := by
      have := (Nat.log2_lt hm.ne').mpr (not_le.mp hnormal)
      show ¬ _ = 24
      omega
    have hones : 0#8 ≠ -1#8 := by decide
    have hsome : BitVec.ofNat 23 m ≠ 0#23 := by
      rw [ne_eq, ← BitVec.toNat_inj, hfraction]
      show ¬ _ = 0
      omega
    simp only [if_neg hlog, unpack, unpackMantissa_packComponents, unpackExponent_packComponents,
      unpackSign_packComponents, Sign.ofBitVec_toBitVec, if_neg hones, if_pos, dif_neg hsome,
      hfraction, hbias, BitVec.toNat_zero]
    congr 1 <;> omega

/-- A result keeps its sign, and it is stored as zero only if it is zero. -/
theorem settle_canonical (h : IsCanonical m e) :
    settle (.finite s m e hm) = .infinity s ∨ settle (.finite s m e hm) = .finite s m e hm := by
  rcases Int.lt_or_le 104 e with hlarge | hfits
  · exact .inl (settle_of_lt hlarge)
  · exact .inr (settle_finite h hfits)

end Settle

theorem settle_of_fits {u : UnpackedFloat} (h : Fits u) : settle u = u := by
  rcases u with s | _ | s | ⟨s, m, e, hm⟩
  · exact settle_infinity s
  · rfl
  · exact settle_zero s
  · exact settle_finite h.1 h.2

/-! ### Dropping places -/

section Shift

variable (em : ExtendedMantissa)

theorem le_roundedMantissa : em.mantissa ≤ em.roundedMantissa := by
  obtain ⟨m, round, sticky⟩ := em
  cases round <;> cases sticky <;>
    simp [ExtendedMantissa.roundedMantissa, ExtendedMantissa.accuracy, Accuracy.roundToNearestEven]

theorem roundedMantissa_le : em.roundedMantissa ≤ em.mantissa + em.roundBit.toNat := by
  obtain ⟨m, round, sticky⟩ := em
  cases round <;> cases sticky <;>
    simp [ExtendedMantissa.roundedMantissa, ExtendedMantissa.accuracy, Accuracy.roundToNearestEven]
  omega

theorem shiftRight_succ (k : Nat) : em >>> (k + 1) = (em >>> k).shiftRightOne := rfl

theorem mantissa_shiftRight (k : Nat) : (em >>> k).mantissa = em.mantissa / 2 ^ k := by
  induction k with
  | zero => exact (Nat.div_one _).symm
  | succ k ih =>
    rw [shiftRight_succ, ExtendedMantissa.shiftRightOne, ih, Nat.div_div_eq_div_mul, Nat.pow_succ]

/-- The round bit is the highest of the bits that are dropped. -/
theorem roundBit_shiftRight (h : em.roundBit = false) (k : Nat) :
    (em >>> k).roundBit.toNat * 2 ^ k ≤ 2 * (em.mantissa % 2 ^ k) := by
  cases k with
  | zero =>
    show em.roundBit.toNat * 1 ≤ _
    rw [h]
    exact Nat.zero_le _
  | succ k =>
    rw [shiftRight_succ, ExtendedMantissa.shiftRightOne, mantissa_shiftRight, Nat.mod_pow_succ,
      Nat.pow_succ]
    rcases Nat.mod_two_eq_zero_or_one (em.mantissa / 2 ^ k) with hbit | hbit
    · simp [hbit]
    · simp [hbit]
      omega

end Shift

theorem mantissa_ofMantissaAndAccuracy (m : Nat) (accuracy : Accuracy) :
    (ExtendedMantissa.ofMantissaAndAccuracy m accuracy).mantissa = m := by
  rcases accuracy with _ | _ | _ | _ <;> rfl

/-! ### Rounding -/

/-- The exponent of a number that is brought to 24 bits, but never less than the lowest. -/
def target (m : Nat) (e : Int) : Int := max (m.log2 + 1 + e - 24) (-149)

/-- A significand without the places below the target exponent, rounded. -/
def rounded (m : Nat) (e : Int) (accuracy : Accuracy) : Nat :=
  (ExtendedMantissa.ofMantissaAndAccuracy m accuracy >>> (target m e - e).toNat).roundedMantissa

/-- A number in units of the smallest positive value. -/
def ticks (m : Nat) (e : Int) : Nat := m * 2 ^ (e + 149).toNat

/-- `r` is what `n` is rounded to by 24 bits whose last place is `2 ^ k`. -/
structure Rounds (k n r : Nat) : Prop where
  dvd : 2 ^ k ∣ r
  near : 2 * r ≤ 2 * n + 2 ^ k
  le : r ≤ 2 ^ (24 + k)
  full : k = 0 ∨ 2 ^ (23 + k) ≤ n

theorem targetExponent_eq (m : Nat) (e : Int) :
    Format.binary32.targetExponent (Float.Model.totalExponent m e) = target m e := rfl

theorem lowest_le_target (m : Nat) (e : Int) : -149 ≤ target m e := Int.le_max_right _ _

theorem ticks_pos {m : Nat} (hm : 0 < m) (e : Int) : 0 < ticks m e :=
  Nat.mul_pos hm (Nat.two_pow_pos _)

theorem ticks_shiftLeft (m k : Nat) (e e' : Int) (h : e = e' + k) (hlowest : -149 ≤ e') :
    ticks (m <<< k) e' = ticks m e := by
  have hplaces : (e + 149).toNat = k + (e' + 149).toNat := by omega
  rw [ticks, ticks, Nat.shiftLeft_eq, hplaces, Nat.pow_add, Nat.mul_assoc]

section Rounded

variable (m : Nat) (e : Int) (accuracy : Accuracy)

theorem le_rounded : m / 2 ^ (target m e - e).toNat ≤ rounded m e accuracy := by
  have hle := le_roundedMantissa
    (ExtendedMantissa.ofMantissaAndAccuracy m accuracy >>> (target m e - e).toNat)
  rwa [mantissa_shiftRight, mantissa_ofMantissaAndAccuracy] at hle

theorem rounded_le : rounded m e accuracy ≤ m / 2 ^ (target m e - e).toNat + 1 := by
  have hle := roundedMantissa_le
    (ExtendedMantissa.ofMantissaAndAccuracy m accuracy >>> (target m e - e).toNat)
  rw [mantissa_shiftRight, mantissa_ofMantissaAndAccuracy] at hle
  exact hle.trans (Nat.add_le_add_left (Bool.toNat_le _) _)

/-- An exact number grows by at most half of the last place. -/
theorem rounded_exact_le :
    2 * (rounded m e .exact * 2 ^ (target m e - e).toNat) ≤
      2 * m + 2 ^ (target m e - e).toNat := by
  unfold rounded
  generalize (target m e - e).toNat = k
  have hle := roundedMantissa_le (ExtendedMantissa.ofMantissaAndAccuracy m .exact >>> k)
  have hbit := roundBit_shiftRight (ExtendedMantissa.ofMantissaAndAccuracy m .exact) rfl k
  rw [mantissa_shiftRight, mantissa_ofMantissaAndAccuracy] at hle
  rw [mantissa_ofMantissaAndAccuracy] at hbit
  generalize (ExtendedMantissa.ofMantissaAndAccuracy m .exact >>> k).roundBit = bit at *
  have hdiv := Nat.div_add_mod m (2 ^ k)
  have hone := Nat.mul_le_mul_right (2 ^ k) (Bool.toNat_le bit)
  have hscaled := Nat.mul_le_mul_right (2 ^ k) hle
  rw [Nat.add_mul, Nat.mul_comm (m / 2 ^ k)] at hscaled
  omega

theorem div_lt : m / 2 ^ (target m e - e).toNat < 2 ^ 24 := by
  rw [Nat.div_lt_iff_lt_mul (Nat.two_pow_pos _), ← Nat.pow_add]
  refine Nat.lt_log2_self.trans_le (Nat.pow_le_pow_right (by decide) ?_)
  unfold target
  omega

end Rounded

section

variable {m : Nat} {e : Int}

theorem le_div (h : e ≤ target m e) :
    target m e = -149 ∨ 2 ^ 23 ≤ m / 2 ^ (target m e - e).toNat := by
  by_cases hlowest : target m e = -149
  · exact .inl hlowest
  · right
    have hm : m ≠ 0 := by
      rintro rfl
      simp only [target, Nat.log2_zero] at h hlowest
      omega
    rw [Nat.le_div_iff_mul_le (Nat.two_pow_pos _), ← Nat.pow_add]
    refine (Nat.pow_le_pow_right (by decide) ?_).trans (Nat.log2_self_le hm)
    unfold target at *
    omega

/-- From the lowest exponent upwards, a number has more places than it loses. -/
theorem rounded_pos (accuracy : Accuracy) (hm : 0 < m) (hlowest : -149 ≤ e) :
    0 < rounded m e accuracy := by
  have hplaces : (target m e - e).toNat ≤ m.log2 := by
    unfold target
    omega
  have hle : 2 ^ (target m e - e).toNat ≤ m :=
    (Nat.pow_le_pow_right (by decide) hplaces).trans (Nat.log2_self_le hm.ne')
  exact (Nat.div_pos hle (Nat.two_pow_pos _)).trans_le (le_rounded m e accuracy)

theorem rounds_rounded (hlowest : -149 ≤ e) (h : e ≤ target m e) :
    Rounds (target m e + 149).toNat (ticks m e)
      (rounded m e .exact * 2 ^ (target m e + 149).toNat) := by
  have hplaces : (target m e + 149).toNat = (target m e - e).toNat + (e + 149).toNat := by omega
  have hnear := rounded_exact_le m e
  have hle := (rounded_le m e .exact).trans (div_lt m e)
  have hfull := le_div h
  rw [hplaces]
  generalize (target m e - e).toNat = k at *
  unfold ticks
  refine ⟨Nat.dvd_mul_left _ _, ?_, ?_, hfull.imp (fun _ => by omega) fun hfull => ?_⟩
  · rw [Nat.pow_add]
    simpa only [Nat.add_mul, Nat.mul_assoc] using Nat.mul_le_mul_right (2 ^ (e + 149).toNat) hnear
  · rw [Nat.pow_add 2 24]
    exact Nat.mul_le_mul_right _ hle
  · rw [Nat.pow_add, Nat.pow_add, ← Nat.mul_assoc]
    exact Nat.mul_le_mul_right _ ((Nat.le_div_iff_mul_le (Nat.two_pow_pos _)).mp hfull)

theorem target_le (h : m < 2 ^ 24) (hlowest : -149 ≤ e) : target m e ≤ e := by
  have hlog : m.log2 < 24 := by
    rcases Nat.eq_zero_or_pos m with rfl | hpos
    · decide
    · exact (Nat.log2_lt hpos.ne').mpr h
  unfold target
  omega

/-- A rounded significand loses one more place only if all of its bits carried. -/
theorem shiftToTargetExponent_of_le (h : m ≤ 2 ^ 24) (hlowest : -149 ≤ e) :
    shiftToTargetExponent .binary32 m e .exact =
      if m = 2 ^ 24 then (⟨2 ^ 23, false, false⟩, e + 1) else (⟨m, false, false⟩, e) := by
  simp only [shiftToTargetExponent, shiftToExponent, targetExponent_eq]
  split_ifs with hcarry
  · have hplaces : (target (2 ^ 24) e - e).toNat = 1 := by
      unfold target
      rw [Nat.log2_two_pow]
      omega
    rw [hcarry, hplaces]
    rfl
  · have hplaces : (target m e - e).toNat = 0 := by
      have := target_le (Nat.lt_of_le_of_ne h hcarry) hlowest
      omega
    rw [hplaces]
    exact congrArg _ (Int.add_zero e)

/-- **Rounding** gives the rounded significand in canonical form. -/
theorem roundWithAccuracy_cases (s : Sign) (accuracy : Accuracy) (h : e ≤ target m e) :
    rounded m e accuracy = 0 ∧ roundWithAccuracy .binary32 s m e accuracy = .zero s ∨
      ∃ m' e' hpos, roundWithAccuracy .binary32 s m e accuracy = .finite s m' e' hpos ∧
        IsCanonical m' e' ∧
        ticks m' e' = rounded m e accuracy * 2 ^ (target m e + 149).toNat := by
  have hlowest := lowest_le_target m e
  have hle : rounded m e accuracy ≤ 2 ^ 24 := (rounded_le m e accuracy).trans (div_lt m e)
  have hfirst : shiftToTargetExponent .binary32 m e accuracy =
      (ExtendedMantissa.ofMantissaAndAccuracy m accuracy >>> (target m e - e).toNat,
        target m e) := by
    simp only [shiftToTargetExponent, shiftToExponent, targetExponent_eq]
    congr 1
    omega
  have hround : roundWithAccuracy .binary32 s m e accuracy =
      let last := shiftToTargetExponent .binary32 (rounded m e accuracy) (target m e) .exact
      if h : last.1.mantissa = 0 then .zero s
      else .finite s last.1.mantissa last.2 (Nat.pos_of_ne_zero h) := by
    unfold roundWithAccuracy
    rw [hfirst]
    rfl
  rw [hround, shiftToTargetExponent_of_le hle hlowest]
  -- Rounding up may carry into one bit too many, which costs the exponent one.
  split_ifs with hcarry
  · refine .inr ⟨2 ^ 23, target m e + 1, by decide, rfl,
      ⟨by decide, by omega, .inr (Nat.le_refl _)⟩, ?_⟩
    have hplaces : (target m e + 1 + 149).toNat = (target m e + 149).toNat + 1 := by omega
    rw [ticks, hplaces, hcarry, Nat.pow_succ 2 (target m e + 149).toNat]
    omega
  · rcases Nat.eq_zero_or_pos (rounded m e accuracy) with hzero | hpos
    · exact .inl ⟨hzero, dif_pos hzero⟩
    · refine .inr ⟨_, _, hpos, dif_neg hpos.ne', ⟨by omega, hlowest, ?_⟩, rfl⟩
      exact (le_div h).imp_right fun hfull => hfull.trans (le_rounded m e accuracy)

theorem roundWithAccuracy_exact (s : Sign) (hm : 0 < m) (hlowest : -149 ≤ e)
    (h : e ≤ target m e) :
    ∃ m' e' hpos, roundWithAccuracy .binary32 s m e .exact = .finite s m' e' hpos ∧
      IsCanonical m' e' ∧ ∃ k, Rounds k (ticks m e) (ticks m' e') := by
  rcases roundWithAccuracy_cases s .exact h with
    ⟨hzero, -⟩ | ⟨m', e', hpos, heq, hcanonical, hticks⟩
  · exact absurd hzero (rounded_pos .exact hm hlowest).ne'
  · exact ⟨m', e', hpos, heq, hcanonical, _, hticks ▸ rounds_rounded hlowest h⟩

theorem shiftLeft_pos (hm : 0 < m) (k : Nat) : 0 < m <<< k := by
  rw [Nat.shiftLeft_eq]
  exact Nat.mul_pos hm (Nat.two_pow_pos k)

theorem log2_shiftLeft (hm : 0 < m) (k : Nat) : (m <<< k).log2 = m.log2 + k := by
  induction k with
  | zero => rfl
  | succ k ih =>
    rw [Nat.shiftLeft_succ, Nat.log2_two_mul (shiftLeft_pos hm k).ne', ih]
    rfl

/-- **The exact result of a sum**, brought to 24 bits. -/
theorem round_of_pos (s : Sign) (hm : 0 < m) (hlowest : -149 ≤ e) :
    ∃ m' e' hpos, round .binary32 s m e = .finite s m' e' hpos ∧
      IsCanonical m' e' ∧ ∃ k, Rounds k (ticks m e) (ticks m' e') := by
  have htarget := lowest_le_target m e
  obtain ⟨places, hplaces⟩ : ∃ places, (e - target m e).toNat = places := ⟨_, rfl⟩
  have hsame : target (m <<< places) (e - places) = target m e := by
    unfold target
    rw [log2_shiftLeft hm]
    omega
  have hround : round .binary32 s m e =
      roundWithAccuracy .binary32 s (m <<< places) (e - places) .exact := by
    rw [← hplaces]
    rfl
  rw [hround, ← ticks_shiftLeft m places e (e - places) (by omega) (by omega)]
  exact roundWithAccuracy_exact s (shiftLeft_pos hm places) (by omega) (by omega)

end

end Turnwise.Single
