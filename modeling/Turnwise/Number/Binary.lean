import Turnwise.Number.Decimal

/-!
# Binary floating-point values

The two formats of the engine, `Float` (64 bits) and `Float32`, taken apart into sign, significand
and exponent, and built from decimal numerals.

Everything here is exact: a finite value is `significand · 2 ^ exponent` in natural numbers, and the
one rounding step, from a numeral or a wider format to the nearest value of a format, is the core
library's correctly rounded conversion from decimals. A binary fraction `s / 2 ^ k` is the decimal
fraction `s · 5 ^ k / 10 ^ k`, so narrowing goes through the same step.
-/

namespace Turnwise

/-- A positive binary number `significand · 2 ^ exponent`, or zero. -/
structure Magnitude where
  significand : Nat
  exponent : Int
  /-- Whether the next value below is only half as far away as the next value above. This is so at
  the powers of two. -/
  narrowBelow : Bool
  deriving DecidableEq, Repr

/-- A floating-point value taken apart. -/
inductive BinaryParts where
  | nan
  | infinite (negative : Bool)
  | finite (negative : Bool) (magnitude : Magnitude)
  deriving DecidableEq, Repr

/-- The layout of a format: a sign bit, then the exponent, then the fraction. -/
structure BinaryFormat where
  exponentBits : Nat
  fractionBits : Nat

namespace BinaryFormat

def double : BinaryFormat := ⟨11, 52⟩

def single : BinaryFormat := ⟨8, 23⟩

/-- Takes a bit pattern apart. An exponent field of zero marks the values below the smallest power
of two with a full significand; a field of ones marks infinity and what is not a number. -/
def parts (format : BinaryFormat) (bits : Nat) : BinaryParts :=
  let fraction := bits % (1 <<< format.fractionBits)
  let field := bits >>> format.fractionBits % (1 <<< format.exponentBits)
  let negative := bits >>> (format.fractionBits + format.exponentBits) % 2 = 1
  let lowest : Int := 2 - (1 <<< (format.exponentBits - 1) : Nat) - format.fractionBits
  if field = (1 <<< format.exponentBits) - 1 then
    if fraction = 0 then .infinite negative else .nan
  else if field = 0 then .finite negative ⟨fraction, lowest, false⟩
  else
    .finite negative
      ⟨(1 <<< format.fractionBits) + fraction, lowest + (field - 1), fraction = 0 && 1 < field⟩

end BinaryFormat

def BinaryParts.ofDouble (x : Float) : BinaryParts := BinaryFormat.double.parts x.toBits.toNat

def BinaryParts.ofSingle (x : Float32) : BinaryParts := BinaryFormat.single.parts x.toBits.toNat

/-! ### Rounding to a format -/

/-- The exponent of a decimal, brought into the range that matters to a 64-bit value: from
`10 ^ 400` on every positive number is too large for a finite value, and below `10 ^ -400` every one
is nearer to zero than to any other. -/
def Decimal.boundedExponent (d : Decimal) : Int :=
  max (-(401 + d.digits.log2)) (min 400 d.exponent)

/-- The 64-bit value nearest to a numeral; ties go to the even significand. -/
def Numeral.toDouble : Numeral → Float
  | nan => Float.ofBits 0x7ff8000000000000
  | infinite negative => signed negative (Float.ofBits 0x7ff0000000000000)
  | finite negative d =>
      let exponent := d.boundedExponent
      signed negative (Float.ofScientific d.digits (exponent < 0) exponent.natAbs)
where
  signed (negative : Bool) (x : Float) : Float := if negative then -x else x

/-- The 32-bit value nearest to a 64-bit value. Values beyond the largest become infinite. -/
def narrow (x : Float) : Float32 :=
  match BinaryParts.ofDouble x with
  | .nan => Float32.ofBits 0x7fc00000
  | .infinite negative => signed negative (Float32.ofBits 0x7f800000)
  | .finite negative v =>
      let places := v.exponent.natAbs
      signed negative <|
        if 0 ≤ v.exponent then Float32.ofScientific (v.significand <<< places) false 0
        else Float32.ofScientific (v.significand * Nat.pow 5 places) true places
where
  signed (negative : Bool) (x : Float32) : Float32 := if negative then -x else x

/-- A 32-bit value as a 64-bit value. Nothing is lost. -/
def widen (x : Float32) : Float :=
  match BinaryParts.ofSingle x with
  | .nan => Numeral.nan.toDouble
  | .infinite negative => (Numeral.infinite negative).toDouble
  | .finite negative v =>
      let places := v.exponent.natAbs
      let magnitude : Decimal :=
        if 0 ≤ v.exponent then ⟨v.significand <<< places, 0⟩
        else ⟨v.significand * Nat.pow 5 places, -places⟩
      (Numeral.finite negative magnitude).toDouble

/-! ### The total order -/

/-- The place of a 32-bit value in the total order of all bit patterns: from the negative values of
largest magnitude over minus zero and zero to the positive ones. -/
def totalRank (x : Float32) : Int :=
  let bits := x.toBits.toNat
  if bits < 0x80000000 then bits else 0x7fffffff - bits

/-- The next bit pattern below, which for a positive value is the next value below. -/
def nextBelow (x : Float32) : Float32 := Float32.ofBits (x.toBits - 1)

end Turnwise
