import Turnwise.Number.Binary

/-!
# The shortest decimal text of a floating-point value

A finite value is the only one of its format in a small interval: half way to its neighbours on
either side, with the end points counted in when the significand is even. Any decimal number in that
interval reads back as the value. The text of a value is the decimal in its interval that has the
fewest digits; of several, the one nearest to the value, and of two at the same distance the larger.

The search runs over the grids of multiples of `10 ^ k`, from coarse to fine. If any point of a grid
lies in the interval, then one of the two points around the value does, so only those are tested.
The tests compare products of natural numbers.
-/

namespace Turnwise

namespace Magnitude

/-- The point of the grid of multiples of `10 ^ k` that stands for a value, as a multiple; `none` if
the value's interval holds no point of the grid. -/
def gridPoint? (v : Magnitude) (k : Int) : Option Nat :=
  -- In units of a quarter of the last place the interval is `[centre - 1 or 2, centre + 2]`.
  let q := v.exponent - 2
  let centre := 4 * v.significand
  let low := centre - (if v.narrowBelow then 1 else 2)
  let high := centre + 2
  -- `x · 2 ^ q` is `x · a / b` in units of `10 ^ k`.
  let a := Nat.pow 10 (-k).toNat <<< q.toNat
  let b := Nat.pow 10 k.toNat <<< (-q).toNat
  let inside (c : Nat) : Bool :=
    if v.significand % 2 = 0 then low * a ≤ c * b && c * b ≤ high * a
    else low * a < c * b && c * b < high * a
  let below := centre * a / b
  match inside below, inside (below + 1) with
  | true, true => some (if 2 * (centre * a - below * b) < b then below else below + 1)
  | true, false => some below
  | false, true => some (below + 1)
  | false, false => none

/-- The exact decimal expansion of a value. -/
def exactDecimal (v : Magnitude) : Decimal :=
  if 0 ≤ v.exponent then ⟨v.significand <<< v.exponent.toNat, 0⟩
  else ⟨v.significand * Nat.pow 5 v.exponent.natAbs, v.exponent⟩

/-- The first grid with a point, trying `fuel` grids from `10 ^ k` downwards. -/
def searchGrids (v : Magnitude) : Nat → Int → Decimal
  | 0, _ => v.exactDecimal
  | fuel + 1, k =>
    match v.gridPoint? k with
    | some digits => ⟨digits, k⟩
    | none => v.searchGrids fuel (k - 1)

/-- A power of ten above the value. -/
def decimalCeiling (v : Magnitude) : Int :=
  (v.significand.log2 + 1 + v.exponent) * 30103 / 100000 + 1

/-- The shortest decimal that reads back as the value. Seventeen digits always suffice, and the
search starts at most two grids above the first digit. -/
def shortest (v : Magnitude) : Decimal := v.searchGrids 24 v.decimalCeiling

end Magnitude

/-- The text of a floating-point value: a minus sign for negative values and for minus zero, no
exponent, and no point in whole numbers. -/
def BinaryParts.text : BinaryParts → String
  | nan => "NaN"
  | infinite negative => if negative then "-inf" else "inf"
  | finite negative v =>
      let digits := if v.significand = 0 then ['0'] else v.shortest.positional
      String.ofList (if negative then '-' :: digits else digits)

def doubleText (x : Float) : String := (BinaryParts.ofDouble x).text

def singleText (x : Float32) : String := (BinaryParts.ofSingle x).text

end Turnwise
