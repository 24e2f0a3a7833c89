import Turnwise.Number.Binary
import Turnwise.Random.ChaCha

/-!
# Weighted choice

One item of a list is picked with a probability proportional to its weight, by one word of a
generator. All sums and products are rounded to 32 bits, step by step in the order of the list, so
that a choice depends on nothing but the weights and the word.
-/

namespace Turnwise

open ChaCha (Generator)

/-- A word as a number in `[0, 1)`: its upper 23 bits are the fraction of a value in `[1, 2)`. -/
def unitInterval (w : UInt32) : Float32 := Float32.ofBits ((w >>> 9) ||| 0x3f800000) - 1

/-- The largest value of `unitInterval`. -/
def unitIntervalMax : Float32 := unitInterval 0xffffffff

/-- The largest scale, from the given one downwards, under which every point of the unit interval
stays below the total. Rounding makes two steps enough for the totals that occur. -/
def lowerScale (total : Float32) : Nat → Float32 → Float32
  | 0, scale => scale
  | fuel + 1, scale =>
      if total ≤ scale * unitIntervalMax then lowerScale total fuel (nextBelow scale) else scale

/-- The item in whose share of the total the point lies: the first whose running sum exceeds the
point, or else the last. `before` is the sum of the weights already passed. -/
def itemAt (point before : Float32) (item : α) (weight : Float32) : List (α × Float32) → α
  | [] => item
  | (next, nextWeight) :: rest =>
      if before + weight ≤ point then itemAt point (before + weight) next nextWeight rest
      else item

/-- The sum of the weights after `before`. -/
def runningSum (before : Float32) (items : List (α × Float32)) : Float32 :=
  items.foldl (fun sum item => sum + item.2) before

/-- Why there is nothing to choose from. -/
inductive WeightsError where
  | noItem
  | invalidWeight
  | allZero
  deriving DecidableEq, Repr

def WeightsError.message : WeightsError → String
  | noItem => "No weights provided in distribution"
  | invalidWeight => "A weight is invalid in distribution"
  | allZero => "All weights are zero in distribution"

/-- Picks an item by one word of the generator. Nothing is drawn if the weights are refused, which
they are unless there is one, all are at least zero and some are not zero. -/
def chooseWeighted (g : Generator) (items : List (α × Float32)) :
    Except WeightsError (α × Generator) :=
  match items with
  | [] => .error .noItem
  | (item, weight) :: rest =>
      if !(items.all fun item => 0 ≤ item.2) then .error .invalidWeight
      else
        let total := runningSum weight rest
        if total == 0 then .error .allZero
        else
          let point := unitInterval g.peek * lowerScale total 64 total
          .ok (itemAt point 0 item weight rest, g.advance)

end Turnwise
