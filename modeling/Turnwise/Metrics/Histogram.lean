import Turnwise.Number.Shortest

/-!
# Histograms

Observations sorted into buckets. A bucket has an inclusive upper bound and holds the observations
that no earlier bucket takes; what exceeds every bound, and what is not a number, is only in the
total.
-/

namespace Turnwise

/-- Observed values, by bucket. -/
structure Histogram where
  /-- The upper bound of each bucket, increasing, with the number of observations in it. -/
  buckets : List (Float × Nat)
  sum : Float := 0
  count : Nat := 0

namespace Histogram

def ofBounds (bounds : List Float) : Histogram := { buckets := bounds.map fun bound => (bound, 0) }

/-- Counts a value in the first bucket whose bound it does not exceed. -/
def countIn (value : Float) : List (Float × Nat) → List (Float × Nat)
  | [] => []
  | (bound, n) :: rest =>
      if value ≤ bound then (bound, n + 1) :: rest else (bound, n) :: countIn value rest

def observe (h : Histogram) (value : Float) : Histogram where
  buckets := countIn value h.buckets
  sum := h.sum + value
  count := h.count + 1

/-- Each bound with the number of observations in its bucket and all earlier ones, counted on from
`before`. -/
def cumulative (before : Nat) : List (Float × Nat) → List (Float × Nat)
  | [] => []
  | (bound, n) :: rest => (bound, before + n) :: cumulative (before + n) rest

end Histogram

end Turnwise
