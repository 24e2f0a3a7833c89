import Turnwise.Config.Basic
import Turnwise.Random.Weighted

/-!
# Picking the next token

Every session owns one `Sampler`: its parameters, its random generator and the number of tokens
drawn. A row of logits gives the next token in one of two modes.

* With a temperature of at most zero the token with the largest logit is taken, the last of them on
  a tie, and no random word is used.
* Otherwise the finite logits are divided by the temperature and sorted, the first `topK` are kept,
  their exponentials are normalised, the shortest front that reaches `topP` is kept, and one of the
  tokens left is drawn by weight. One random word is used.

A row has one logit at each place of the vocabulary. What is picked is a place, and the token is the
one at this place (`Token.ofPlace`).

A failed attempt leaves the sampler as it was.
-/

namespace Turnwise

open ChaCha (Generator)

/-- One value per place of the vocabulary; larger means more likely. -/
abbrev Logits := List Float32

/-- A place of a row with a number that ranks it. -/
abbrev Scored := Nat × Float32

/-- What a new session samples by: its parameters, and the generator that it starts from if they
name no seed. Nothing fixes that generator, so whoever creates the session brings it along. -/
structure Sampling extends SamplingConfig where
  unseeded : Generator := .ofSeed 0
  deriving DecidableEq, Repr, Inhabited

instance : Coe SamplingConfig Sampling where
  coe config := { config with }

/-- The private sampler of one session. -/
structure Sampler where
  config : SamplingConfig
  generator : Generator
  /-- How many tokens were drawn. -/
  draws : Nat := 0
  deriving DecidableEq, Repr, Inhabited

namespace Sampler

/-- A sampler before its first draw. -/
def ofConfig (sampling : Sampling) : Sampler where
  config := sampling.toSamplingConfig
  generator :=
    match sampling.seed with
    | some seed => .ofSeed seed
    | none => sampling.unseeded

/-- The failure for rows that leave nothing to pick from. -/
def nothingToSample : Error := .sampling "no finite logits to sample from"

def scored (logits : Logits) : List Scored := logits.zipIdx.map fun (logit, place) => (place, logit)

/-! ### Greedy mode -/

/-- The better of two places: the one whose logit ranks higher, the later one on a tie. -/
def better (best next : Scored) : Scored :=
  if totalRank best.2 ≤ totalRank next.2 then next else best

def best? : List Scored → Option Scored
  | [] => none
  | first :: rest => some (rest.foldl better first)

/-- The most likely token of a row. What is not a number never counts; the best logit must be
finite. -/
def argmax (logits : Logits) : Except Error Token :=
  match best? ((scored logits).filter fun item => !item.2.isNaN) with
  | some (place, logit) =>
      if logit.isFinite then .ok (Token.ofPlace place) else .error nothingToSample
  | none => .error nothingToSample

/-! ### Distribution mode -/

/-- The places with finite logits, each with its logit divided by the temperature. -/
def tempered (temperature : Float32) (logits : Logits) : List Scored :=
  ((scored logits).filter fun item => item.2.isFinite).map fun (place, logit) =>
    (place, logit / temperature)

/-- The candidates from the best to the worst. The order among equal ones is open; they keep theirs
here. What is proved of the order is that it permutes the candidates (`ranked_perm`) and that none
is above an earlier one (`pairwise_ranked`), which is so whatever becomes of equal ones. -/
def ranked (candidates : List Scored) : List Scored :=
  candidates.mergeSort fun x y => totalRank y.2 ≤ totalRank x.2

/-- The first `k` candidates, or all of them if `k` is zero. -/
def keepTop (k : Nat) (candidates : List Scored) : List Scored :=
  if k = 0 then candidates else candidates.take k

/-- The exponentials of the candidates' distances from the first one, divided by their sum. -/
def softmax : List Scored → List Scored
  | [] => []
  | candidates@((_, top) :: _) =>
      let weights := candidates.map fun (place, score) => (place, Float32.exp (score - top))
      let total := runningSum 0 weights
      weights.map fun (place, weight) => (place, weight / total)

/-- The shortest front whose weights, added up after `sum`, reach the share; everything if none
does. -/
def nucleus (share sum : Float32) : List Scored → List Scored
  | [] => []
  | (place, weight) :: rest =>
      if share ≤ sum + weight then [(place, weight)]
      else (place, weight) :: nucleus share (sum + weight) rest

/-- The candidates that take part in the draw, with their weights. -/
def shortlist (config : SamplingConfig) (logits : Logits) : List Scored :=
  let weights := softmax (keepTop config.topK (ranked (tempered config.temperature logits)))
  if config.topP < 1 then nucleus config.topP 0 weights else weights

/-- Draws a token of a row by weight. -/
def drawWeighted (sampler : Sampler) (logits : Logits) : Except Error (Token × Generator) :=
  if (tempered sampler.config.temperature logits).isEmpty then .error nothingToSample
  else
    match chooseWeighted sampler.generator (shortlist sampler.config logits) with
    | .ok (place, generator) => .ok (Token.ofPlace place, generator)
    | .error refusal => .error (.sampling s!"invalid distribution: {refusal.message}")

/-! ### Both modes -/

/-- Whether the most likely token is taken without a draw. -/
def isGreedy (sampler : Sampler) : Bool := sampler.config.temperature ≤ 0

def sample (sampler : Sampler) (logits : Logits) : Except Error (Token × Sampler) :=
  if sampler.isGreedy then
    match argmax logits with
    | .ok token => .ok (token, { sampler with draws := sampler.draws + 1 })
    | .error e => .error e
  else
    match sampler.drawWeighted logits with
    | .ok (token, generator) =>
        .ok (token, { sampler with generator, draws := sampler.draws + 1 })
    | .error e => .error e

end Sampler

end Turnwise
