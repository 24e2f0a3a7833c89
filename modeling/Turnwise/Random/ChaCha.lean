/-!
# The ChaCha generator

A stream of 32-bit words from a 256-bit key: the ChaCha block function with twelve rounds, run over
a 64-bit block counter that starts at zero. A `Generator` is a key together with the number of words
drawn so far, so that drawing advances it by exactly one word.

A block is held as four columns of four words. A double round mixes the columns, then the diagonals;
a diagonal becomes a column when row `r` is rotated by `r` places.
-/

namespace Turnwise.ChaCha

/-- Four words, one below the other. -/
structure Column where
  a : UInt32
  b : UInt32
  c : UInt32
  d : UInt32
  deriving DecidableEq, Repr, Inhabited

/-- Four columns side by side: sixteen words. -/
structure Block where
  first : Column
  second : Column
  third : Column
  fourth : Column
  deriving DecidableEq, Repr, Inhabited

/-- A 256-bit key: the words that fill the second row of a block, then those of the third. -/
structure Key where
  upper : Column
  lower : Column
  deriving DecidableEq, Repr, Inhabited

/-! ### Rounds -/

/-- Rotates a word to the left by fewer than 32 places. -/
def rotateLeft (x n : UInt32) : UInt32 := (x <<< n) ||| (x >>> (32 - n))

/-- Mixes the four words of a column. -/
def Column.mix (x : Column) : Column :=
  let a := x.a + x.b
  let d := rotateLeft (x.d ^^^ a) 16
  let c := x.c + d
  let b := rotateLeft (x.b ^^^ c) 12
  let a := a + b
  let d := rotateLeft (d ^^^ a) 8
  let c := c + d
  let b := rotateLeft (b ^^^ c) 7
  ⟨a, b, c, d⟩

namespace Block

def map (f : Column → Column) (x : Block) : Block :=
  ⟨f x.first, f x.second, f x.third, f x.fourth⟩

/-- Rotates row `r` to the left by `r` places, so that the diagonals become columns. -/
def shear (x : Block) : Block :=
  ⟨⟨x.first.a, x.second.b, x.third.c, x.fourth.d⟩,
    ⟨x.second.a, x.third.b, x.fourth.c, x.first.d⟩,
    ⟨x.third.a, x.fourth.b, x.first.c, x.second.d⟩,
    ⟨x.fourth.a, x.first.b, x.second.c, x.third.d⟩⟩

/-- Undoes `shear`. -/
def unshear (x : Block) : Block :=
  ⟨⟨x.first.a, x.fourth.b, x.third.c, x.second.d⟩,
    ⟨x.second.a, x.first.b, x.fourth.c, x.third.d⟩,
    ⟨x.third.a, x.second.b, x.first.c, x.fourth.d⟩,
    ⟨x.fourth.a, x.third.b, x.second.c, x.first.d⟩⟩

theorem unshear_shear (x : Block) : x.shear.unshear = x := rfl

/-- A round on the columns, then one on the diagonals. -/
def doubleRound (x : Block) : Block := (((x.map Column.mix).shear).map Column.mix).unshear

def add (x y : Block) : Block :=
  let sum (p q : Column) : Column := ⟨p.a + q.a, p.b + q.b, p.c + q.c, p.d + q.d⟩
  ⟨sum x.first y.first, sum x.second y.second, sum x.third y.third, sum x.fourth y.fourth⟩

/-- The sixteen words, row by row. -/
def words (x : Block) : List UInt32 :=
  [x.first.a, x.second.a, x.third.a, x.fourth.a, x.first.b, x.second.b, x.third.b, x.fourth.b,
    x.first.c, x.second.c, x.third.c, x.fourth.c, x.first.d, x.second.d, x.third.d, x.fourth.d]

end Block

/-- The block before the rounds: four constant words, the key, the counter and two zeros. -/
def initial (key : Key) (counter : Nat) : Block :=
  ⟨⟨0x61707865, key.upper.a, key.lower.a, counter.toUInt32⟩,
    ⟨0x3320646e, key.upper.b, key.lower.b, (counter >>> 32).toUInt32⟩,
    ⟨0x79622d32, key.upper.c, key.lower.c, 0⟩,
    ⟨0x6b206574, key.upper.d, key.lower.d, 0⟩⟩

/-- The block of the given number: six double rounds, added to where they started. -/
def block (key : Key) (counter : Nat) : Block :=
  let start := initial key counter
  (Nat.repeat Block.doubleRound 6 start).add start

/-- Word `n` of the key's stream. -/
def word (key : Key) (n : Nat) : UInt32 := (block key (n / 16)).words.getD (n % 16) 0

/-! ### Keys from seeds -/

/-- One step of the 64-bit linear generator that spreads a seed over a key. -/
def seedStep (s : UInt64) : UInt64 := s * 6364136223846793005 + 11634580027462260723

/-- The word that a state of the linear generator gives: its upper half folded down and rotated by
its top five bits. -/
def seedWord (s : UInt64) : UInt32 :=
  let folded := (((s >>> 18) ^^^ s) >>> 27).toUInt32
  let places := (s >>> 59).toUInt32
  if places = 0 then folded else rotateLeft folded (32 - places)

/-- The key of a seed: eight steps of the linear generator, one word each. -/
def Key.ofSeed (seed : UInt64) : Key :=
  let s1 := seedStep seed
  let s2 := seedStep s1
  let s3 := seedStep s2
  let s4 := seedStep s3
  let s5 := seedStep s4
  let s6 := seedStep s5
  let s7 := seedStep s6
  let s8 := seedStep s7
  ⟨⟨seedWord s1, seedWord s2, seedWord s3, seedWord s4⟩,
    ⟨seedWord s5, seedWord s6, seedWord s7, seedWord s8⟩⟩

/-! ### Generators -/

/-- A key and the number of words drawn from its stream. -/
structure Generator where
  key : Key
  drawn : Nat := 0
  deriving DecidableEq, Repr, Inhabited

namespace Generator

def ofSeed (seed : UInt64) : Generator := { key := .ofSeed seed }

def peek (g : Generator) : UInt32 := word g.key g.drawn

def advance (g : Generator) : Generator := { g with drawn := g.drawn + 1 }

end Generator

end Turnwise.ChaCha
