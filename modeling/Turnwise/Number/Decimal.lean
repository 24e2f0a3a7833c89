/-!
# Decimal numbers and their texts

A `Decimal` is a natural number times a power of ten. `Decimal.positional` writes it without an
exponent; `Numeral.read?` reads the number syntax that configuration texts use, which allows a sign,
a fraction, an exponent, and names for infinity and for what is not a number.
-/

namespace Turnwise

/-- The number `digits · 10 ^ exponent`. -/
structure Decimal where
  digits : Nat
  exponent : Int
  deriving DecidableEq, Repr

/-- A decimal number written out in full, without an exponent. Zeros fill the places between the
digits and the point; there is a point only if there are digits after it. -/
def Decimal.positional (d : Decimal) : List Char :=
  let digits := (toString d.digits).toList
  if 0 ≤ d.exponent then digits ++ List.replicate d.exponent.toNat '0'
  else
    let places := d.exponent.natAbs
    if places < digits.length then
      digits.take (digits.length - places) ++ '.' :: digits.drop (digits.length - places)
    else '0' :: '.' :: (List.replicate (places - digits.length) '0' ++ digits)

/-! ### Reading integers -/

/-- The value of a digit in a base of at most sixteen. -/
def digitValue? (base : Nat) (c : Char) : Option Nat :=
  let value? :=
    if '0' ≤ c && c ≤ '9' then some (c.toNat - 48)
    else if 'a' ≤ c && c ≤ 'f' then some (c.toNat - 87)
    else if 'A' ≤ c && c ≤ 'F' then some (c.toNat - 55)
    else none
  value?.filter (· < base)

/-- The value of a non-empty list of digits, if all of them are digits in the base. -/
def readNatural? (base : Nat) : List Char → Option Nat
  | [] => none
  | s => s.foldlM (fun n c => (digitValue? base c).map (base * n + ·)) 0

/-- An integer with an optional sign in front of its digits. -/
def readInteger? (base : Nat) : List Char → Option Int
  | '-' :: s => (readNatural? base s).map fun n => -(n : Int)
  | '+' :: s => (readNatural? base s).map Int.ofNat
  | s => (readNatural? base s).map Int.ofNat

/-! ### Reading numerals -/

/-- A number as a text gives it, before it is rounded to any format. -/
inductive Numeral where
  | nan
  | infinite (negative : Bool)
  | finite (negative : Bool) (magnitude : Decimal)
  deriving DecidableEq, Repr

namespace Numeral

/-- The digits at the front of a text, and what follows them. -/
def spanDigits (s : List Char) : List Char × List Char := s.span Char.isDigit

/-- The exponent at the end of a numeral; nothing stands for zero. -/
def readExponent? : List Char → Option Int
  | [] => some 0
  | 'e' :: s | 'E' :: s => readInteger? 10 s
  | _ => none

/-- A magnitude: digits with an optional point among them, at least one digit, and an optional
exponent. -/
def readMagnitude? (s : List Char) : Option Decimal := do
  let (whole, rest) := spanDigits s
  let (fraction, rest) := match rest with
    | '.' :: rest => spanDigits rest
    | _ => ([], rest)
  let digits ← readNatural? 10 (whole ++ fraction)
  let exponent ← readExponent? rest
  some ⟨digits, exponent - fraction.length⟩

/-- A numeral without its sign. Case does not matter in the names of infinity and of what is not a
number. -/
def readUnsigned? (negative : Bool) (s : List Char) : Option Numeral :=
  let name := s.map Char.toLower
  if name = "inf".toList || name = "infinity".toList then some (infinite negative)
  else if name = "nan".toList then some nan
  else (readMagnitude? s).map (finite negative)

def read? : List Char → Option Numeral
  | '-' :: s => readUnsigned? true s
  | '+' :: s => readUnsigned? false s
  | s => readUnsigned? false s

end Numeral

end Turnwise
