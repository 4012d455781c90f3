/-!
# Binary floating point numbers

Numbers with 53 significant binary digits, infinities, and what is no number. `ofDecimal` is the number
nearest to a decimal fraction; of two that are equally near it is the one with an even significand. All
of it is arithmetic on natural numbers, so nothing is rounded on the way.
-/

namespace BookCatalog

/-- A floating point number. -/
inductive Binary64 where
  /-- The number `significand * 2 ^ exponent`, or its opposite. -/
  | finite (negative : Bool) (significand : Nat) (exponent : Int)
  | infinite (negative : Bool)
  | notANumber
  deriving DecidableEq, Repr, Inhabited

namespace Binary64

/-- The least exponent. -/
def leastExponent : Int := -1074

/-- The greatest exponent. -/
def greatestExponent : Int := 971

/-- The least significand with 53 binary digits. -/
def leastFullSignificand : Nat := 0x10000000000000

/-- A fraction of natural numbers that equals `n * base ^ e`. -/
def scaled (n base : Nat) (e : Int) : Nat × Nat :=
  if 0 ≤ e then (n * Nat.pow base e.toNat, 1) else (n, Nat.pow base (-e).toNat)

/-- The number of decimal digits. -/
def decimalLength (n : Nat) : Nat := (Nat.toDigits 10 n).length

/-- The natural number nearest to `num / den`; a half goes to the even neighbour. -/
def nearest (num den : Nat) : Nat :=
  let whole := num / den
  let rest := num % den
  if 2 * rest < den then whole
  else if den < 2 * rest then whole + 1
  else if whole % 2 = 0 then whole
  else whole + 1

/-- Whether `num / den` is less than `base ^ e`. -/
def isBelowPower (base num den : Nat) (e : Int) : Bool :=
  let (powerNum, powerDen) := scaled 1 base e
  num * powerDen < powerNum * den

/-- The greatest `e` for which `2 ^ e` is at most `num / den`, where neither is zero. -/
def floorLog2 (num den : Nat) : Int :=
  let e := (num.log2 : Int) - den.log2
  if isBelowPower 2 num den e then e - 1 else e

/-- The number with a significand of up to 53 digits, which is infinite when the exponent is too
great. -/
def ofParts (negative : Bool) (significand : Nat) (exponent : Int) : Binary64 :=
  if greatestExponent < exponent then .infinite negative else .finite negative significand exponent

/-- The number nearest to `num / den`, where neither is zero. -/
def ofFraction (negative : Bool) (num den : Nat) : Binary64 :=
  let exponent := max leastExponent (floorLog2 num den - 52)
  let (unitNum, unitDen) := scaled 1 2 exponent
  let significand := nearest (num * unitDen) (den * unitNum)
  if significand = 2 * leastFullSignificand then
    ofParts negative leastFullSignificand (exponent + 1)
  else ofParts negative significand exponent

/-- The number nearest to `n * 10 ^ e`, or its opposite. A decimal that is far out of range is not
worked out. -/
def ofDecimal (negative : Bool) (n : Nat) (e : Int) : Binary64 :=
  let magnitude := (decimalLength n : Int) + e
  if n = 0 || magnitude < -330 then .finite negative 0 leastExponent
  else if 310 < magnitude then .infinite negative
  else
    let (num, den) := scaled n 10 e
    ofFraction negative num den

/-- Whether a number is zero. -/
def isZero : Binary64 → Bool
  | .finite _ significand _ => significand = 0
  | _ => false

end Binary64

end BookCatalog
