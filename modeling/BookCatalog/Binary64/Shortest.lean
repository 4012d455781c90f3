import BookCatalog.Binary64

/-!
# The text of a floating point number

A finite number is written with the fewest decimal digits that read back as the same number, and of
those that are as few with the ones nearest to it. The digits stand around the decimal point without
an exponent.
-/

namespace BookCatalog.Binary64

/-- The greatest `e` for which `10 ^ e` is at most `num / den`, where neither is zero. -/
def floorLog10 (num den : Nat) : Int :=
  let e := (decimalLength num : Int) - decimalLength den
  if isBelowPower 10 num den e then e - 1 else e

/-- Compares two fractions. -/
def compareFractions (a b : Nat × Nat) : Ordering := compare (a.1 * b.2) (b.1 * a.2)

/-- Whether a fraction lies among the numbers that are read as `significand * 2 ^ exponent`. They reach
half way to the neighbours, and the ends belong to them when the significand is even. Below a power of
two the neighbour is nearer. -/
def readsBack (significand : Nat) (exponent : Int) (x : Nat × Nat) : Bool :=
  let below := if significand = leastFullSignificand && leastExponent < exponent then 1 else 2
  let low := scaled (4 * significand - below) 2 (exponent - 2)
  let high := scaled (4 * significand + 2) 2 (exponent - 2)
  if significand % 2 = 0 then (compareFractions low x).isLE && (compareFractions x high).isLE
  else (compareFractions low x).isLT && (compareFractions x high).isLT

/-- The decimal `n * 10 ^ e` that reads back, where `10 ^ e` is the place of the last digit: of the two
around the number the one that does, and when both do the nearer one or else the even one. -/
def decimalAt? (significand : Nat) (exponent e : Int) : Option Nat :=
  let value := scaled significand 2 exponent
  let (unitNum, unitDen) := scaled 1 10 e
  let n := value.1 * unitDen / (value.2 * unitNum)
  let reads (n : Nat) : Bool := readsBack significand exponent (scaled n 10 e)
  match reads n, reads (n + 1) with
  | true, true => some (nearest (value.1 * unitDen) (value.2 * unitNum))
  | true, false => some n
  | false, true => some (n + 1)
  | false, false => none

/-- The most decimal digits that a number needs. -/
def mostDigits : Nat := 17

/-- The shortest decimal that reads back, as its digits and the place of the last one. The number is
not zero. -/
def shortest (significand : Nat) (exponent : Int) : Nat × Int :=
  let value := scaled significand 2 exponent
  let top := floorLog10 value.1 value.2
  let places := (List.range mostDigits).map fun (k : Nat) => top - (k : Int)
  (places.findSome? fun e =>
    (decimalAt? significand exponent e).map fun n => (n, e)).getD (0, 0)

/-- The decimal `n * 10 ^ e` without an exponent and without zeros at the end of its fraction. -/
def positional (n : Nat) (e : Int) : List Char :=
  let digits := Nat.toDigits 10 n
  if 0 ≤ e then digits ++ List.replicate e.toNat '0'
  else
    let places := (-e).toNat
    let all := List.replicate (places + 1 - digits.length) '0' ++ digits
    let whole := all.take (all.length - places)
    let fraction := ((all.drop (all.length - places)).reverse.dropWhile (· == '0')).reverse
    if fraction.isEmpty then whole else whole ++ '.' :: fraction

/-- A text with the sign of a number in front. -/
def signed (negative : Bool) (cs : List Char) : String :=
  String.ofList (if negative then '-' :: cs else cs)

/-- The text of a number. -/
def text : Binary64 → String
  | .finite negative 0 _ => signed negative ['0']
  | .finite negative significand exponent =>
    let (n, e) := shortest significand exponent
    signed negative (positional n e)
  | .infinite negative => signed negative ['i', 'n', 'f']
  | .notANumber => "NaN"

end BookCatalog.Binary64
