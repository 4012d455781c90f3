import BookCatalog.Text.Fields

/-!
# Punycode

The decoding of an internationalised label: the basic characters stand before the last hyphen, and
the digits after it tell, one variable-length number at a time, which character is inserted where.
-/

namespace BookCatalog.Url.Punycode

open BookCatalog.Text

/-- The value of a digit: letters count from 0 to 25, decimal digits from 26 to 35. -/
def digitValue? (c : Char) : Option Nat :=
  if 'a' ≤ c && c ≤ 'z' then some (c.toNat - 97)
  else if 'A' ≤ c && c ≤ 'Z' then some (c.toNat - 65)
  else if '0' ≤ c && c ≤ '9' then some (c.toNat - 22)
  else none

/-- Divides until the rest is small, counting 36 for every division. -/
def scaled (delta k : Nat) : Nat × Nat :=
  if 455 < delta then scaled (delta / 35) (k + 36) else (delta, k)
termination_by delta
decreasing_by omega

/-- The bias after a number of size `delta` that made the label `count` long. -/
def adapt (delta count : Nat) (isFirst : Bool) : Nat :=
  let damped := if isFirst then delta / 700 else delta / 2
  let (rest, k) := scaled (damped + damped / count) 0
  k + 36 * rest / (rest + 38)

/-- The state between two digits: the characters so far, the code point and the place of the next
one, and how far the number at hand is read. -/
structure State where
  output : List Nat
  codePoint : Nat := 128
  index : Nat := 0
  bias : Nat := 72
  start : Nat := 0
  weight : Nat := 1
  position : Nat := 36

/-- The threshold below which a digit ends its number. -/
def threshold (position bias : Nat) : Nat := min (max (position - bias) 1) 26

/-- Reads one digit. -/
def State.read (s : State) (digit : Nat) : State :=
  let index := s.index + digit * s.weight
  let t := threshold s.position s.bias
  if digit < t then
    let count := s.output.length + 1
    let codePoint := s.codePoint + index / count
    let place := index % count
    { output := s.output.take place ++ codePoint :: s.output.drop place
      codePoint
      index := place + 1
      bias := adapt (index - s.start) count (s.start = 0)
      start := place + 1 }
  else { s with index, weight := s.weight * (36 - t), position := s.position + 36 }

/-- The digits read one after the other; fails at a character that is no digit. -/
def readAll : State → List Char → Option State
  | s, [] => some s
  | s, c :: rest => (digitValue? c).bind fun d => readAll (s.read d) rest

/-- The code points of a label, or none when a number is cut off or a code point is out of range. -/
def decode? (label : List Char) : Option (List Nat) :=
  let (basic, digits) := (splitLast? (· == '-') label).getD ([], label)
  match readAll { output := basic.map Char.toNat } digits with
  | some s =>
    if s.position = 36 && s.output.all fun n => n.isValidChar then some s.output else none
  | none => none

end BookCatalog.Url.Punycode
