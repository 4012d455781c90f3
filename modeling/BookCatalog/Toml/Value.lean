import BookCatalog.Binary64
import BookCatalog.Toml.DateTime

/-!
# Values of TOML

What a key of a document stands for, and the values that are written as a single word: truth values,
numbers and points in time. `Value.ofWord?` reads a word.
-/

namespace BookCatalog.Toml

/-- A value. The members of a table have different names. -/
inductive Value where
  | bool (b : Bool)
  | integer (n : Int)
  | float (x : Binary64)
  | string (s : String)
  | dateTime (t : DateTime)
  | array (elements : List Value)
  | table (members : List (String × Value))
  deriving Inhabited, Repr

/-! ## Numbers -/

/-- The digits of a number. An underscore may stand between two of them. -/
def digits? (base : Nat) (cs : List Char) : Option (List Char) :=
  let runs := cs.splitOnP (· == '_')
  if runs.all fun run => !run.isEmpty && run.all (Text.isDigitOf base) then some runs.flatten
  else none

/-- The digits of a decimal number, which has no zero in front unless it is zero. -/
def decimalDigits? (cs : List Char) : Option (List Char) :=
  if cs.head? = some '0' && cs.length ≠ 1 then none else digits? 10 cs

/-- Whether a text has a minus sign in front, and what follows its sign. -/
def signAndRest : List Char → Bool × List Char
  | '-' :: rest => (true, rest)
  | '+' :: rest => (false, rest)
  | cs => (false, cs)

/-- The integer with a sign, if it has at most 64 bits. -/
def boundedInteger? (negative : Bool) (n : Nat) : Option Int :=
  if negative then if n ≤ 0x8000000000000000 then some (-n) else none
  else if n < 0x8000000000000000 then some n else none

/-- An integer in a base other than ten has no sign. -/
def integerInBase? (base : Nat) (cs : List Char) : Option Int := do
  boundedInteger? false (← Text.number? base (← digits? base cs))

/-- The integer that a word stands for. -/
def integer? : List Char → Option Int
  | '0' :: 'x' :: rest => integerInBase? 16 rest
  | '0' :: 'o' :: rest => integerInBase? 8 rest
  | '0' :: 'b' :: rest => integerInBase? 2 rest
  | cs => do
    let (negative, rest) := signAndRest cs
    boundedInteger? negative (← Text.number? 10 (← decimalDigits? rest))

/-- A character of a run of digits. -/
def isDigitOrUnderscore (c : Char) : Bool := Text.isDigitOf 10 c || c == '_'

/-- The digits after a decimal point, if one stands here, and what follows them. -/
def fraction? : List Char → Option (List Char × List Char)
  | '.' :: rest =>
    (digits? 10 (rest.takeWhile isDigitOrUnderscore)).map fun digits =>
      (digits, rest.dropWhile isDigitOrUnderscore)
  | cs => some ([], cs)

/-- The exponent at the end of a number, which is zero when there is none. -/
def exponent? : List Char → Option Int
  | [] => some 0
  | c :: rest =>
    if c = 'e' || c = 'E' then do
      let (negative, rest) := signAndRest rest
      let n ← Text.number? 10 (← digits? 10 rest)
      return if negative then -n else n
    else none

/-- The floating point number that a word stands for. It has a fraction or an exponent. Numbers that
are too large are refused, though not those that are too small. -/
def float? (cs : List Char) : Option Binary64 := do
  let (negative, rest) := signAndRest cs
  if rest = "inf".toList then return .infinite negative
  else if rest = "nan".toList then return .notANumber
  else
    let whole ← decimalDigits? (rest.takeWhile isDigitOrUnderscore)
    let rest := rest.dropWhile isDigitOrUnderscore
    if rest.isEmpty then none
    let (fraction, rest) ← fraction? rest
    let e ← exponent? rest
    let x := Binary64.ofDecimal negative (← Text.number? 10 (whole ++ fraction)) (e - fraction.length)
    if x = .infinite false then none else return x

/-! ## Words -/

/-- The value that a word stands for. -/
def Value.ofWord? (cs : List Char) : Option Value :=
  if cs = "true".toList then some (.bool true)
  else if cs = "false".toList then some (.bool false)
  else
    ((DateTime.ofWord? cs).map .dateTime).or <|
      ((integer? cs).map .integer).or ((float? cs).map .float)

end BookCatalog.Toml
