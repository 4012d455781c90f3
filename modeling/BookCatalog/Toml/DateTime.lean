import BookCatalog.Text.Source

/-!
# Dates and times

A point in time as TOML writes it: a day, a time of day, or both and perhaps the offset from universal
time. `DateTime.ofWord?` reads one and `DateTime.text` writes it in the one way that is usual: with `T`
between the day and the time, `Z` for universal time, and no zeros at the end of a fraction.
-/

namespace BookCatalog.Toml

/-- A day of a year. -/
structure Day where
  year : Nat
  month : Nat
  day : Nat
  deriving DecidableEq, Repr

/-- A time of a day. Second 60 is a leap second. -/
structure TimeOfDay where
  hour : Nat
  minute : Nat
  second : Nat
  nanosecond : Nat
  deriving DecidableEq, Repr

/-- The offset from universal time. -/
inductive Offset where
  | none
  | universal
  | minutes (n : Int)
  deriving DecidableEq, Repr

/-- A point in time, of which parts may be left open. -/
inductive DateTime where
  | day (d : Day)
  | time (t : TimeOfDay)
  | both (d : Day) (t : TimeOfDay) (offset : Offset)
  deriving DecidableEq, Repr

/-! ## Reading -/

/-- The number of the first `n` characters, which have to be digits, and what follows them. -/
def fixedNumber? (n : Nat) (cs : List Char) : Option (Nat × List Char) :=
  if n ≤ cs.length then (Text.number? 10 (cs.take n)).map (·, cs.drop n) else none

/-- What follows a mark. -/
def after? (mark : Char) : List Char → Option (List Char)
  | c :: rest => if c = mark then some rest else none
  | [] => none

/-- Whether a year has a leap day. -/
def isLeapYear (year : Nat) : Bool := year % 4 = 0 && (year % 100 ≠ 0 || year % 400 = 0)

/-- The number of days of a month. -/
def daysOfMonth (year month : Nat) : Nat :=
  if month = 2 then if isLeapYear year then 29 else 28
  else if month ∈ [4, 6, 9, 11] then 30
  else 31

/-- A day, and what follows it. -/
def Day.read? (cs : List Char) : Option (Day × List Char) := do
  let (year, cs) ← fixedNumber? 4 cs
  let (month, cs) ← fixedNumber? 2 (← after? '-' cs)
  let (day, cs) ← fixedNumber? 2 (← after? '-' cs)
  if 1 ≤ month && month ≤ 12 && 1 ≤ day && day ≤ daysOfMonth year month then
    return (⟨year, month, day⟩, cs)
  else none

/-- The nanoseconds of a fraction of a second. Digits after the ninth do not count. -/
def nanoseconds? (digits : List Char) : Option Nat :=
  let digits := digits.take 9
  (Text.number? 10 digits).map (· * Nat.pow 10 (9 - digits.length))

/-- A time of day, and what follows it. -/
def TimeOfDay.read? (cs : List Char) : Option (TimeOfDay × List Char) := do
  let (hour, cs) ← fixedNumber? 2 cs
  let (minute, cs) ← fixedNumber? 2 (← after? ':' cs)
  let (second, cs) ← fixedNumber? 2 (← after? ':' cs)
  let digits := match cs with
    | '.' :: rest => rest.takeWhile (Text.isDigitOf 10)
    | _ => []
  let cs := if digits.isEmpty then cs else cs.drop (digits.length + 1)
  if hour ≤ 23 && minute ≤ 59 && second ≤ 60 then
    return (⟨hour, minute, second, ← nanoseconds? digits⟩, cs)
  else none

/-- The hours and minutes of an offset as minutes. -/
def offsetMinutes? (cs : List Char) : Option Nat := do
  let (hours, cs) ← fixedNumber? 2 cs
  let (minutes, cs) ← fixedNumber? 2 (← after? ':' cs)
  if hours ≤ 23 && minutes ≤ 59 && cs.isEmpty then return hours * 60 + minutes else none

/-- An offset, which is all of a text. -/
def Offset.ofWord? : List Char → Option Offset
  | [] => some .none
  | ['Z'] => some .universal
  | ['z'] => some .universal
  | '+' :: rest => (offsetMinutes? rest).map fun n => .minutes n
  | '-' :: rest => (offsetMinutes? rest).map fun n => .minutes (-n)
  | _ => none

/-- Whether a character may stand between a day and a time. -/
def dividesDayFromTime (c : Char) : Bool := c == 'T' || c == 't' || c == ' '

/-- The point in time that a word stands for. -/
def DateTime.ofWord? (cs : List Char) : Option DateTime :=
  match Day.read? cs with
  | some (d, []) => some (.day d)
  | some (d, c :: rest) =>
    if dividesDayFromTime c then do
      let (t, rest) ← TimeOfDay.read? rest
      return .both d t (← Offset.ofWord? rest)
    else none
  | none =>
    match TimeOfDay.read? cs with
    | some (t, []) => some (.time t)
    | _ => none

/-! ## Writing -/

/-- A number in at least `width` digits. -/
def padded (width n : Nat) : List Char :=
  let digits := Nat.toDigits 10 n
  List.replicate (width - digits.length) '0' ++ digits

/-- The text of a day. -/
def Day.text (d : Day) : List Char :=
  padded 4 d.year ++ '-' :: padded 2 d.month ++ '-' :: padded 2 d.day

/-- The text of a time of day. -/
def TimeOfDay.text (t : TimeOfDay) : List Char :=
  let fraction := ((padded 9 t.nanosecond).reverse.dropWhile (· == '0')).reverse
  padded 2 t.hour ++ ':' :: padded 2 t.minute ++ ':' :: padded 2 t.second ++
    (if fraction.isEmpty then [] else '.' :: fraction)

/-- The text of an offset. -/
def Offset.text : Offset → List Char
  | .none => []
  | .universal => ['Z']
  | .minutes n =>
    (if n < 0 then '-' else '+') :: padded 2 (n.natAbs / 60) ++ ':' :: padded 2 (n.natAbs % 60)

/-- The text of a point in time. -/
def DateTime.text : DateTime → String
  | .day d => String.ofList d.text
  | .time t => String.ofList t.text
  | .both d t offset => String.ofList (d.text ++ 'T' :: t.text ++ offset.text)

end BookCatalog.Toml
