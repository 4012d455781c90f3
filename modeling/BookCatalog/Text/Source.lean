/-!
# Source text

What the readers of files, pages and settings share: bytes read as text, line ends, and numbers written
in digits.
-/

namespace BookCatalog.Text

namespace Utf8

/-! ## UTF-8

Bytes read as text. `decode` gives a character for every well-formed sequence and `none` for every
maximal ill-formed part; `decode?` accepts bytes only when nothing is ill-formed, `decodeLossy` puts
the replacement character in the place of every ill-formed part. -/

/-- A sequence that is begun: how many bytes it still needs, the bounds of the next one, and the bits
so far. -/
structure Pending where
  owed : Nat
  lo : UInt8
  hi : UInt8
  bits : Nat
  deriving Repr, DecidableEq

/-- What a byte does: it completes a character, leaves a sequence begun, or cannot stand there. -/
inductive Step where
  | done (c : Char)
  | more (p : Pending)
  | bad
  deriving Repr

/-- A byte at the start of a sequence. -/
def first (b : UInt8) : Step :=
  if b < 0x80 then .done (Char.ofNat b.toNat)
  else if b < 0xC2 then .bad
  else if b < 0xE0 then .more ⟨1, 0x80, 0xBF, b.toNat - 0xC0⟩
  else if b = 0xE0 then .more ⟨2, 0xA0, 0xBF, 0⟩
  else if b = 0xED then .more ⟨2, 0x80, 0x9F, 0xD⟩
  else if b < 0xF0 then .more ⟨2, 0x80, 0xBF, b.toNat - 0xE0⟩
  else if b = 0xF0 then .more ⟨3, 0x90, 0xBF, 0⟩
  else if b < 0xF4 then .more ⟨3, 0x80, 0xBF, b.toNat - 0xF0⟩
  else if b = 0xF4 then .more ⟨3, 0x80, 0x8F, 4⟩
  else .bad

/-- A byte inside a sequence. -/
def next (p : Pending) (b : UInt8) : Step :=
  if p.lo ≤ b && b ≤ p.hi then
    let bits := p.bits * 64 + (b.toNat - 0x80)
    if p.owed ≤ 1 then .done (Char.ofNat bits) else .more ⟨p.owed - 1, 0x80, 0xBF, bits⟩
  else .bad

/-- The characters of the bytes, with `none` for each maximal ill-formed part; `pending` is the
sequence that is begun. A byte that breaks a sequence off starts the next one. -/
def decodeFrom (pending : Option Pending) : List UInt8 → List (Option Char)
  | [] => if pending.isSome then [none] else []
  | b :: rest =>
    match pending with
    | none =>
      match first b with
      | .done c => some c :: decodeFrom none rest
      | .more p => decodeFrom (some p) rest
      | .bad => none :: decodeFrom none rest
    | some p =>
      match next p b with
      | .done c => some c :: decodeFrom none rest
      | .more p => decodeFrom (some p) rest
      | .bad =>
        none ::
          match first b with
          | .done c => some c :: decodeFrom none rest
          | .more p => decodeFrom (some p) rest
          | .bad => none :: decodeFrom none rest

/-- The characters of the bytes, with `none` for each maximal ill-formed part. -/
def decode (bytes : List UInt8) : List (Option Char) := decodeFrom none bytes

/-- The characters of well-formed bytes. -/
def decode? (bytes : List UInt8) : Option (List Char) := (decode bytes).mapM id

/-- The text of well-formed bytes. -/
def text? (bytes : List UInt8) : Option String := (decode? bytes).map String.ofList

/-- The text of bytes, with a replacement character for each ill-formed part. -/
def decodeLossy (bytes : List UInt8) : List Char := (decode bytes).map (·.getD '\uFFFD')

/-- The bytes of a text. -/
def encode (cs : List Char) : List UInt8 := cs.flatMap String.utf8EncodeChar

end Utf8

/-! ## Line ends

The two things that a reader of markup does to a text before it looks at it. -/

/-- Every line end as a line feed: a carriage return with a line feed after it is one line end. -/
def lineFeeds : List Char → List Char
  | [] => []
  | '\r' :: rest => match rest with
    | '\n' :: _ => lineFeeds rest
    | _ => '\n' :: lineFeeds rest
  | c :: rest => c :: lineFeeds rest

/-- The text without a byte order mark in front. -/
def withoutByteOrderMark : List Char → List Char
  | '\uFEFF' :: rest => rest
  | cs => cs

/-! ## Numbers written in digits

Digits of a base up to 16, where the letters `a` to `f` in either case follow the digit nine, and the
number that a run of digits stands for. -/

/-- The value of a digit in a base up to 16. -/
def digitValue? (base : Nat) (c : Char) : Option Nat :=
  let value :=
    if '0' ≤ c && c ≤ '9' then some (c.toNat - 48)
    else if 'a' ≤ c && c ≤ 'f' then some (c.toNat - 87)
    else if 'A' ≤ c && c ≤ 'F' then some (c.toNat - 55)
    else none
  value.filter (· < base)

/-- Whether a character is a digit in a base up to 16. -/
def isDigitOf (base : Nat) (c : Char) : Bool := (digitValue? base c).isSome

/-- The number that digits stand for; no digits stand for zero. It fails on what is no digit. -/
def number? (base : Nat) (digits : List Char) : Option Nat :=
  digits.foldlM (fun n c => (digitValue? base c).map (n * base + ·)) 0

@[simp] theorem number?_nil (base : Nat) : number? base [] = some 0 := rfl

end BookCatalog.Text
