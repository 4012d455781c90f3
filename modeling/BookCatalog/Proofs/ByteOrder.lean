import BookCatalog.Text.Source
import Mathlib.Algebra.Order.Ring.Nat
import Mathlib.Data.List.Basic

/-!
# The order of texts and the order of their bytes

Texts are compared character by character. The same order comes out when their bytes are compared one by
one (`encode_lt_encode_iff`): of two characters the greater one has the greater first byte, or else they have
equally many bytes and the order is that of the digits in the later ones.
-/

namespace BookCatalog.Text.Utf8

theorem ofNat_cons_lt_iff {m n : Nat} (hm : m < 256) (hn : n < 256) {r r' : List UInt8} :
    UInt8.ofNat m :: r < UInt8.ofNat n :: r' ↔ m < n ∨ m = n ∧ r < r' := by
  rw [List.cons_lt_cons_iff, UInt8.lt_iff_toNat_lt, ← UInt8.toNat_inj]
  simp [Nat.mod_eq_of_lt hm, Nat.mod_eq_of_lt hn]

/-! ## Bytes of a character -/

/-- The bytes that follow the first one of a character: the last digits of its number to the base 64. -/
def digitBytes (n : Nat) : Nat → List UInt8
  | 0 => []
  | count + 1 => UInt8.ofNat (n / 64 ^ count % 64 + 128) :: digitBytes n count

/-- Digits stand in the order of the numbers that they are digits of. -/
theorem digitBytes_append_lt {m n : Nat} {r r' : List UInt8} : ∀ {count : Nat},
    m % 64 ^ count < n % 64 ^ count → digitBytes m count ++ r < digitBytes n count ++ r'
  | 0, h => by simp [Nat.mod_one] at h
  | count + 1, h => by
    rw [Nat.mod_pow_succ, Nat.mod_pow_succ] at h
    unfold digitBytes
    rw [List.cons_append, List.cons_append, ofNat_cons_lt_iff (by omega) (by omega)]
    have hn : n % 64 ^ count < 64 ^ count := Nat.mod_lt _ (Nat.pow_pos (by decide))
    obtain hd | hd | hd := Nat.lt_trichotomy (m / 64 ^ count % 64) (n / 64 ^ count % 64)
    · exact .inl (by omega)
    · rw [hd] at h ⊢
      exact .inr ⟨rfl, digitBytes_append_lt (by omega)⟩
    · have hle := Nat.mul_le_mul_left (64 ^ count) (Nat.succ_le_of_lt hd)
      rw [Nat.mul_succ] at hle
      omega

/-- How many bytes follow the first one of a character. -/
def followers (n : Nat) : Nat := if n ≤ 127 then 0 else if n ≤ 2047 then 1 else if n ≤ 65535 then 2 else 3

/-- The first byte of a character, as a number. -/
def firstByte (n : Nat) : Nat :=
  if n ≤ 127 then n else if n ≤ 2047 then n / 64 + 192 else if n ≤ 65535 then n / 4096 + 224
  else n / 262144 + 240

theorem toNat_lt (c : Char) : c.toNat < 0x110000 := by
  have hvalid : c.toNat < 0xD800 ∨ 0xDFFF < c.toNat ∧ c.toNat < 0x110000 := c.valid
  omega

theorem encodeChar_eq (c : Char) : String.utf8EncodeChar c =
    UInt8.ofNat (firstByte c.toNat) :: digitBytes c.toNat (followers c.toNat) := by
  have hlt := toNat_lt c
  unfold String.utf8EncodeChar firstByte followers
  simp only [Char.toNat_val]
  split
  · rfl
  split
  · simp [digitBytes, Nat.mod_eq_of_lt (show c.toNat / 64 < 32 by omega)]
  split
  · simp [digitBytes, Nat.mod_eq_of_lt (show c.toNat / 4096 < 16 by omega)]
  · simp [digitBytes, Nat.mod_eq_of_lt (show c.toNat / 262144 < 8 by omega)]

/-- Of two characters the greater one has the greater first byte, or they differ in the later bytes. -/
theorem firstByte_lt_or {m n : Nat} (h : m < n) :
    firstByte m < firstByte n ∨ firstByte m = firstByte n ∧ followers m = followers n ∧
      m % 64 ^ followers n < n % 64 ^ followers n := by
  unfold firstByte followers
  split_ifs <;> omega

/-- The bytes of a smaller character come first, whatever follows them. -/
theorem encodeChar_append_lt {c d : Char} (h : c < d) (r r' : List UInt8) :
    String.utf8EncodeChar c ++ r < String.utf8EncodeChar d ++ r' := by
  have hc := toNat_lt c
  have hd := toNat_lt d
  have hfirst (n : Nat) (hn : n < 0x110000) : firstByte n < 256 := by unfold firstByte; split_ifs <;> omega
  rw [encodeChar_eq, encodeChar_eq, List.cons_append, List.cons_append,
    ofNat_cons_lt_iff (hfirst _ hc) (hfirst _ hd)]
  have hlt : c.toNat < d.toNat := h
  refine (firstByte_lt_or hlt).imp_right fun ⟨heq, hcount, hmod⟩ => ⟨heq, ?_⟩
  rw [hcount]
  exact digitBytes_append_lt hmod

/-! ## Bytes of a text -/

theorem encode_cons (c : Char) (cs : List Char) :
    encode (c :: cs) = String.utf8EncodeChar c ++ encode cs := List.flatMap_cons

theorem encode_lt_encode : ∀ {cs ds : List Char}, cs < ds → encode cs < encode ds
  | [], [], h => absurd h (List.lt_irrefl _)
  | [], d :: ds, _ => by
    rw [encode_cons, encodeChar_eq]
    exact List.nil_lt_cons _ _
  | _ :: _, [], h => absurd h (List.not_lt_nil _)
  | c :: cs, d :: ds, h => by
    rw [encode_cons, encode_cons]
    obtain hlt | ⟨rfl, hlt⟩ := List.cons_lt_cons_iff.1 h
    · exact encodeChar_append_lt hlt _ _
    · exact List.append_left_lt (encode_lt_encode hlt)

/-- Texts stand in the order of their bytes. -/
theorem encode_lt_encode_iff {s t : String} : encode s.toList < encode t.toList ↔ s < t := by
  refine ⟨fun h => ?_, fun h => encode_lt_encode (String.lt_iff.1 h)⟩
  by_contra hle
  obtain hlt | heq := List.le_iff_lt_or_eq.1 (String.not_lt.1 hle)
  · exact List.lt_asymm h (encode_lt_encode hlt)
  · rw [heq] at h
    exact List.lt_irrefl _ h

end BookCatalog.Text.Utf8
