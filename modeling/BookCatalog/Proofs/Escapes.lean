import BookCatalog.Url.Percent

/-!
# Text that is written as it is read

The bytes of a text are read back as the text (`decode_encode`). Undoing the escapes of a text without
percent signs changes nothing, and neither does escaping a text in which every character may stand as it
is (`encode_eq_self_iff`).
-/

namespace BookCatalog.Text.Utf8

/-! ## Bytes of a character -/

theorem first_ofNat {n : Nat} (h : n < 256) :
    first (UInt8.ofNat n) =
      if n < 0x80 then .done (Char.ofNat n)
      else if n < 0xC2 then .bad
      else if n < 0xE0 then .more ⟨1, 0x80, 0xBF, n - 0xC0⟩
      else if n = 0xE0 then .more ⟨2, 0xA0, 0xBF, 0⟩
      else if n = 0xED then .more ⟨2, 0x80, 0x9F, 0xD⟩
      else if n < 0xF0 then .more ⟨2, 0x80, 0xBF, n - 0xE0⟩
      else if n = 0xF0 then .more ⟨3, 0x90, 0xBF, 0⟩
      else if n < 0xF4 then .more ⟨3, 0x80, 0xBF, n - 0xF0⟩
      else if n = 0xF4 then .more ⟨3, 0x80, 0x8F, 4⟩
      else .bad := by
  simp [first, UInt8.lt_iff_toNat_lt, ← UInt8.toNat_inj, Nat.mod_eq_of_lt h]

theorem next_ofNat {p : Pending} {n : Nat} (hlo : p.lo.toNat ≤ n) (hhi : n ≤ p.hi.toNat) :
    next p (UInt8.ofNat n) =
      if p.owed ≤ 1 then .done (Char.ofNat (p.bits * 64 + (n - 0x80)))
      else .more ⟨p.owed - 1, 0x80, 0xBF, p.bits * 64 + (n - 0x80)⟩ := by
  have hn : n < 256 := by have := p.hi.toNat_lt; omega
  simp [next, UInt8.le_iff_toNat_le, Nat.mod_eq_of_lt hn, hlo, hhi]

theorem decodeFrom_more {b : UInt8} {p : Pending} (h : first b = .more p) (rest : List UInt8) :
    decodeFrom none (b :: rest) = decodeFrom (some p) rest := by
  simp [decodeFrom, h]

/-- A byte inside a sequence that owes more than this one. -/
theorem decodeFrom_inside {p : Pending} {n : Nat} (howed : 1 < p.owed) (hlo : p.lo.toNat ≤ n)
    (hhi : n ≤ p.hi.toNat) (rest : List UInt8) :
    decodeFrom (some p) (UInt8.ofNat n :: rest) =
      decodeFrom (some ⟨p.owed - 1, 0x80, 0xBF, p.bits * 64 + (n - 0x80)⟩) rest := by
  simp [decodeFrom, next_ofNat hlo hhi, Nat.not_le.2 howed]

/-- The last byte of a sequence. -/
theorem decodeFrom_last {p : Pending} {n : Nat} {c : Char} (howed : p.owed = 1) (hlo : p.lo.toNat ≤ n)
    (hhi : n ≤ p.hi.toNat) (hc : p.bits * 64 + (n - 0x80) = c.toNat) (rest : List UInt8) :
    decodeFrom (some p) (UInt8.ofNat n :: rest) = some c :: decodeFrom none rest := by
  simp [decodeFrom, next_ofNat hlo hhi, howed, hc]

/-- The first of three bytes bounds the second one, so that the number needs three bytes and is no
surrogate. -/
theorem first_of_three {n : Nat} (hlo : 0x800 ≤ n) (hhi : n < 0x10000) (hvalid : n < 0xD800 ∨ 0xDFFF < n) :
    ∃ lo hi : UInt8, first (UInt8.ofNat (n / 4096 % 16 + 224)) = .more ⟨2, lo, hi, n / 4096⟩ ∧
      lo.toNat ≤ n / 64 % 64 + 128 ∧ n / 64 % 64 + 128 ≤ hi.toNat := by
  have hb := first_ofNat (n := n / 4096 % 16 + 224) (by omega)
  rw [if_neg (by omega), if_neg (by omega), if_neg (by omega)] at hb
  by_cases he0 : n / 4096 % 16 + 224 = 0xE0
  · rw [if_pos he0, show 0 = n / 4096 by omega] at hb
    exact ⟨_, _, hb, by simp; omega, by simp; omega⟩
  by_cases hed : n / 4096 % 16 + 224 = 0xED
  · rw [if_neg he0, if_pos hed, show 0xD = n / 4096 by omega] at hb
    exact ⟨_, _, hb, by simp, by simp; omega⟩
  · rw [if_neg he0, if_neg hed, if_pos (by omega),
      show n / 4096 % 16 + 224 - 0xE0 = n / 4096 by omega] at hb
    exact ⟨_, _, hb, by simp, by simp; omega⟩

/-- The first of four bytes bounds the second one, so that the number needs four bytes and is not too
large. -/
theorem first_of_four {n : Nat} (hlo : 0x10000 ≤ n) (hhi : n < 0x110000) :
    ∃ lo hi : UInt8, first (UInt8.ofNat (n / 262144 % 8 + 240)) = .more ⟨3, lo, hi, n / 262144⟩ ∧
      lo.toNat ≤ n / 4096 % 64 + 128 ∧ n / 4096 % 64 + 128 ≤ hi.toNat := by
  have hb := first_ofNat (n := n / 262144 % 8 + 240) (by omega)
  rw [if_neg (by omega), if_neg (by omega), if_neg (by omega), if_neg (by omega), if_neg (by omega),
    if_neg (by omega)] at hb
  by_cases hf0 : n / 262144 % 8 + 240 = 0xF0
  · rw [if_pos hf0, show 0 = n / 262144 by omega] at hb
    exact ⟨_, _, hb, by simp; omega, by simp; omega⟩
  by_cases hf4 : n / 262144 % 8 + 240 = 0xF4
  · rw [if_neg hf0, if_neg (by omega), if_pos hf4, show 4 = n / 262144 by omega] at hb
    exact ⟨_, _, hb, by simp, by simp; omega⟩
  · rw [if_neg hf0, if_pos (by omega), show n / 262144 % 8 + 240 - 0xF0 = n / 262144 by omega] at hb
    exact ⟨_, _, hb, by simp, by simp; omega⟩

/-- The bytes of a character are read as the character, whatever follows them. -/
theorem decodeFrom_encodeChar (c : Char) (rest : List UInt8) :
    decodeFrom none (String.utf8EncodeChar c ++ rest) = some c :: decodeFrom none rest := by
  have hvalid : c.toNat < 0xD800 ∨ 0xDFFF < c.toNat ∧ c.toNat < 0x110000 := c.valid
  unfold String.utf8EncodeChar
  simp only [Char.toNat_val]
  -- the cases are those of the number of bytes
  by_cases h1 : c.toNat ≤ 127
  · have hb := first_ofNat (n := c.toNat) (by omega)
    rw [if_pos (by omega)] at hb
    simp [h1, decodeFrom, hb]
  by_cases h2 : c.toNat ≤ 2047
  · have hb := first_ofNat (n := c.toNat / 64 % 32 + 192) (by omega)
    rw [if_neg (by omega), if_neg (by omega), if_pos (by omega)] at hb
    rw [if_neg h1, if_pos h2, List.cons_append, decodeFrom_more hb]
    exact decodeFrom_last rfl (by simp) (by simp; omega) (by simp; omega) rest
  by_cases h3 : c.toNat ≤ 65535
  · obtain ⟨lo, hi, hb, hlo, hhi⟩ := first_of_three (n := c.toNat) (by omega) (by omega) (by omega)
    rw [if_neg h1, if_neg h2, if_pos h3, List.cons_append, decodeFrom_more hb, List.cons_append,
      decodeFrom_inside (by simp) hlo hhi]
    exact decodeFrom_last rfl (by simp) (by simp; omega) (by simp; omega) rest
  · obtain ⟨lo, hi, hb, hlo, hhi⟩ := first_of_four (n := c.toNat) (by omega) (by omega)
    rw [if_neg h1, if_neg h2, if_neg h3, List.cons_append, decodeFrom_more hb, List.cons_append,
      decodeFrom_inside (by simp) hlo hhi, List.cons_append,
      decodeFrom_inside (by simp) (by simp) (by simp; omega)]
    exact decodeFrom_last rfl (by simp) (by simp; omega) (by simp; omega) rest

/-! ## Bytes of a text -/

theorem decode_encode (cs : List Char) : decode (encode cs) = cs.map some := by
  induction cs with
  | nil => rfl
  | cons c rest ih =>
    unfold decode encode at ih ⊢
    rw [List.flatMap_cons, decodeFrom_encodeChar, ih, List.map_cons]

theorem decodeLossy_encode (cs : List Char) : decodeLossy (encode cs) = cs := by
  simp [decodeLossy, decode_encode, Function.comp_def]

theorem percent_not_mem_encode {cs : List Char} (h : '%' ∉ cs) : (37 : UInt8) ∉ encode cs := by
  intro hm
  obtain ⟨c, hc, hb⟩ := List.mem_flatMap.1 hm
  have hne : c.toNat ≠ 37 := fun he => h (Char.toNat_inj.1 (show c.toNat = '%'.toNat from he) ▸ hc)
  unfold String.utf8EncodeChar at hb
  simp only [Char.toNat_val] at hb
  -- the bytes of a character outside ASCII are 128 and more
  split at hb
  · simp [← UInt8.toNat_inj] at hb; omega
  · split at hb
    · simp [← UInt8.toNat_inj] at hb; omega
    · split at hb <;> · simp [← UInt8.toNat_inj] at hb; omega

end BookCatalog.Text.Utf8

namespace BookCatalog.Url.Percent

open BookCatalog.Text

theorem decodeFrom_of_no_percent {bytes : List UInt8} (h : 37 ∉ bytes) : decodeFrom 0 bytes = bytes := by
  induction bytes with
  | nil => rfl
  | cons b rest ih =>
    rw [List.mem_cons, not_or] at h
    simp [decodeFrom, Ne.symm h.1, ih h.2]

/-- A text without percent signs has no escapes. -/
theorem decodeText_of_no_percent {cs : List Char} (h : '%' ∉ cs) : decodeText cs = cs := by
  unfold decodeText decode
  rw [decodeFrom_of_no_percent (Utf8.percent_not_mem_encode h), Utf8.decodeLossy_encode]

/-- Whether a character stays as it is when text is escaped. -/
def isKept (inSet : Char → Bool) (c : Char) : Bool := !(inSet c || 0x80 ≤ c.toNat)

theorem encodeChar_of_isKept {inSet : Char → Bool} {c : Char} (h : isKept inSet c = true) :
    encodeChar inSet c = [c] := by
  have hc : (inSet c || decide (0x80 ≤ c.toNat)) = false := by simpa [isKept] using h
  rw [encodeChar, hc]
  rfl

/-- An escape is longer than what it stands for. -/
theorem one_lt_length_encodeChar {inSet : Char → Bool} {c : Char} (h : isKept inSet c = false) :
    1 < (encodeChar inSet c).length := by
  have hc : (inSet c || decide (0x80 ≤ c.toNat)) = true := by
    rwa [isKept, Bool.not_eq_false'] at h
  rw [encodeChar, hc, if_pos rfl]
  have hsize : 1 ≤ (String.utf8EncodeChar c).length := by
    rw [String.length_utf8EncodeChar]; exact c.utf8Size_pos
  cases hbytes : String.utf8EncodeChar c with
  | nil => simp [hbytes] at hsize
  | cons b more => simp [escapeByte]

theorem length_le_length_encode (inSet : Char → Bool) (cs : List Char) :
    cs.length ≤ (encode inSet cs).length := by
  induction cs with
  | nil => simp
  | cons c rest ih =>
    have hc : 1 ≤ (encodeChar inSet c).length := by
      cases hk : isKept inSet c with
      | true => simp [encodeChar_of_isKept hk]
      | false => exact Nat.le_of_lt (one_lt_length_encodeChar hk)
    rw [encode, List.flatMap_cons, List.length_append, List.length_cons, ← encode]
    omega

/-- A text stays as it is when it is escaped exactly if each of its characters does. -/
theorem encode_eq_self_iff {inSet : Char → Bool} {cs : List Char} :
    encode inSet cs = cs ↔ ∀ c ∈ cs, isKept inSet c = true := by
  induction cs with
  | nil => simp [encode]
  | cons c rest ih =>
    rw [List.forall_mem_cons, ← ih, encode, List.flatMap_cons, ← encode]
    cases hk : isKept inSet c with
    | true => simp [encodeChar_of_isKept hk]
    | false =>
      simp only [Bool.false_eq_true, false_and, iff_false]
      intro he
      have hlength := congrArg List.length he
      rw [List.length_append, List.length_cons] at hlength
      have hc := one_lt_length_encodeChar hk
      have hrest := length_le_length_encode inSet rest
      omega

end BookCatalog.Url.Percent
