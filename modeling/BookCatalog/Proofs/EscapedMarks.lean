import BookCatalog.Proofs.Escapes
import Mathlib

/-!
# Number signs in text with escapes

Undoing the escapes of a text can bring up a character that does not stand in it. A number sign comes up in
one way only: it stands in the text, or its escape `%23` does (`numberSign_of_mem_decodeText`). No part of a
longer character is taken for it, since all bytes of such a character are 128 and more.
-/

namespace BookCatalog.Text.Utf8

/-! ## Characters of ASCII among bytes -/

/-- A begun sequence whose character, when it is complete, is outside ASCII. -/
structure Pending.IsWide (p : Pending) : Prop where
  owed_pos : 0 < p.owed
  le_lo : 0x80 ≤ p.lo.toNat
  le_number : 0x80 ≤ p.bits * 64 ^ p.owed + (p.lo.toNat - 0x80) * 64 ^ (p.owed - 1)

/-- A first byte that is no character of ASCII begins a character outside it. -/
theorem isWide_of_first {b : UInt8} {p : Pending} (h : first b = .more p) : p.IsWide := by
  obtain ⟨n, hn, rfl⟩ : ∃ n < 256, b = UInt8.ofNat n := ⟨b.toNat, b.toNat_lt, by simp⟩
  rw [first_ofNat hn] at h
  split_ifs at h <;> cases h <;> refine ⟨by simp, by simp, ?_⟩ <;> simp <;> omega

theorem first_eq_done {b : UInt8} {c : Char} (h : first b = .done c) :
    b.toNat < 0x80 ∧ c = Char.ofNat b.toNat := by
  obtain ⟨n, hn, rfl⟩ : ∃ n < 256, b = UInt8.ofNat n := ⟨b.toNat, b.toNat_lt, by simp⟩
  rw [first_ofNat hn] at h
  split_ifs at h with hascii
  cases h
  simpa [Nat.mod_eq_of_lt hn] using hascii

section
variable {p : Pending} {b : UInt8}

theorem lo_le_of_next_ne_bad (h : next p b ≠ .bad) : p.lo.toNat ≤ b.toNat ∧ b.toNat ≤ p.hi.toNat := by
  by_contra hout
  refine h (if_neg ?_)
  simpa [UInt8.le_iff_toNat_le] using hout

/-- The number that a byte inside a sequence adds to is no smaller than the least one. -/
theorem le_number_of_next (hp : p.IsWide) (hlo : p.lo.toNat ≤ b.toNat) :
    0x80 ≤ (p.bits * 64 + (b.toNat - 0x80)) * 64 ^ (p.owed - 1) := by
  obtain ⟨howed, -, hnumber⟩ := hp
  have hpow : 64 ^ p.owed = 64 * 64 ^ (p.owed - 1) := by
    rw [← Nat.pow_succ', Nat.succ_eq_add_one, Nat.sub_add_cancel howed]
  calc 0x80 ≤ p.bits * 64 ^ p.owed + (p.lo.toNat - 0x80) * 64 ^ (p.owed - 1) := hnumber
    _ ≤ p.bits * 64 ^ p.owed + (b.toNat - 0x80) * 64 ^ (p.owed - 1) :=
      Nat.add_le_add_left (Nat.mul_le_mul_right _ (Nat.sub_le_sub_right hlo _)) _
    _ = (p.bits * 64 + (b.toNat - 0x80)) * 64 ^ (p.owed - 1) := by
      rw [hpow, Nat.add_mul, Nat.mul_assoc]

/-- What a byte inside a sequence brings about, and the number that the sequence has then. -/
theorem next_eq (hp : p.IsWide) (h : next p b ≠ .bad) :
    0x80 ≤ (p.bits * 64 + (b.toNat - 0x80)) * 64 ^ (p.owed - 1) ∧
      next p b = if p.owed ≤ 1 then .done (Char.ofNat (p.bits * 64 + (b.toNat - 0x80)))
        else .more ⟨p.owed - 1, 0x80, 0xBF, p.bits * 64 + (b.toNat - 0x80)⟩ := by
  obtain ⟨hlo, hhi⟩ := lo_le_of_next_ne_bad h
  have hnext := next_ofNat hlo hhi
  rw [UInt8.ofNat_toNat] at hnext
  exact ⟨le_number_of_next hp hlo, hnext⟩

theorem isWide_of_next {q : Pending} (hp : p.IsWide) (h : next p b = .more q) : q.IsWide := by
  obtain ⟨hnumber, hnext⟩ := next_eq (b := b) hp (by simp [h])
  rw [h] at hnext
  split at hnext
  · cases hnext
  · rename_i howed
    cases hnext
    exact ⟨by simp; omega, by simp, by simpa using hnumber⟩

theorem exists_of_next_done {c : Char} (hp : p.IsWide) (h : next p b = .done c) :
    ∃ n, 0x80 ≤ n ∧ c = Char.ofNat n := by
  obtain ⟨hnumber, hnext⟩ := next_eq (b := b) hp (by simp [h])
  rw [h] at hnext
  split at hnext
  · rename_i howed
    have hone : p.owed - 1 = 0 := by omega
    rw [hone, Nat.pow_zero, Nat.mul_one] at hnumber
    exact ⟨_, hnumber, Step.done.inj hnext⟩
  · cases hnext

end

/-- A number of 128 and more is that of no character of ASCII, except when it is the number of none and
stands for the null character. -/
theorem ofNat_ne_of_le {n : Nat} (hn : 0x80 ≤ n) {c : Char} (hpos : 0 < c.toNat) (hc : c.toNat < 0x80) :
    Char.ofNat n ≠ c := by
  rintro rfl
  rw [Char.toNat_ofNat] at hpos hc
  split at hpos
  · rename_i hvalid
    rw [if_pos hvalid] at hc
    exact absurd hc (Nat.not_lt.2 hn)
  · exact absurd hpos (Nat.lt_irrefl 0)

/-- At the start of a sequence a byte is the character, or the character comes out of what follows. -/
theorem mem_of_mem_decodeFrom_none {c : Char} {b : UInt8} {rest : List UInt8}
    (h : some c ∈ decodeFrom none (b :: rest)) :
    b = UInt8.ofNat c.toNat ∨ ∃ pending : Option Pending, (∀ p ∈ pending, p.IsWide) ∧
      some c ∈ decodeFrom pending rest := by
  rw [decodeFrom] at h
  cases hfirst : first b with
  | done d =>
    obtain ⟨hb, rfl⟩ := first_eq_done hfirst
    rw [hfirst] at h
    rcases List.mem_cons.1 h with h | h
    · left
      have hvalid : b.toNat.isValidChar := .inl (by omega)
      rw [Option.some.inj h, Char.toNat_ofNat, if_pos hvalid, UInt8.ofNat_toNat]
    · exact .inr ⟨none, by simp, h⟩
  | more p =>
    rw [hfirst] at h
    exact .inr ⟨some p, fun q hq => Option.mem_some.1 hq ▸ isWide_of_first hfirst, h⟩
  | bad =>
    rw [hfirst] at h
    exact .inr ⟨none, by simp, by simpa using h⟩

section
variable {c : Char} (hpos : 0 < c.toNat) (hc : c.toNat < 0x80)
include hpos hc

/-- Inside a sequence, too: a byte that breaks the sequence off starts the next one. -/
theorem mem_of_mem_decodeFrom_cons {b : UInt8} {rest : List UInt8} {pending : Option Pending}
    (hwide : ∀ p ∈ pending, p.IsWide) (h : some c ∈ decodeFrom pending (b :: rest)) :
    b = UInt8.ofNat c.toNat ∨ ∃ pending' : Option Pending, (∀ p ∈ pending', p.IsWide) ∧
      some c ∈ decodeFrom pending' rest := by
  cases pending with
  | none => exact mem_of_mem_decodeFrom_none h
  | some p =>
    have hp : p.IsWide := hwide p rfl
    rw [decodeFrom] at h
    cases hnext : next p b with
    | done d =>
      obtain ⟨n, hn, rfl⟩ := exists_of_next_done hp hnext
      rw [hnext] at h
      rcases List.mem_cons.1 h with h | h
      · exact absurd (Option.some.inj h).symm (ofNat_ne_of_le hn hpos hc)
      · exact .inr ⟨none, by simp, h⟩
    | more q =>
      rw [hnext] at h
      exact .inr ⟨some q, fun r hr => Option.mem_some.1 hr ▸ isWide_of_next hp hnext, h⟩
    | bad =>
      rw [hnext] at h
      refine mem_of_mem_decodeFrom_none ?_
      rw [decodeFrom]
      exact (List.mem_cons.1 h).resolve_left (by simp)

/-- A character of ASCII that comes out of bytes is one of them. -/
theorem mem_of_mem_decodeFrom : ∀ {bytes : List UInt8} {pending : Option Pending},
    (∀ p ∈ pending, p.IsWide) → some c ∈ decodeFrom pending bytes → UInt8.ofNat c.toNat ∈ bytes
  | [], pending, _, h => by
    rw [decodeFrom] at h
    split at h <;> simp at h
  | b :: rest, pending, hwide, h => by
    rcases mem_of_mem_decodeFrom_cons hpos hc hwide h with rfl | ⟨pending', hwide', h⟩
    · exact List.mem_cons_self
    · exact List.mem_cons_of_mem b (mem_of_mem_decodeFrom hwide' h)

theorem mem_of_mem_decodeLossy {bytes : List UInt8} (h : c ∈ decodeLossy bytes) :
    UInt8.ofNat c.toNat ∈ bytes := by
  obtain ⟨d, hd, rfl⟩ := List.mem_map.1 h
  cases d with
  | none => exact absurd hc (by decide)
  | some d => exact mem_of_mem_decodeFrom hpos hc (by simp) hd

end

/-! ## Bytes of ASCII among characters -/

theorem encodeChar_cases (c : Char) :
    c.toNat < 0x80 ∧ String.utf8EncodeChar c = [UInt8.ofNat c.toNat] ∨
      ∀ b ∈ String.utf8EncodeChar c, 0x80 ≤ b.toNat := by
  unfold String.utf8EncodeChar
  simp only [Char.toNat_val]
  split
  · exact .inl ⟨by omega, rfl⟩
  · refine .inr ?_
    split
    · simp; omega
    · split <;> · simp; omega

theorem ofNat_toNat_inj {c d : Char} (hc : c.toNat < 0x80) (hd : d.toNat < 0x80)
    (h : UInt8.ofNat c.toNat = UInt8.ofNat d.toNat) : c = d := by
  have hbytes : c.toNat % 256 = d.toNat % 256 := by simpa [← UInt8.toNat_inj] using h
  rw [Nat.mod_eq_of_lt (by omega), Nat.mod_eq_of_lt (by omega)] at hbytes
  exact Char.toNat_inj.1 hbytes

/-- A text is cut where its bytes are cut at a character of ASCII. -/
theorem exists_of_encode_eq_append_cons {c : Char} (hc : c.toNat < 0x80) {after : List UInt8} :
    ∀ {cs : List Char} {before : List UInt8}, encode cs = before ++ UInt8.ofNat c.toNat :: after →
      ∃ front back, cs = front ++ c :: back ∧ encode front = before ∧ encode back = after
  | [], before, h => by simp [encode] at h
  | d :: rest, before, h => by
    have hcons : encode (d :: rest) = String.utf8EncodeChar d ++ encode rest := List.flatMap_cons
    rw [hcons] at h
    -- the cut is after the bytes of the first character, or it is the only one of them
    have hlater (more : List UInt8) (hbefore : before = String.utf8EncodeChar d ++ more)
        (hrest : encode rest = more ++ UInt8.ofNat c.toNat :: after) :
        ∃ front back, d :: rest = front ++ c :: back ∧ encode front = before ∧ encode back = after := by
      obtain ⟨front, back, rfl, hfront, hback⟩ := exists_of_encode_eq_append_cons hc hrest
      refine ⟨d :: front, back, rfl, ?_, hback⟩
      rw [hbefore, ← hfront]
      exact List.flatMap_cons
    rcases List.append_eq_append_iff.1 h with ⟨more, hbefore, hrest⟩ | ⟨inside, hinside, hrest⟩
    · exact hlater more hbefore hrest
    · cases inside with
      | nil =>
        rw [List.append_nil] at hinside
        exact hlater [] (by rw [List.append_nil, hinside]) hrest.symm
      | cons b inside =>
        obtain ⟨hb, hafter⟩ := List.cons.inj hrest
        rcases encodeChar_cases d with ⟨hd, hsingle⟩ | hwide
        · obtain ⟨rfl, hbyte⟩ : before = [] ∧ [UInt8.ofNat d.toNat] = b :: inside := by
            rw [hsingle] at hinside
            cases before with
            | nil => exact ⟨rfl, hinside⟩
            | cons x before => simp at hinside
          obtain ⟨hfirst, rfl⟩ := List.cons.inj hbyte
          obtain rfl := ofNat_toNat_inj hd hc (hfirst.trans hb.symm)
          exact ⟨[], rest, rfl, rfl, hafter.symm⟩
        · have hb' : 0x80 ≤ b.toNat := hwide b (by simp [hinside])
          rw [← hb, UInt8.toNat_ofNat'] at hb'
          omega

theorem mem_of_mem_encode {c : Char} (hc : c.toNat < 0x80) {cs : List Char}
    (h : UInt8.ofNat c.toNat ∈ encode cs) : c ∈ cs := by
  obtain ⟨before, after, hcut⟩ := List.append_of_mem h
  obtain ⟨front, back, rfl, -, -⟩ := exists_of_encode_eq_append_cons hc hcut
  exact List.mem_append_right front List.mem_cons_self

theorem eq_nil_of_encode_eq_nil {cs : List Char} (h : encode cs = []) : cs = [] := by
  cases cs with
  | nil => rfl
  | cons c rest =>
    have hc : String.utf8EncodeChar c = [] := List.flatMap_eq_nil_iff.1 h c List.mem_cons_self
    exact absurd hc String.utf8EncodeChar_ne_nil

/-- A text begins with characters of ASCII when its bytes begin with theirs. -/
theorem exists_of_encode_eq_map_append {after : List UInt8} : ∀ {marks cs : List Char},
    (∀ c ∈ marks, c.toNat < 0x80) → encode cs = marks.map (UInt8.ofNat ·.toNat) ++ after →
      ∃ back, cs = marks ++ back
  | [], cs, _, _ => ⟨cs, rfl⟩
  | c :: more, cs, hmarks, h => by
    obtain ⟨hc, hmore⟩ := List.forall_mem_cons.1 hmarks
    have hcut : encode cs = [] ++ UInt8.ofNat c.toNat :: (more.map (UInt8.ofNat ·.toNat) ++ after) := h
    obtain ⟨front, rest, rfl, hfront, hrest⟩ := exists_of_encode_eq_append_cons hc hcut
    obtain rfl := eq_nil_of_encode_eq_nil hfront
    obtain ⟨back, rfl⟩ := exists_of_encode_eq_map_append hmore hrest
    exact ⟨back, rfl⟩

/-- Characters of ASCII stand in a text when their bytes stand in its bytes. -/
theorem isInfix_of_isInfix_encode {c : Char} {marks : List Char} (hmarks : ∀ d ∈ c :: marks, d.toNat < 0x80)
    {cs : List Char} (h : (c :: marks).map (UInt8.ofNat ·.toNat) <:+: encode cs) : c :: marks <:+: cs := by
  obtain ⟨hc, hmore⟩ := List.forall_mem_cons.1 hmarks
  obtain ⟨before, after, hcut⟩ := h
  rw [List.map_cons, List.append_assoc, List.cons_append] at hcut
  obtain ⟨front, rest, rfl, -, hrest⟩ := exists_of_encode_eq_append_cons hc hcut.symm
  obtain ⟨back, rfl⟩ := exists_of_encode_eq_map_append hmore hrest
  exact ⟨front, back, by simp⟩

end BookCatalog.Text.Utf8

namespace BookCatalog.Url.Percent

open BookCatalog.Text

/-! ## Undoing escapes -/

/-- A digit has a value below 16, and a value below 10 is that of one digit alone. -/
theorem hexValue?_eq_some {b v : UInt8} (h : hexValue? b = some v) :
    v.toNat < 16 ∧ (v.toNat < 10 → b.toNat = v.toNat + 48) := by
  have hvalue {low high : UInt8} (base : UInt8) (hbase : base ≤ low) (hb : low ≤ b ∧ b ≤ high) :
      (b - base).toNat = b.toNat - base.toNat ∧ low.toNat ≤ b.toNat ∧ b.toNat ≤ high.toNat :=
    ⟨UInt8.toNat_sub_of_le b base (UInt8.le_trans hbase hb.1), UInt8.le_iff_toNat_le.1 hb.1,
      UInt8.le_iff_toNat_le.1 hb.2⟩
  unfold hexValue? at h
  simp only [Bool.and_eq_true, decide_eq_true_eq] at h
  split_ifs at h with hdigit hupper hlower
  · cases h
    obtain ⟨hsub, hlow, hhigh⟩ := hvalue 48 (by decide) hdigit
    simp only [UInt8.reduceToNat] at hsub hlow hhigh
    omega
  · cases h
    obtain ⟨hsub, hlow, hhigh⟩ := hvalue 55 (by decide) hupper
    simp only [UInt8.reduceToNat] at hsub hlow hhigh
    omega
  · cases h
    obtain ⟨hsub, hlow, hhigh⟩ := hvalue 87 (by decide) hlower
    simp only [UInt8.reduceToNat] at hsub hlow hhigh
    omega

/-- The byte of the number sign is that of one escape alone. -/
theorem exists_of_escaped?_eq_numberSign {bytes : List UInt8} (h : escaped? bytes = some 35) :
    ∃ more, bytes = 50 :: 51 :: more := by
  unfold escaped? at h
  split at h
  · rename_i high low more
    obtain ⟨v, hv, h⟩ := Option.bind_eq_some_iff.1 h
    obtain ⟨w, hw, h⟩ := Option.bind_eq_some_iff.1 h
    obtain ⟨hv16, hhigh⟩ := hexValue?_eq_some hv
    obtain ⟨hw16, hlow⟩ := hexValue?_eq_some hw
    have hsum : (v.toNat * 16 + w.toNat) % 256 = 35 := by
      simpa [← UInt8.toNat_inj] using h
    have hhigh50 : high.toNat = 50 := by omega
    have hlow51 : low.toNat = 51 := by omega
    obtain rfl : high = 50 := UInt8.toNat_inj.1 hhigh50
    obtain rfl : low = 51 := UInt8.toNat_inj.1 hlow51
    exact ⟨more, rfl⟩
  · cases h

/-- The byte of a number sign comes up where it stands, or from its escape. -/
theorem mem_decodeFrom_numberSign : ∀ {bytes : List UInt8} {skip : Nat}, 35 ∈ decodeFrom skip bytes →
    35 ∈ bytes ∨ [37, 50, 51] <:+: bytes
  | [], skip, h => by simp [decodeFrom] at h
  | b :: rest, skip, h => by
    have hlater {skip' : Nat} (h : 35 ∈ decodeFrom skip' rest) :
        35 ∈ b :: rest ∨ [37, 50, 51] <:+: b :: rest :=
      (mem_decodeFrom_numberSign h).imp (List.mem_cons_of_mem b) fun hinfix =>
        hinfix.trans (List.suffix_cons b rest).isInfix
    cases skip with
    | succ skip => exact hlater (by rwa [decodeFrom] at h)
    | zero =>
      rw [decodeFrom] at h
      split at h
      · rename_i byte hescape
        split at hescape
        · subst b
          rcases List.mem_cons.1 h with rfl | h
          · obtain ⟨more, rfl⟩ := exists_of_escaped?_eq_numberSign hescape
            exact .inr ⟨[], more, rfl⟩
          · exact hlater h
        · cases hescape
      · rcases List.mem_cons.1 h with rfl | h
        · exact .inl List.mem_cons_self
        · exact hlater h

/-- **A number sign comes up from itself or from its escape.** -/
theorem numberSign_of_mem_decodeText {cs : List Char} (h : '#' ∈ decodeText cs) :
    '#' ∈ cs ∨ ['%', '2', '3'] <:+: cs := by
  have hbyte : 35 ∈ decodeFrom 0 (Utf8.encode cs) :=
    Utf8.mem_of_mem_decodeLossy (by decide) (by decide) h
  rcases mem_decodeFrom_numberSign hbyte with hmem | hinfix
  · exact .inl (Utf8.mem_of_mem_encode (c := '#') (by decide) hmem)
  · have hascii : ∀ c ∈ ['%', '2', '3'], c.toNat < 0x80 := by simp
    exact .inr (Utf8.isInfix_of_isInfix_encode hascii hinfix)

end BookCatalog.Url.Percent
