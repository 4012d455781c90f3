import BookCatalog.Proofs.ByteOrder
import BookCatalog.Proofs.EscapedMarks
import BookCatalog.Proofs.Paths
import BookCatalog.Proofs.Results

/-!
# Names that directories list

A directory lists names in the order of their bytes. Names with the same bytes are one name
(`bytes_inj`), so the order is a linear one, whether the names are text or not. The parts of a name that
are text have no slash (`no_slash_split`), and its extension has no dot: a character of ASCII that is read
from bytes is one of them.
-/

namespace BookCatalog

open BookCatalog.FilePath BookCatalog.Text

namespace Text.Utf8

theorem decode?_eq_some_iff {bytes : List UInt8} {cs : List Char} :
    decode? bytes = some cs ↔ decode bytes = cs.map some := by
  rw [decode?, mapM_eq_some_iff, ← List.forall₂_eq_eq_eq, List.forall₂_map_right_iff]
  rfl

theorem decode?_encode (cs : List Char) : decode? (encode cs) = some cs :=
  decode?_eq_some_iff.2 (decode_encode cs)

/-- A character of ASCII in a text stands among the bytes of the text. -/
theorem mem_of_mem_text? {bytes : List UInt8} {s : String} (h : text? bytes = some s) {c : Char}
    (hpos : 0 < c.toNat) (hc : c.toNat < 0x80) (hmem : c ∈ s.toList) : UInt8.ofNat c.toNat ∈ bytes := by
  obtain ⟨cs, hcs, rfl⟩ := Option.map_eq_some_iff.1 h
  rw [String.toList_ofList] at hmem
  have hread : some c ∈ decodeFrom none bytes := by
    show some c ∈ decode bytes
    rw [decode?_eq_some_iff.1 hcs]
    exact List.mem_map_of_mem hmem
  exact mem_of_mem_decodeFrom hpos hc (by simp) hread

end Text.Utf8

namespace FileName

/-! ## The order of names -/

theorem bytes_inj {a b : FileName} (h : a.bytes = b.bytes) : a = b := by
  have hraw (s : String) (name : RawName) : Utf8.encode s.toList ≠ name.bytes := fun heq => by
    have hnone := name.not_text
    rw [← heq, Utf8.decode?_encode] at hnone
    cases hnone
  match a, b, h with
  | text s, text s', h =>
    have heq := congrArg Utf8.decode? (show Utf8.encode s.toList = Utf8.encode s'.toList from h)
    rw [Utf8.decode?_encode, Utf8.decode?_encode, Option.some_inj, String.toList_inj] at heq
    rw [heq]
  | text s, raw name, h => exact absurd h (hraw s name)
  | raw name, text s, h => exact absurd h.symm (hraw s name)
  | raw ⟨bs, _, _⟩, raw ⟨bs', _, _⟩, h =>
    obtain rfl : bs = bs' := h
    rfl

theorem le_antisymm {a b : FileName} (h : a ≤ b) (h' : b ≤ a) : a = b :=
  bytes_inj (List.le_antisymm h h')

/-- Names that have been sorted stand in order. -/
theorem pairwise_mergeSort (names : List FileName) : (names.mergeSort (· ≤ ·)).Pairwise (· ≤ ·) := by
  have htrans (a b c : FileName) (hab : decide (a ≤ b) = true) (hbc : decide (b ≤ c) = true) :
      decide (a ≤ c) = true :=
    decide_eq_true (List.le_trans (of_decide_eq_true hab) (of_decide_eq_true hbc))
  have htotal (a b : FileName) : (decide (a ≤ b) || decide (b ≤ a)) = true := by
    simpa using show a ≤ b ∨ b ≤ a from List.le_total a.bytes b.bytes
  exact (List.pairwise_mergeSort htrans htotal names).imp of_decide_eq_true

/-! ## Parts of names -/

/-- A name under which something can stand in a directory. -/
def IsName : FileName → Prop
  | text name => FilePath.IsName name
  | raw _ => True

instance : DecidablePred IsName
  | text name => inferInstanceAs (Decidable (FilePath.IsName name))
  | raw _ => isTrue trivial

/-- A name that is no text has no parts, or they are what stands before and after its last dot. -/
theorem split_raw_cases (name : RawName) : split (raw name) = ("", none) ∨
    ∃ before after, 0x2E ∉ after ∧ name.bytes = before ++ 0x2E :: after ∧
      split (raw name) = ((Utf8.text? before).getD "", Utf8.text? after) := by
  simp only [split]
  rcases no_separator_or_last (· == 0x2E) name.bytes with h | ⟨before, dot, after, hdot, hbytes, hafter⟩
  · rw [splitLast?_eq_none h]
    exact .inl rfl
  obtain rfl : dot = 0x2E := by simpa using hdot
  have hcut := splitLast?_append_cons (p := (· == 0x2E)) hdot hafter before
  rw [hbytes, hcut]
  cases before with
  | nil => exact .inl rfl
  | cons b rest => exact .inr ⟨b :: rest, after, fun hmem => by simpa using hafter _ hmem, rfl, rfl⟩

/-- No part of a name has a slash in it. -/
theorem no_slash_split {name : FileName} (h : name.IsName) :
    '/' ∉ name.split.1.toList ∧ ∀ ext ∈ name.split.2, '/' ∉ ext.toList := by
  cases name with
  | text name => exact ⟨no_slash_splitName h, no_slash_of_mem_splitName h⟩
  | raw name =>
    have hpart {part : List UInt8} (hsub : part ⊆ name.bytes) {s : String}
        (hs : Utf8.text? part = some s) : '/' ∉ s.toList := fun hmem =>
      name.no_slash (hsub (Utf8.mem_of_mem_text? hs (by decide) (by decide) hmem))
    obtain hnone | ⟨before, after, -, hbytes, hsplit⟩ := split_raw_cases name
    · simp [hnone]
    rw [hsplit]
    refine ⟨?_, fun ext hext => hpart (by simp [hbytes]) hext⟩
    cases hstem : Utf8.text? before with
    | none => simp
    | some stem => exact hpart (by simp [hbytes]) hstem

/-- An extension has no dot in it. -/
theorem no_dot_extension (name : FileName) : ∀ ext ∈ name.split.2, '.' ∉ ext.toList := by
  intro ext hext
  cases name with
  | text name =>
    rcases name_cases name with hno | ⟨more, hno, rfl⟩ | ⟨stem, last, hne, hno, rfl⟩
    · simp [split, splitName_of_no_dot hno] at hext
    · simp [split, splitName_dot_append hno] at hext
    · simp only [split, splitName_append_dot hne hno, Option.mem_some] at hext
      exact hext ▸ hno
  | raw name =>
    obtain hnone | ⟨before, after, hdot, -, hsplit⟩ := split_raw_cases name
    · simp [hnone] at hext
    · rw [hsplit] at hext
      exact fun hmem => hdot (Utf8.mem_of_mem_text? hext (by decide) (by decide) hmem)

end FileName

end BookCatalog
