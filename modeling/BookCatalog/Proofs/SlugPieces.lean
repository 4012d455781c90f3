import BookCatalog.Proofs.Slugs
import Mathlib.Data.Bool.AllAny

/-!
# Slugs and pieces

A slug is what is left of the pieces of its text when back-ticks and punctuation are taken out of each,
joined by hyphens (`slug_of_pieces`). So it depends on the pieces alone, and it has one hyphen fewer than
there are pieces, also where nothing is left of a piece. The slug of a slug has lost those hyphens: it is
the same slug only if something is left of every piece, or there is at most one.

Nothing is left of a text of blanks, back-ticks and punctuation but these hyphens. Its slug is empty exactly
when it has no more than one piece (`slug_of_marks`).
-/

namespace BookCatalog.Slug

open BookCatalog.Text

/-- What is left of a piece without back-ticks and punctuation. -/
def strip (piece : List Char) : List Char := piece.filter fun c => !isDropped c

theorem isSeparator_hyphen : isSeparator '-' = true := by decide

theorem isBlank_of_not_isSeparator {c : Char} (h : isSeparator c = false) : isBlank c = false := by
  simp only [isSeparator, Bool.or_eq_false_iff] at h
  exact h.1.1.1

theorem ne_hyphen_of_not_isSeparator {c : Char} (h : isSeparator c = false) : c ≠ '-' := by
  rintro rfl
  simp [isSeparator_hyphen] at h

/-! ## Stripped pieces -/

theorem no_separator_of_mem_pieces {t piece : List Char} (h : piece ∈ pieces t) :
    ∀ c ∈ piece, isSeparator c = false :=
  no_separator_of_mem_runs h

theorem no_separator_strip {piece : List Char} (h : ∀ c ∈ piece, isSeparator c = false) :
    ∀ c ∈ strip piece, isSeparator c = false :=
  fun c hc => h c (List.mem_filter.1 hc).1

theorem strip_strip (piece : List Char) : strip (strip piece) = strip piece := by
  simp [strip]

/-- A hyphen stands in no piece, so it makes no difference for a piece that slugs keep hyphens. -/
theorem filter_eq_strip {piece : List Char} (h : ∀ c ∈ piece, isSeparator c = false) :
    piece.filter (fun c => c == '-' || !isDropped c) = strip piece := by
  refine List.filter_congr fun c hc => ?_
  simp [ne_hyphen_of_not_isSeparator (h c hc)]

/-! ## Joined pieces -/

theorem filter_intercalate {α : Type} {keep : α → Bool} {s : α} (hs : keep s = true) :
    ∀ parts : List (List α),
      ([s].intercalate parts).filter keep = [s].intercalate (parts.map (·.filter keep))
  | [] => rfl
  | [part] => by simp
  | part :: next :: rest => by
    have ih := filter_intercalate hs (next :: rest)
    rw [List.map_cons] at ih
    simp [List.intercalate_cons_cons, List.filter_append, hs, ih]

theorem count_intercalate {α : Type} [BEq α] [LawfulBEq α] {s : α} : ∀ {parts : List (List α)},
    (∀ part ∈ parts, s ∉ part) → ([s].intercalate parts).count s = parts.length - 1
  | [], _ => rfl
  | [part], h => by simpa using List.count_eq_zero_of_not_mem (h part List.mem_cons_self)
  | part :: next :: rest, h => by
    obtain ⟨hpart, hrest⟩ := List.forall_mem_cons.1 h
    have ih := count_intercalate hrest
    simp only [List.intercalate_cons_cons, List.count_append, List.count_eq_zero_of_not_mem hpart, ih,
      List.count_singleton_self, List.length_cons]
    omega

/-- A slug is its stripped pieces, joined by hyphens. -/
theorem ofChars_eq_intercalate (t : List Char) :
    ofChars t = ['-'].intercalate ((pieces t).map strip) := by
  rw [ofChars, filter_intercalate (by rfl)]
  congr 1
  exact List.map_congr_left fun piece h => filter_eq_strip (no_separator_of_mem_pieces h)

theorem no_separator_of_mem_map_strip {t part : List Char} (h : part ∈ (pieces t).map strip) :
    ∀ c ∈ part, isSeparator c = false := by
  obtain ⟨piece, hpiece, rfl⟩ := List.mem_map.1 h
  exact no_separator_strip (no_separator_of_mem_pieces hpiece)

theorem count_hyphen_ofChars (t : List Char) : (ofChars t).count '-' = (pieces t).length - 1 := by
  rw [ofChars_eq_intercalate, count_intercalate, List.length_map]
  intro part hpart hhyphen
  exact ne_hyphen_of_not_isSeparator (no_separator_of_mem_map_strip hpart '-' hhyphen) rfl

/-- Of what the text is made of, a slug has neither blanks nor back-ticks nor punctuation. -/
theorem mem_ofChars {t : List Char} {c : Char} (h : c ∈ ofChars t) :
    c = '-' ∨ isSeparator c = false ∧ isDropped c = false := by
  rw [ofChars_eq_intercalate] at h
  rcases mem_of_mem_intercalate h with h | ⟨part, hpart, hc⟩
  · exact .inl (List.mem_singleton.1 h)
  · have hsep := no_separator_of_mem_map_strip hpart c hc
    obtain ⟨piece, -, rfl⟩ := List.mem_map.1 hpart
    have hkept : isDropped c = false := by simpa [strip] using (List.mem_filter.1 hc).2
    exact .inr ⟨hsep, hkept⟩

/-! ## Slugs of slugs -/

/-- The pieces of a slug are the stripped pieces of which something is left. -/
theorem pieces_ofChars (t : List Char) :
    pieces (ofChars t) = ((pieces t).map strip).filter (!·.isEmpty) := by
  rw [ofChars_eq_intercalate, pieces]
  exact runs_intercalate isSeparator_hyphen fun part => no_separator_of_mem_map_strip

/-- The slug of a slug is joined of the stripped pieces of which something is left. -/
theorem ofChars_ofChars (t : List Char) :
    ofChars (ofChars t) = ['-'].intercalate (((pieces t).map strip).filter (!·.isEmpty)) := by
  have hself : ∀ part ∈ ((pieces t).map strip).filter (!·.isEmpty), strip part = id part := by
    intro part hpart
    obtain ⟨piece, -, rfl⟩ := List.mem_map.1 (List.mem_filter.1 hpart).1
    exact strip_strip piece
  rw [ofChars_eq_intercalate, pieces_ofChars, List.map_congr_left hself, List.map_id]

theorem ofChars_ofChars_eq_iff (t : List Char) :
    ofChars (ofChars t) = ofChars t ↔
      (pieces t).length ≤ 1 ∨ ∀ piece ∈ pieces t, strip piece ≠ [] := by
  have hfilter : ((pieces t).map strip).filter (!·.isEmpty) = (pieces t).map strip ↔
      ∀ piece ∈ pieces t, strip piece ≠ [] := by
    simp [List.filter_eq_self]
  constructor
  · intro h
    -- both slugs have a hyphen fewer than pieces
    have hcount := count_hyphen_ofChars (ofChars t)
    rw [h, count_hyphen_ofChars, pieces_ofChars] at hcount
    by_cases hlength : (pieces t).length ≤ 1
    · exact .inl hlength
    · right
      rw [← hfilter, List.filter_eq_self, ← List.length_filter_eq_length_iff]
      have hle := List.length_filter_le (!·.isEmpty) ((pieces t).map strip)
      rw [List.length_map] at hle ⊢
      omega
  · intro h
    rw [ofChars_ofChars, ofChars_eq_intercalate]
    rcases h with hlength | hleft
    · match hp : pieces t with
      | [] => rfl
      | [piece] => cases hs : strip piece <;> simp [hs]
      | first :: second :: rest => simp [hp] at hlength
    · rw [hfilter.2 hleft]

/-! ## Slugs and their texts -/

/-- **A slug is made of the pieces of its text.** The pieces are the maximal runs without a blank, a hyphen,
an en dash or an em dash. The slug is what is left of them, joined by single hyphens: it has no blank, no
back-tick and no punctuation but these hyphens, of which there is one between two pieces. Texts with the
same pieces have the same slug; trimming a text and collapsing its blanks keep its pieces. The slug of the
slug is the slug exactly when there is no second piece or something is left of every piece. -/
theorem slug_of_pieces (t : String) :
    ∃ ps, (∀ qs, CutInto isSeparator t.toList qs ↔ qs = ps) ∧
      (ofText t).toList = ['-'].intercalate (ps.map strip) ∧
      (∀ c ∈ (ofText t).toList, isBlank c = false ∧ c ≠ '\x60' ∧ (isPunctuation c = true → c = '-')) ∧
      (ofText t).toList.count '-' = ps.length - 1 ∧
      (∀ t' : String, CutInto isSeparator t'.toList ps → ofText t' = ofText t) ∧
      CutInto isSeparator (trimBlanks t).toList ps ∧
      CutInto isSeparator (collapseBlanks t).toList ps ∧
      (ofText (ofText t) = ofText t ↔ ps.length ≤ 1 ∨ ∀ piece ∈ ps, strip piece ≠ []) := by
  refine ⟨pieces t.toList, fun qs => cutInto_iff, ?_, ?_, ?_, ?_, ?_, ?_, ?_⟩
  · rw [ofText, String.toList_ofList, ofChars_eq_intercalate]
  · intro c hc
    rw [ofText, String.toList_ofList] at hc
    rcases mem_ofChars hc with rfl | ⟨hsep, hkept⟩
    · exact ⟨by decide, by decide, fun _ => rfl⟩
    · simp only [isDropped, Bool.or_eq_false_iff, beq_eq_false_iff_ne] at hkept
      refine ⟨isBlank_of_not_isSeparator hsep, hkept.1, fun hmark => ?_⟩
      rw [hkept.2] at hmark
      cases hmark
  · rw [ofText, String.toList_ofList, count_hyphen_ofChars]
  · intro t' h
    exact ofText_congr (cutInto_iff.1 h).symm
  · rw [cutInto_iff, trimBlanks, String.toList_ofList]
    exact (pieces_trim t.toList).symm
  · rw [cutInto_iff, collapseBlanks, String.toList_ofList]
    exact (pieces_collapse t.toList).symm
  · rw [← ofChars_ofChars_eq_iff, ofText, ofText, String.toList_ofList, String.ofList_inj]

example : ofText "The `where` Clause — in short" = "The-where-Clause-in-short" := by decide +kernel

/-! ## Texts of marks -/

theorem isDropped_of_isPunctuation {c : Char} (h : isPunctuation c = true) : isDropped c = true := by
  simp [isDropped, h]

/-- Nothing is left of a piece of back-ticks and punctuation. -/
theorem strip_eq_nil {piece : List Char} (h : ∀ c ∈ piece, isDropped c = true) : strip piece = [] := by
  simpa [strip, List.filter_eq_nil_iff] using h

theorem intercalate_replicate_nil {α : Type} (s : α) (n : Nat) :
    [s].intercalate (List.replicate n []) = List.replicate (n - 1) s := by
  induction n with
  | zero => rfl
  | succ n ih =>
    cases n with
    | zero => rfl
    | succ n =>
      rw [List.replicate_succ, List.replicate_succ, List.intercalate_cons_cons, ← List.replicate_succ, ih]
      rfl

/-- **The slug of marks is empty exactly when they are no two pieces.** Of a text of blanks, back-ticks and
punctuation nothing is left but the hyphens between its pieces. -/
theorem slug_of_marks {t : String}
    (h : ∀ c ∈ t.toList, isBlank c = true ∨ c = '\x60' ∨ isPunctuation c = true) :
    ∃ ps, CutInto isSeparator t.toList ps ∧
      ofText t = String.ofList (List.replicate (ps.length - 1) '-') ∧
      (ofText t = "" ↔ ps.length ≤ 1) := by
  have hleft : ∀ part ∈ (pieces t.toList).map strip, part = [] := by
    intro part hpart
    obtain ⟨piece, hpiece, rfl⟩ := List.mem_map.1 hpart
    refine strip_eq_nil fun c hc => ?_
    have hsep := no_separator_of_mem_pieces hpiece c hc
    rcases h c (mem_of_mem_runs hpiece c hc) with hblank | rfl | hmark
    · simp [isBlank_of_not_isSeparator hsep] at hblank
    · rfl
    · exact isDropped_of_isPunctuation hmark
  have hslug : ofText t = String.ofList (List.replicate ((pieces t.toList).length - 1) '-') := by
    rw [ofText, ofChars_eq_intercalate, List.eq_replicate_of_mem hleft, intercalate_replicate_nil,
      List.length_map]
  refine ⟨pieces t.toList, cutInto_iff.2 rfl, hslug, ?_⟩
  rw [hslug, String.ofList_eq_empty_iff, List.replicate_eq_nil_iff]
  omega

theorem slug_of_question_and_dash :
    (∀ c ∈ "?! — ".toList, isBlank c = true ∨ c = '\x60' ∨ isPunctuation c = true) ∧
      ∃ ps, CutInto isSeparator "?! — ".toList ps ∧
        ofText "?! — " = String.ofList (List.replicate (ps.length - 1) '-') ∧
        (ofText "?! — " = "" ↔ ps.length ≤ 1) :=
  have h : ∀ c ∈ "?! — ".toList, isBlank c = true ∨ c = '\x60' ∨ isPunctuation c = true :=
    List.all_iff_forall_prop.1 (by decide +kernel)
  ⟨h, slug_of_marks h⟩

/-- Two marks with a space between them leave a hyphen. -/
theorem hyphen_between_marks :
    (∀ c ∈ "? !".toList, isBlank c = true ∨ c = '\x60' ∨ isPunctuation c = true) ∧ ofText "? !" ≠ "" :=
  ⟨List.all_iff_forall_prop.1 (by decide +kernel), by decide +kernel⟩

end BookCatalog.Slug
