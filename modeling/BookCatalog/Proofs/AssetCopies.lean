import BookCatalog.Proofs.DirectoryNames
import BookCatalog.Proofs.ImageNames

/-!
# Images that share a copy

The copy of an image is named by the segments of its stem and by its extension. Empty segments and an empty
extension are left out and a last segment can become a mark, so images of different names can have one copy.
They do when their extensions are equal and their stems have the same segments, a mark being counted like the
segment it stands for (`Alike`), or when the stem of one of them has the extension of the other in it
(`HoldsExtension`); in all other cases they have different copies (`assetPath_eq_iff`).
-/

namespace BookCatalog.AssetName

open BookCatalog.Text BookCatalog.FilePath

/-! ## Segments of copies -/

/-- Segments with a text at the end of the last one. -/
def extendLast (ending : List Char) : List (List Char) → List (List Char)
  | [] => [ending]
  | [last] => [last ++ ending]
  | part :: next :: rest => part :: extendLast ending (next :: rest)

theorem intercalate_extendLast (sep ending : List Char) : ∀ parts : List (List Char),
    sep.intercalate (extendLast ending parts) = sep.intercalate parts ++ ending
  | [] => by simp [extendLast]
  | [last] => by simp [extendLast]
  | part :: next :: rest => by
    have ih := intercalate_extendLast sep ending (next :: rest)
    obtain ⟨first, more, hmore⟩ : ∃ first more, extendLast ending (next :: rest) = first :: more := by
      cases rest <;> exact ⟨_, _, rfl⟩
    rw [extendLast, hmore, List.intercalate_cons_cons, ← hmore, ih, List.intercalate_cons_cons]
    simp only [List.append_assoc]

theorem getLast?_extendLast (ending : List Char) : ∀ parts : List (List Char),
    ∃ front, (extendLast ending parts).getLast? = some (front ++ ending)
  | [] => ⟨[], rfl⟩
  | [last] => ⟨last, rfl⟩
  | part :: next :: rest => by
    obtain ⟨front, h⟩ := getLast?_extendLast ending (next :: rest)
    refine ⟨front, ?_⟩
    rw [extendLast, List.getLast?_cons, h]
    rfl

theorem mem_of_mem_extendLast {ending part : List Char} : ∀ {parts : List (List Char)},
    part ∈ extendLast ending parts →
      part ∈ parts ∨ ∃ front, (front = [] ∨ front ∈ parts) ∧ part = front ++ ending
  | [], h => .inr ⟨[], .inl rfl, List.mem_singleton.1 h⟩
  | [last], h => .inr ⟨last, .inr List.mem_cons_self, List.mem_singleton.1 h⟩
  | first :: next :: rest, h => by
    rcases List.mem_cons.1 h with rfl | h
    · exact .inl List.mem_cons_self
    · obtain hmem | ⟨front, hfront, rfl⟩ := mem_of_mem_extendLast h
      · exact .inl (List.mem_cons_of_mem _ hmem)
      · exact .inr ⟨front, hfront.imp_right (List.mem_cons_of_mem _), rfl⟩

/-- What the stem of a high-resolution copy ends with. -/
def copyMark : List Char := ['@', '2', 'x']

/-- The segments of a stem, a last one that marks the high resolution replaced by the mark of the copy. -/
def copySegments (stem : String) : List (List Char) :=
  if (segments stem).getLast? = some hiResMark then extendLast copyMark (segments stem).dropLast
  else segments stem

/-- The stem of a copy: the logical name with the mark of its resolution. -/
def copyStem (stem : String) : String := (ofStem stem).name ++ resolutionSuffix (ofStem stem).hiRes

theorem toList_copyStem (stem : String) :
    (copyStem stem).toList = ['_'].intercalate (copySegments stem) := by
  unfold copyStem copySegments ofStem
  by_cases h : (segments stem).getLast? = some hiResMark
  · have hmark : "@2x".toList = copyMark := by decide
    simp [h, resolutionSuffix, intercalate_extendLast, hmark]
  · simp [h, resolutionSuffix]

/-- A text that can be a segment: it is not empty and has no underscore. -/
def IsSegment (part : List Char) : Prop := part ≠ [] ∧ ∀ c ∈ part, (c == '_') = false

theorem isSegment_of_mem_segments {stem : String} {part : List Char} (h : part ∈ segments stem) :
    IsSegment part := ⟨ne_nil_of_mem_runs h, no_separator_of_mem_runs h⟩

theorem isSegment_of_mem_copySegments {stem : String} {part : List Char} (h : part ∈ copySegments stem) :
    IsSegment part := by
  have hkept {part : List Char} (h : part ∈ (segments stem).dropLast) : IsSegment part :=
    isSegment_of_mem_segments ((List.dropLast_sublist _).subset h)
  have hmark : copyMark ≠ [] ∧ ∀ c ∈ copyMark, (c == '_') = false := by simp [copyMark]
  unfold copySegments at h
  split at h
  · obtain hpart | ⟨front, hfront, rfl⟩ := mem_of_mem_extendLast h
    · exact hkept hpart
    · refine ⟨by simp [hmark.1], List.forall_mem_append.2 ⟨?_, hmark.2⟩⟩
      obtain rfl | hfront := hfront
      · simp
      · exact (hkept hfront).2
  · exact isSegment_of_mem_segments h

/-- Joined segments are found again. -/
theorem runs_intercalate_segments {parts : List (List Char)} (h : ∀ part ∈ parts, IsSegment part) :
    runs (· == '_') (['_'].intercalate parts) = parts := by
  have hkept : parts.filter (!·.isEmpty) = parts :=
    List.filter_eq_self.2 fun part hpart => by simpa using (h part hpart).1
  rw [runs_intercalate (by rfl) fun part hpart => (h part hpart).2, hkept]

theorem segments_copyStem (stem : String) : segments (copyStem stem) = copySegments stem := by
  rw [segments, toList_copyStem, runs_intercalate_segments fun _ => isSegment_of_mem_copySegments]

theorem copyStem_eq_iff {stem stem' : String} :
    copyStem stem = copyStem stem' ↔ copySegments stem = copySegments stem' := by
  constructor <;> intro h
  · rw [← segments_copyStem, ← segments_copyStem, h]
  · rw [← String.toList_inj, toList_copyStem, toList_copyStem, h]

/-! ## Stems with one copy -/

/-- One stem marks the high resolution by its last segment, another one has the mark of a copy there, and
otherwise they have the same segments. -/
def Spells (stem stem' : String) : Prop :=
  (segments stem).getLast? = some hiResMark ∧
    segments stem' = extendLast copyMark (segments stem).dropLast

/-- Two stems have the same segments, a last one that marks the high resolution being the same as the mark of
a copy at the end of what stands before it. -/
def Alike (stem stem' : String) : Prop :=
  segments stem = segments stem' ∨ Spells stem stem' ∨ Spells stem' stem

instance (stem stem' : String) : Decidable (Spells stem stem') := inferInstanceAs (Decidable (_ ∧ _))

instance (stem stem' : String) : Decidable (Alike stem stem') := inferInstanceAs (Decidable (_ ∨ _))

/-- A stem with the mark of a copy does not mark the high resolution by a segment. -/
theorem Spells.copySegments_eq {stem stem' : String} (h : Spells stem stem') :
    copySegments stem = copySegments stem' := by
  obtain ⟨hlast, hsegments⟩ := h
  have hstandard : (segments stem').getLast? ≠ some hiResMark := by
    obtain ⟨front, hfront⟩ := getLast?_extendLast copyMark (segments stem).dropLast
    rw [hsegments, hfront]
    intro heq
    have hlength := congrArg List.length (Option.some.inj heq)
    simp [copyMark, hiResMark] at hlength
  rw [copySegments, if_pos hlast, copySegments, if_neg hstandard, hsegments]

/-- Two stems that mark the high resolution have the same segments when their copies have. -/
theorem segments_eq_of_extendLast_eq {stem stem' : String} (h : (segments stem).getLast? = some hiResMark)
    (h' : (segments stem').getLast? = some hiResMark)
    (heq : extendLast copyMark (segments stem).dropLast = extendLast copyMark (segments stem').dropLast) :
    segments stem = segments stem' := by
  -- the mark is taken off the joined texts, and these are cut again
  have hjoined := congrArg ['_'].intercalate heq
  rw [intercalate_extendLast, intercalate_extendLast, List.append_left_inj] at hjoined
  have hkept (stem : String) : ∀ part ∈ (segments stem).dropLast, IsSegment part := fun part hpart =>
    isSegment_of_mem_segments ((List.dropLast_sublist _).subset hpart)
  have hruns := congrArg (runs (· == '_')) hjoined
  rw [runs_intercalate_segments (hkept stem), runs_intercalate_segments (hkept stem')] at hruns
  calc segments stem = (segments stem).dropLast ++ [hiResMark] := (List.dropLast_append_getLast? _ h).symm
    _ = (segments stem').dropLast ++ [hiResMark] := by rw [hruns]
    _ = segments stem' := List.dropLast_append_getLast? _ h'

theorem copySegments_eq_iff {stem stem' : String} :
    copySegments stem = copySegments stem' ↔ Alike stem stem' := by
  constructor
  · intro h
    unfold copySegments at h
    split at h <;> split at h
    · rename_i hlast hlast'
      exact .inl (segments_eq_of_extendLast_eq hlast hlast' h)
    · rename_i hlast hlast'
      exact .inr (.inl ⟨hlast, h.symm⟩)
    · rename_i hlast hlast'
      exact .inr (.inr ⟨hlast', h⟩)
    · exact .inl h
  · rintro (h | h | h)
    · rw [copySegments, copySegments, h]
    · exact h.copySegments_eq
    · exact h.copySegments_eq.symm

/-! ## Names with one copy -/

/-- The extension of a name, empty when there is none. -/
def extensionOf (name : FileName) : String := name.split.2.getD ""

/-- The name of the copy of an image. -/
def copyName (name : FileName) : String := (ofStem name.split.1).fileName name.split.2

/-- A name without an extension has in its stem, once copied, the copied stem and the extension of another
one. -/
def HoldsExtension (name name' : FileName) : Prop :=
  extensionOf name = "" ∧ extensionOf name' ≠ "" ∧
    copyStem name.split.1 = copyStem name'.split.1 ++ "." ++ extensionOf name'

/-- Two names that have one copy. -/
def SharesCopy (name name' : FileName) : Prop :=
  extensionOf name = extensionOf name' ∧ Alike name.split.1 name'.split.1 ∨
    HoldsExtension name name' ∨ HoldsExtension name' name

instance (name name' : FileName) : Decidable (HoldsExtension name name') :=
  inferInstanceAs (Decidable (_ ∧ _))

instance (name name' : FileName) : Decidable (SharesCopy name name') := inferInstanceAs (Decidable (_ ∨ _))

theorem no_dot_extensionOf (name : FileName) : '.' ∉ (extensionOf name).toList := by
  unfold extensionOf
  cases h : name.split.2 with
  | none => simp
  | some ext => exact name.no_dot_extension ext h

theorem copyName_eq (name : FileName) :
    copyName name = copyStem name.split.1 ++
      if extensionOf name = "" then "" else "." ++ extensionOf name := by
  unfold copyName fileName copyStem extensionOf
  cases name.split.2 <;> rfl

/-- The last dot of a text divides it in one way. -/
theorem append_dot_inj {before before' after after' : String} (h : '.' ∉ after.toList)
    (h' : '.' ∉ after'.toList) :
    before ++ "." ++ after = before' ++ "." ++ after' ↔ before = before' ∧ after = after' := by
  constructor
  · intro heq
    have hparts := splitLast?_append_dot h before
    rw [heq, splitLast?_append_dot h' before', Option.some_inj, Prod.mk.injEq] at hparts
    exact ⟨String.toList_inj.1 hparts.1.symm, String.toList_inj.1 hparts.2.symm⟩
  · rintro ⟨rfl, rfl⟩
    rfl

/-- **Names that share a copy.** The copies of two images have one name exactly when their extensions are
equal and their stems alike, or when the stem of one has the extension of the other in it. -/
theorem copyName_eq_iff {name name' : FileName} : copyName name = copyName name' ↔ SharesCopy name name' := by
  rw [copyName_eq, copyName_eq, SharesCopy, HoldsExtension, HoldsExtension, ← copySegments_eq_iff,
    ← copyStem_eq_iff]
  -- an extension has no dot, so a copy with one is cut into stem and extension at its last dot
  by_cases hext : extensionOf name = "" <;> by_cases hext' : extensionOf name' = ""
  · simp [hext, hext']
  · simp [hext, hext', Ne.symm hext', String.append_assoc]
  · simp [hext, hext', String.append_assoc, eq_comm]
  · rw [if_neg hext, if_neg hext', ← String.append_assoc, ← String.append_assoc,
      append_dot_inj (no_dot_extensionOf name) (no_dot_extensionOf name')]
    simp [hext, hext', and_comm]

example : SharesCopy "a__b.png" "a_b.png" ∧ SharesCopy "a_2x.png" "a@2x.png" ∧ SharesCopy "a.png." "a.png" ∧
    ¬SharesCopy "a_b.png" "a_b_2x.png" := by
  decide +kernel

end BookCatalog.AssetName

namespace BookCatalog.Book

open BookCatalog.FilePath BookCatalog.AssetName

theorem no_slash_copyName {name : FileName} (h : name.IsName) : '/' ∉ (copyName name).toList :=
  no_slash_fileName (FileName.no_slash_split h).1 (FileName.no_slash_split h).2

/-- Two images go to one path in the directory of the assets exactly when they share a copy. -/
theorem assetPath_eq_iff {assets : String} {name name' : FileName} (h : name.IsName)
    (h' : name'.IsName) :
    assetPath assets name = assetPath assets name' ↔ SharesCopy name name' := by
  rw [← copyName_eq_iff]
  constructor
  · intro heq
    exact join_inj (isAbsolute_of_no_slash (no_slash_copyName h))
      (isAbsolute_of_no_slash (no_slash_copyName h')) heq
  · intro heq
    exact congrArg (join assets) heq

end BookCatalog.Book
