import BookCatalog.Proofs.BookAnchors
import BookCatalog.Proofs.References
import Mathlib.Data.Bool.AllAny

/-!
# Links to sections

A table of anchors knows a section by its id as it stands in the page, and a link asks for the fragment
with escapes. The two are the same text exactly when no character of the id is escaped. So a link to a
section leads to it for every id in plain ASCII, and to the chapter alone for an id with a character
outside ASCII, a quote, an angle bracket or a back-tick (`section_reached_iff`).
-/

namespace BookCatalog.Link

open BookCatalog.Text BookCatalog.Url BookCatalog.FilePath

/-! ## Chapters with plain names -/

/-- A letter, a digit, a hyphen, an underscore or any character outside ASCII. -/
def isPlain (c : Char) : Bool := c.isAlphanum || c == '-' || c == '_' || 0x80 ≤ c.toNat

/-- The path of a chapter seen from another one: plain names of directories, and a plain file name with an
extension. -/
structure ChapterPath where
  /-- What stands before the extension and its dot. -/
  base : String
  extension : String
  plain_base : ∀ c ∈ base.toList, isPlain c = true ∨ c = '/'
  relative : isAbsolute base = false
  plain_extension : ∀ c ∈ extension.toList, isPlain c = true
  extension_ne : extension ≠ ""

/-- The path as it stands in a page. -/
def ChapterPath.text (p : ChapterPath) : String := p.base ++ "." ++ p.extension

/-- A link to the section of an id in a chapter. -/
def ChapterPath.linkTo (p : ChapterPath) (id : String) : String := p.text ++ "#" ++ id

/-! ## Steps without escapes -/

theorem eq_of_toLower_eq {c d : Char} (hd : ¬('a' ≤ d ∧ d ≤ 'z')) (h : c.toLower = d) : c = d := by
  unfold Char.toLower at h
  split at h
  · rename_i hc
    refine absurd ?_ hd
    subst h
    simp [Char.le_def, UInt32.le_iff_toNat_le] at hc ⊢
    omega
  · exact h

theorem not_mem_map_toLower {d : Char} (hd : ¬('a' ≤ d ∧ d ≤ 'z')) {s : List Char} (h : d ∉ s) :
    d ∉ s.map Char.toLower := by
  intro hm
  obtain ⟨c, hc, he⟩ := List.mem_map.1 hm
  exact h (eq_of_toLower_eq hd he ▸ hc)

/-- A segment that does not end with a dot and has no escapes is no step to a directory. -/
theorem isStep_eq_false {s : List Char} (hp : '%' ∉ s) (hs : s.getLast? ≠ some '.') :
    isSingleDot s = false ∧ isDoubleDot s = false := by
  have hpercent : '%' ∉ s.map Char.toLower := not_mem_map_toLower (by decide) hp
  have hdot : (s.map Char.toLower).getLast? ≠ some '.' := by
    rw [List.getLast?_map]
    intro he
    obtain ⟨c, hc, hlower⟩ := Option.map_eq_some_iff.1 he
    exact hs (eq_of_toLower_eq (by decide) hlower ▸ hc)
  simp only [isSingleDot, isDoubleDot, Bool.or_eq_false_iff, decide_eq_false_iff_not]
  refine ⟨⟨?_, ?_⟩, ⟨⟨?_, ?_⟩, ?_⟩, ?_⟩ <;> intro he <;> simp [he] at hpercent hdot

/-! ## The parts of a link -/

/-- The digits stand before the letters. -/
theorem zero_le_of_isAlphanum {c : Char} (h : c.isAlphanum = true) : '0'.toNat ≤ c.toNat := by
  unfold Char.isAlphanum Char.isAlpha Char.isUpper Char.isLower Char.isDigit at h
  simp [UInt32.le_iff_toNat_le] at h
  simp
  omega

theorem isControlOrSpace_of_isPlain {c : Char} (h : isPlain c = true) : isControlOrSpace c = false := by
  have hplain : ((c.isAlphanum = true ∨ c = '-') ∨ c = '_') ∨ 0x80 ≤ c.toNat := by
    simpa [isPlain] using h
  rw [isControlOrSpace, decide_eq_false_iff_not, Nat.not_le]
  rcases hplain with ((halpha | rfl) | rfl) | houtside
  · exact Nat.lt_of_lt_of_le (by decide) (zero_le_of_isAlphanum halpha)
  · decide
  · decide
  · omega

namespace ChapterPath

/-- What a path is written with. -/
theorem mem_text (p : ChapterPath) {c : Char} (h : c ∈ p.text.toList) :
    isPlain c = true ∨ c = '/' ∨ c = '.' := by
  simp only [text, String.toList_append, List.mem_append] at h
  rcases h with (h | h) | h
  · exact (p.plain_base c h).imp_right .inl
  · exact .inr (.inr (by simpa using h))
  · exact .inl (p.plain_extension c h)

theorem ne_of_mem_text (p : ChapterPath) {c d : Char} (h : c ∈ p.text.toList) (hd : isPlain d = false)
    (hslash : d ≠ '/') (hdot : d ≠ '.') : c ≠ d := by
  rintro rfl
  rcases p.mem_text h with h | h | h
  · rw [h] at hd; cases hd
  · exact hslash h
  · exact hdot h

theorem isControlOrSpace_of_mem_text (p : ChapterPath) {c : Char} (h : c ∈ p.text.toList) :
    isControlOrSpace c = false := by
  rcases p.mem_text h with hplain | rfl | rfl
  · exact isControlOrSpace_of_isPlain hplain
  · rfl
  · rfl

theorem isAbsolute_text (p : ChapterPath) : isAbsolute p.text = false := by
  cases hbase : p.base.toList with
  | nil => simp [text, isAbsolute, hbase]
  | cons c rest => simpa [text, isAbsolute, hbase] using p.relative

/-- The file name of a chapter. -/
theorem exists_parts (p : ChapterPath) : ∃ dir name : String, p.base = dir ++ name ∧
    EndsDirectory dir.toList ∧ ∀ c ∈ name.toList, isPlain c = true := by
  obtain ⟨dir, name, hbase, hdir, hname⟩ := exists_directory_file p.base
  refine ⟨dir, name, hbase, hdir, fun c hc => ?_⟩
  rcases p.plain_base c (by simp [hbase, hc]) with h | rfl
  · exact h
  · exact absurd hc hname

/-- A link to a section, in its parts. -/
theorem exists_reference (p : ChapterPath) {id : String} (hid : ∀ c ∈ id.toList, isControlOrSpace c = false) :
    ∃ r : PageReference, r.text = p.linkTo id ∧ r.fragment = some id ∧
      r.directory ++ r.file = p.text ∧ ∃ name : String, r.file = name ++ "." ++ p.extension ∧
        ∀ c ∈ name.toList, isPlain c = true := by
  obtain ⟨dir, name, hbase, hdir, hname⟩ := p.exists_parts
  have hpath : dir ++ (name ++ "." ++ p.extension) = p.text := by
    simp [text, hbase, String.append_assoc]
  have htext : written (dir ++ (name ++ "." ++ p.extension)) (some id) = p.linkTo id := by
    rw [hpath, linkTo, String.append_assoc]
    rfl
  have hfile : '/' ∉ (name ++ "." ++ p.extension).toList := fun hs => by
    have hs : '/' ∈ name.toList ∨ '/' ∈ p.extension.toList := by simpa using hs
    rcases hs with hs | hs
    · exact absurd (hname _ hs) (by decide)
    · exact absurd (p.plain_extension _ hs) (by decide)
  refine ⟨⟨dir, name ++ "." ++ p.extension, some id, hdir, hfile, ?_, ?_, ?_, ?_⟩, htext, rfl,
    hpath, name, rfl, hname⟩
  · intro c hc
    rw [hpath] at hc
    have hne := fun d => p.ne_of_mem_text (d := d) hc
    simp [isMark, hne '?' rfl, hne '#' rfl, hne '\\' rfl]
  · rw [hpath]
    exact namesNoHost_of_relative p.isAbsolute_text
  · rw [hpath]
    exact splitScheme?_of_no_colon fun hc => p.ne_of_mem_text hc rfl (by decide) (by decide) rfl
  · rw [htext]
    refine cleaned_eq_self fun c hc => ?_
    have hc : c ∈ p.text.toList ∨ c = '#' ∨ c ∈ id.toList := by simpa [linkTo, or_assoc] using hc
    rcases hc with hc | rfl | hc
    · exact p.isControlOrSpace_of_mem_text hc
    · rfl
    · exact hid c hc

/-- A name that ends with the extension ends with no dot. -/
theorem getLast?_ne_dot (p : ChapterPath) (name : String) :
    (name ++ "." ++ p.extension).toList.getLast? ≠ some '.' := by
  intro hlast
  have hext : p.extension.toList ≠ [] := fun he => p.extension_ne (String.toList_eq_nil_iff.1 he)
  rw [String.toList_append, List.getLast?_append_of_ne_nil _ hext] at hlast
  exact absurd (p.plain_extension _ (List.mem_of_getLast? hlast)) (by decide)

/-- The stem of a plain name with an extension is no dot. -/
theorem splitName_fst_ne_dot {name extension : String} (hname : ∀ c ∈ name.toList, isPlain c = true)
    (hext : ∀ c ∈ extension.toList, isPlain c = true) (hne : extension ≠ "") :
    (splitName (name ++ "." ++ extension)).1 ≠ "." := by
  have hdot : ∀ c ∈ extension.toList, (c == '.') = false :=
    beq_eq_false_of_not_mem fun hc => absurd (hext _ hc) (by decide)
  have hsplit : splitLast? (· == '.') (name ++ "." ++ extension).toList =
      some (name.toList, extension.toList) := by
    simpa using splitLast?_append_cons (p := (· == '.')) (a := '.') rfl hdot name.toList
  rw [splitName, hsplit]
  by_cases hnil : name.toList.isEmpty = true
  · simp only [hnil, if_true]
    intro he
    rw [← String.toList_inj] at he
    simp_all
  · simp only [hnil]
    intro he
    exact absurd (hname '.' (by simpa using congrArg ('.' ∈ ·.toList) he)) (by decide)

/-- **Where a link to a section leads.** The document is the chapter's, and the section is the one that the
table knows by the id with escapes. -/
theorem exists_destination_linkTo (p : ChapterPath) {id : String}
    (hid : ∀ c ∈ id.toList, isControlOrSpace c = false) :
    ∃ stem, stem? p.text = some stem ∧ ∀ anchors : AnchorTable,
      destination (p.linkTo id) anchors = catalogReference stem (anchors.get? (escaped id)) := by
  obtain ⟨r, htext, hfragment, hpath, name, hfile, hname⟩ := p.exists_reference hid
  have hpercent : '%' ∉ r.file.toList := fun hc => by
    have hc : '%' ∈ p.text.toList := by simp [← hpath, hc]
    exact p.ne_of_mem_text hc rfl (by decide) (by decide) rfl
  have hlast : r.file.toList.getLast? ≠ some '.' := hfile ▸ p.getLast?_ne_dot name
  have hisName : IsName r.file := by
    refine ⟨?_, ?_, ?_, r.no_slash⟩ <;> intro he
    · simp [he] at hfile
    · simp [he] at hlast
    · simp [he] at hlast
  have hfileName : fileName? p.text = some r.file := by
    rw [← hpath]
    exact fileName?_eq_some (getLast?_names r.directory_ends r.no_slash hisName.ne_empty)
      hisName.ne_dot hisName.ne_dots
  have hid : r.id = (splitName r.file).1 := by
    rw [r.id_of_file ⟨hisName.ne_empty, isStep_eq_false hpercent hlast⟩, unescaped,
      Percent.decodeText_of_no_percent hpercent, String.ofList_toList, idOfName, stem?_of_isName hisName]
    exact if_neg (hfile ▸ splitName_fst_ne_dot hname p.plain_extension p.extension_ne)
  refine ⟨(splitName r.file).1, by simp [stem?, hfileName], fun anchors => ?_⟩
  rw [← htext, r.destination_eq, hid, hfragment]
  rfl

end ChapterPath

/-! ## Sections that links reach -/

open Chapters in
/-- The table of a book knows the ids of its sections. -/
theorem exists_slug_of_section {chapters : List (String × String)} {id : String} {e : Html.Element}
    (he : e ∈ elements chapters) (hfound : isFoundBy id e = true) :
    ∃ slug, (bookTable chapters).get? id = some slug := by
  rw [leadsToFirst_bookTable chapters id]
  have hsome : ((elements chapters).find? (isFoundBy id)).isSome := List.find?_isSome.2 ⟨e, he, hfound⟩
  obtain ⟨first, hfirst⟩ := Option.isSome_iff_exists.1 hsome
  obtain ⟨-, slug, hslug⟩ := isFoundBy_iff.1 (List.find?_some hfirst)
  exact ⟨slug, by rw [hfirst]; exact headingSlug?_of_anchor? hslug⟩

theorem catalogReference_some (id slug : String) :
    catalogReference id (some slug) = "doc:" ++ id ++ "#" ++ slug := by
  simp [catalogReference, catalogScheme, String.append_assoc]

/-- A fragment is looked up as it is written exactly if each of its characters is kept. -/
theorem escaped_eq_self_iff {fragment : String} :
    escaped fragment = fragment ↔
      ∀ c ∈ fragment.toList, Percent.isKept Percent.inFragmentSet c = true := by
  rw [← Percent.encode_eq_self_iff, ← String.toList_inj, escaped, String.toList_ofList]

/-- **A link reaches a section exactly when nothing in the section's id is escaped.** Take a chapter with a
plain path, and an id without spaces and control characters. That every table which knows the id leads the
link to the slug it has for it holds exactly when each character of the id is kept in a fragment. Then the
link reaches every section of that id in a book. -/
theorem section_reached_iff (p : ChapterPath) {id : String}
    (hid : ∀ c ∈ id.toList, isControlOrSpace c = false) :
    ∃ stem, stem? p.text = some stem ∧
      ((∀ (anchors : AnchorTable) (slug : String), anchors.get? id = some slug →
          destination (p.linkTo id) anchors = "doc:" ++ stem ++ "#" ++ slug) ↔
        ∀ c ∈ id.toList, Percent.isKept Percent.inFragmentSet c = true) ∧
      ((∀ c ∈ id.toList, Percent.isKept Percent.inFragmentSet c = true) →
        ∀ chapters, ∀ e ∈ Chapters.elements chapters, Chapters.isFoundBy id e = true →
          ∃ slug, (Chapters.bookTable chapters).get? id = some slug ∧
            destination (p.linkTo id) (Chapters.bookTable chapters) =
              "doc:" ++ stem ++ "#" ++ slug) := by
  obtain ⟨stem, hstem, hdest⟩ := p.exists_destination_linkTo hid
  have hreach : escaped id = id → ∀ (anchors : AnchorTable) (slug : String),
      anchors.get? id = some slug →
        destination (p.linkTo id) anchors = "doc:" ++ stem ++ "#" ++ slug := by
    intro hkept anchors slug hslug
    rw [hdest, hkept, hslug, catalogReference_some]
  refine ⟨stem, hstem, ⟨fun h => ?_, fun h => hreach (escaped_eq_self_iff.2 h)⟩,
    fun h chapters e he hfound => ?_⟩
  · -- a table that knows this id alone does not know the escaped one
    refine escaped_eq_self_iff.1 (Classical.byContradiction fun hne => ?_)
    have hknown : (AnchorTable.ofList [(id, "slug")]).get? id = some "slug" := by
      rw [AnchorTable.get?_ofList, List.lookup_cons_self]
    have hunknown : (AnchorTable.ofList [(id, "slug")]).get? (escaped id) = none := by
      rw [AnchorTable.get?_ofList, AnchorTable.lookup_cons_of_ne hne, List.lookup_nil]
    have hlink := h _ _ hknown
    rw [hdest, hunknown, ← catalogReference_some, catalogReference_inj] at hlink
    cases hlink
  · obtain ⟨slug, hslug⟩ := exists_slug_of_section he hfound
    exact ⟨slug, hslug, hreach (escaped_eq_self_iff.2 h) _ slug hslug⟩

/-- A chapter in a directory. -/
def basics : ChapterPath where
  base := "LanguageGuide/TheBasics"
  extension := "xhtml"
  plain_base := List.all_iff_forall_prop.1 (by decide)
  relative := by decide
  plain_extension := List.all_iff_forall_prop.1 (by decide)
  extension_ne := by decide

theorem section_reached_iff_basics :
    (∀ c ∈ "ID461".toList, isControlOrSpace c = false) ∧
      ∃ stem, stem? basics.text = some stem ∧
        ((∀ (anchors : AnchorTable) (slug : String), anchors.get? "ID461" = some slug →
            destination (basics.linkTo "ID461") anchors = "doc:" ++ stem ++ "#" ++ slug) ↔
          ∀ c ∈ "ID461".toList, Percent.isKept Percent.inFragmentSet c = true) ∧
        ((∀ c ∈ "ID461".toList, Percent.isKept Percent.inFragmentSet c = true) →
          ∀ chapters, ∀ e ∈ Chapters.elements chapters, Chapters.isFoundBy "ID461" e = true →
            ∃ slug, (Chapters.bookTable chapters).get? "ID461" = some slug ∧
              destination (basics.linkTo "ID461") (Chapters.bookTable chapters) =
                "doc:" ++ stem ++ "#" ++ slug) := by
  have hid : ∀ c ∈ "ID461".toList, isControlOrSpace c = false := List.all_iff_forall_prop.1 (by decide)
  exact ⟨hid, section_reached_iff basics hid⟩

/-- The id of a section with a letter outside ASCII: the table knows it, and the link leads to the chapter
alone. -/
theorem accented_section_missed :
    ∃ (p : ChapterPath) (id : String) (anchors : AnchorTable) (slug stem : String),
      id ≠ "" ∧ (∀ c ∈ id.toList, isBlank c = false ∧ isControlOrSpace c = false) ∧
        anchors.get? id = some slug ∧ stem? p.text = some stem ∧
        destination (p.linkTo id) anchors = "doc:" ++ stem ∧
        destination (p.linkTo id) anchors ≠ "doc:" ++ stem ++ "#" ++ slug := by
  refine ⟨basics, "é", .ofList [("é", "Intro")], "Intro", "TheBasics", by decide,
    List.all_iff_forall_prop.1 (by decide), ?_⟩
  decide +kernel

end BookCatalog.Link
