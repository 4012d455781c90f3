import BookCatalog.Spine
import Mathlib.Data.List.Basic

/-!
# The reading order of a book

A package document lists its files in a manifest and its chapters in a spine. The chapters in reading order
are what the entries of the first spine name in the first manifest, entry by entry: the path of the last item
that has the id of the entry and a path. An entry without an id, or with an id that no such item has, is
left out (`chapters_of_package`).

So it does not matter in which order the items of different ids stand, nor what stands between the items
and between the entries.
-/

namespace BookCatalog.Spine

open BookCatalog.Xml

/-! ## What a package document says -/

/-- No element of the name stands directly in another. -/
def Lacks (e : Element) (base : String) : Prop :=
  ∀ child, Node.element child ∈ e.children → child.name.base ≠ base

/-- An element is the first one of its name directly in another. -/
def IsFirst (e : Element) (base : String) (child : Element) : Prop :=
  ∃ before after, e.children = before ++ .element child :: after ∧ child.name.base = base ∧
    ∀ other, Node.element other ∈ before → other.name.base ≠ base

/-- A source is a package document with a manifest and a spine. -/
def IsPackage (source : String) (manifest spine : Element) : Prop :=
  ∃ package, Element.ofText? source = some package ∧ IsFirst package "manifest" manifest ∧
    IsFirst package "spine" spine

/-- A manifest gives a path to an id: the last of the items that have the id and a path has this one. -/
def Gives (manifest : Element) (id path : String) : Prop :=
  ∃ before item after, manifest.childrenNamed "item" = before ++ item :: after ∧
    item.attribute? "id" = some id ∧ item.attribute? "href" = some path ∧
    ∀ later ∈ after, later.attribute? "id" = some id → later.attribute? "href" = none

/-- The paths that a manifest gives to the entries of a spine. -/
inductive Reads (manifest : Element) : List Element → List String → Prop where
  | nil : Reads manifest [] []
  | found {entry : Element} {entries : List Element} {id path : String} {paths : List String}
      (hid : entry.attribute? "idref" = some id) (hpath : Gives manifest id path)
      (h : Reads manifest entries paths) : Reads manifest (entry :: entries) (path :: paths)
  | skipped {entry : Element} {entries : List Element} {paths : List String}
      (hnone : ∀ id path, entry.attribute? "idref" = some id → ¬Gives manifest id path)
      (h : Reads manifest entries paths) : Reads manifest (entry :: entries) paths

/-- The parts of an element with others among them that are no elements of a name: texts, comments,
instructions and elements of other names. -/
inductive Padded (base : String) : List Node → List Node → Prop where
  | nil : Padded base [] []
  | keep {parts more : List Node} (part : Node) (h : Padded base parts more) :
      Padded base (part :: parts) (part :: more)
  | add {parts more : List Node} {part : Node} (hother : ∀ e, part = .element e → e.name.base ≠ base)
      (h : Padded base parts more) : Padded base parts (part :: more)

/-- The items of a manifest, no two of which have one id, in another order. -/
def Shuffled (manifest manifest' : Element) : Prop :=
  (manifest'.childrenNamed "item").Perm (manifest.childrenNamed "item") ∧
    ((manifest.childrenNamed "item").filterMap (·.attribute? "id")).Nodup

/-! ## Elements of a name -/

/-- The element of a name that a part is. -/
def named? (base : String) (part : Node) : Option Element := part.element?.filter (·.name.base = base)

theorem childrenNamed_eq (e : Element) (base : String) :
    e.childrenNamed base = e.children.filterMap (named? base) :=
  List.filter_filterMap

theorem named?_eq_some_iff {base : String} {part : Node} {e : Element} :
    named? base part = some e ↔ part = .element e ∧ e.name.base = base := by
  cases part <;> simp [named?, Node.element?, Option.filter_eq_some_iff]

theorem named?_eq_none_iff {base : String} {part : Node} :
    named? base part = none ↔ ∀ e, part = .element e → e.name.base ≠ base := by
  simp [Option.eq_none_iff_forall_ne_some, named?_eq_some_iff]

theorem head?_childrenNamed_eq_some_iff {e : Element} {base : String} {child : Element} :
    (e.childrenNamed base).head? = some child ↔ IsFirst e base child := by
  rw [childrenNamed_eq, List.head?_filterMap, List.findSome?_eq_some_iff]
  simp only [named?_eq_some_iff, named?_eq_none_iff]
  constructor
  · rintro ⟨before, _, after, hparts, ⟨rfl, hname⟩, hbefore⟩
    exact ⟨before, after, hparts, hname, fun other h => hbefore _ h other rfl⟩
  · rintro ⟨before, after, hparts, hname, hbefore⟩
    refine ⟨before, _, after, hparts, ⟨rfl, hname⟩, ?_⟩
    rintro _ h other rfl
    exact hbefore other h

theorem childrenNamed_eq_nil_iff {e : Element} {base : String} :
    e.childrenNamed base = [] ↔ Lacks e base := by
  rw [childrenNamed_eq, List.filterMap_eq_nil_iff]
  simp only [named?_eq_none_iff]
  constructor
  · intro h child hmem
    exact h _ hmem child rfl
  · rintro h _ hmem child rfl
    exact h child hmem

/-- A name is missing, or there is a first element of it. -/
theorem lacks_or_isFirst (e : Element) (base : String) : Lacks e base ∨ ∃ child, IsFirst e base child := by
  cases h : e.childrenNamed base with
  | nil => exact .inl (childrenNamed_eq_nil_iff.1 h)
  | cons child rest => exact .inr ⟨child, head?_childrenNamed_eq_some_iff.1 (by rw [h]; rfl)⟩

theorem IsFirst.not_lacks {e child : Element} {base : String} (h : IsFirst e base child) :
    ¬Lacks e base := by
  obtain ⟨before, after, hparts, hname, -⟩ := h
  intro hlacks
  exact hlacks child (by simp [hparts]) hname

/-- What is put between the elements of a name does not count among them. -/
theorem Padded.filterMap_eq {base : String} {parts more : List Node} (h : Padded base parts more) :
    more.filterMap (named? base) = parts.filterMap (named? base) := by
  induction h with
  | nil => rfl
  | keep part _ ih => rw [List.filterMap_cons, List.filterMap_cons, ih]
  | add hother _ ih => rw [List.filterMap_cons_none (named?_eq_none_iff.2 hother), ih]

theorem Padded.childrenNamed_eq {base : String} {e e' : Element} (h : Padded base e.children e'.children) :
    e'.childrenNamed base = e.childrenNamed base := by
  rw [Spine.childrenNamed_eq, Spine.childrenNamed_eq, h.filterMap_eq]

/-! ## Ids and paths -/

/-- The id and the path of an item. -/
def file? (item : Element) : Option (String × String) := do
  return (← item.attribute? "id", ← item.attribute? "href")

theorem files_eq (manifest : Element) :
    files manifest = (manifest.childrenNamed "item").filterMap file? := rfl

theorem file?_eq_some_iff {item : Element} {id path : String} :
    file? item = some (id, path) ↔
      item.attribute? "id" = some id ∧ item.attribute? "href" = some path := by
  unfold file?
  cases item.attribute? "id" <;> cases item.attribute? "href" <;> simp

/-- Of the files of one id the last one counts. -/
theorem path?_eq_some_iff {manifest : Element} {id path : String} :
    path? (files manifest) id = some path ↔ Gives manifest id path := by
  simp only [path?, files_eq, Gives, List.lookup_eq_some_iff, bne_iff_ne, ne_eq]
  constructor
  · rintro ⟨later, earlier, hsplit, hlater⟩
    rw [List.reverse_eq_iff, List.reverse_append, List.reverse_cons, List.append_assoc,
      List.singleton_append, List.filterMap_eq_append_iff] at hsplit
    obtain ⟨front, back, hitems, -, hback⟩ := hsplit
    obtain ⟨skipped, item, after, rfl, -, hitem, hafter⟩ := List.filterMap_eq_cons_iff.1 hback
    obtain ⟨hid, hpath⟩ := file?_eq_some_iff.1 hitem
    refine ⟨front ++ skipped, item, after, by rw [hitems, List.append_assoc], hid, hpath, ?_⟩
    intro other hother hother_id
    by_contra hsome
    obtain ⟨p, hp⟩ := Option.ne_none_iff_exists'.1 hsome
    have hmem : (id, p) ∈ later.reverse := by
      rw [← hafter]
      exact List.mem_filterMap.2 ⟨other, hother, file?_eq_some_iff.2 ⟨hother_id, hp⟩⟩
    exact hlater _ (List.mem_reverse.1 hmem) rfl
  · rintro ⟨before, item, after, hitems, hid, hpath, hafter⟩
    rw [hitems, List.filterMap_append, List.filterMap_cons_some (file?_eq_some_iff.2 ⟨hid, hpath⟩),
      List.reverse_append, List.reverse_cons, List.append_assoc, List.singleton_append]
    refine ⟨_, _, rfl, ?_⟩
    rintro ⟨key, p⟩ hmem rfl
    obtain ⟨other, hother, hfile⟩ := List.mem_filterMap.1 (List.mem_reverse.1 hmem)
    obtain ⟨hother_id, hother_path⟩ := file?_eq_some_iff.1 hfile
    rw [hafter other hother hother_id] at hother_path
    cases hother_path

/-- When no two items have one id, any of them gives its path to its id. -/
theorem gives_iff_mem {manifest : Element}
    (h : ((manifest.childrenNamed "item").filterMap (·.attribute? "id")).Nodup) {id path : String} :
    Gives manifest id path ↔ ∃ item ∈ manifest.childrenNamed "item",
      item.attribute? "id" = some id ∧ item.attribute? "href" = some path := by
  constructor
  · rintro ⟨before, item, after, hitems, hid, hpath, -⟩
    exact ⟨item, by simp [hitems], hid, hpath⟩
  · rintro ⟨item, hmem, hid, hpath⟩
    obtain ⟨before, after, hitems⟩ := List.append_of_mem hmem
    refine ⟨before, item, after, hitems, hid, hpath, fun later hlater hlater_id => ?_⟩
    -- a later item of the id would repeat it
    have hagain : id ∈ after.filterMap (·.attribute? "id") := List.mem_filterMap.2 ⟨later, hlater, hlater_id⟩
    simp [hitems, hid, List.nodup_append, hagain] at h

theorem Shuffled.gives_iff {manifest manifest' : Element} (h : Shuffled manifest manifest')
    (id path : String) : Gives manifest' id path ↔ Gives manifest id path := by
  obtain ⟨hperm, hdistinct⟩ := h
  have hdistinct' : ((manifest'.childrenNamed "item").filterMap (·.attribute? "id")).Nodup :=
    (hperm.filterMap _).nodup_iff.2 hdistinct
  simp only [gives_iff_mem hdistinct, gives_iff_mem hdistinct', hperm.mem_iff]

theorem Padded.gives_iff {manifest manifest' : Element}
    (h : Padded "item" manifest.children manifest'.children) (id path : String) :
    Gives manifest' id path ↔ Gives manifest id path := by
  simp only [Gives, h.childrenNamed_eq]

/-! ## Entries -/

/-- The path that an entry leads to. -/
def entryPath? (manifest entry : Element) : Option String :=
  (entry.attribute? "idref").bind (path? (files manifest))

theorem paths_eq_filterMap (manifest spine : Element) :
    paths (files manifest) spine = (spine.childrenNamed "itemref").filterMap (entryPath? manifest) := rfl

theorem entryPath?_eq_some_iff {manifest entry : Element} {path : String} :
    entryPath? manifest entry = some path ↔
      ∃ id, entry.attribute? "idref" = some id ∧ Gives manifest id path := by
  simp only [entryPath?, Option.bind_eq_some_iff, path?_eq_some_iff]

theorem reads_iff {manifest : Element} {entries : List Element} {paths : List String} :
    Reads manifest entries paths ↔
      paths = entries.filterMap (entryPath? manifest) := by
  constructor
  · intro h
    induction h with
    | nil => rfl
    | found hid hpath _ ih =>
      rw [List.filterMap_cons_some (entryPath?_eq_some_iff.2 ⟨_, hid, hpath⟩), ih]
    | skipped hnone _ ih =>
      rw [List.filterMap_cons_none, ih]
      rw [Option.eq_none_iff_forall_ne_some]
      intro path hsome
      obtain ⟨id, hid, hpath⟩ := entryPath?_eq_some_iff.1 hsome
      exact hnone id path hid hpath
  · rintro rfl
    induction entries with
    | nil => exact .nil
    | cons entry entries ih =>
      cases hfound : entryPath? manifest entry with
      | none =>
        rw [List.filterMap_cons_none hfound]
        refine .skipped (fun id path hid hpath => ?_) ih
        rw [entryPath?_eq_some_iff.2 ⟨id, hid, hpath⟩] at hfound
        cases hfound
      | some path =>
        rw [List.filterMap_cons_some hfound]
        obtain ⟨id, hid, hpath⟩ := entryPath?_eq_some_iff.1 hfound
        exact .found hid hpath ih

theorem Reads.congr {manifest manifest' : Element} {entries : List Element} {paths : List String}
    (h : Reads manifest entries paths) (hgives : ∀ id path, Gives manifest' id path ↔ Gives manifest id path) :
    Reads manifest' entries paths := by
  induction h with
  | nil => exact .nil
  | found hid hpath _ ih => exact .found hid ((hgives _ _).2 hpath) ih
  | skipped hnone _ ih => exact .skipped (fun id path hid hpath => hnone id path hid ((hgives _ _).1 hpath)) ih

theorem Reads.length_le {manifest : Element} {entries : List Element} {paths : List String}
    (h : Reads manifest entries paths) : paths.length ≤ entries.length := by
  rw [reads_iff.1 h]
  exact List.length_filterMap_le _ _

/-! ## Reading -/

theorem required_of_isFirst {package child : Element} {base : String} (h : IsFirst package base child)
    (fault : PackageFault) : required package base fault = .ok child := by
  rw [required, head?_childrenNamed_eq_some_iff.2 h]

theorem required_of_lacks {package : Element} {base : String} (h : Lacks package base)
    (fault : PackageFault) : required package base fault = .error (.package fault) := by
  rw [required, childrenNamed_eq_nil_iff.2 h]
  rfl

theorem ofText_of_isPackage {source : String} {manifest spine : Element} {paths : List String}
    (h : IsPackage source manifest spine) (hpaths : Reads manifest (spine.childrenNamed "itemref") paths) :
    ofText source = .ok paths := by
  obtain ⟨package, hsource, hmanifest, hspine⟩ := h
  simp only [ofText, hsource, ofPackage, required_of_isFirst hmanifest, required_of_isFirst hspine]
  rw [reads_iff.1 hpaths, ← paths_eq_filterMap]
  rfl

theorem ofText_of_lacks_manifest {source : String} {package : Element}
    (hsource : Element.ofText? source = some package) (h : Lacks package "manifest") :
    ofText source = .error (.package .noManifest) := by
  simp only [ofText, hsource, ofPackage, required_of_lacks h]
  rfl

theorem ofText_of_lacks_spine {source : String} {package manifest : Element}
    (hsource : Element.ofText? source = some package) (hmanifest : IsFirst package "manifest" manifest)
    (h : Lacks package "spine") : ofText source = .error (.package .noSpine) := by
  simp only [ofText, hsource, ofPackage, required_of_isFirst hmanifest, required_of_lacks h]
  rfl

theorem ofText_of_malformed {source : String} (h : Element.ofText? source = none) :
    ofText source = .error (.package .malformed) := by
  simp only [ofText, h]

/-- What a source can be: not well formed, without a manifest, without a spine, or a package. -/
theorem source_cases (source : String) :
    Element.ofText? source = none ∨ ∃ package, Element.ofText? source = some package ∧
      (Lacks package "manifest" ∨ ∃ manifest, IsFirst package "manifest" manifest ∧
        (Lacks package "spine" ∨ ∃ spine, IsFirst package "spine" spine)) := by
  cases hsource : Element.ofText? source with
  | none => exact .inl rfl
  | some package =>
    refine .inr ⟨package, rfl, ?_⟩
    rcases lacks_or_isFirst package "manifest" with hlacks | ⟨manifest, hmanifest⟩
    · exact .inl hlacks
    · exact .inr ⟨manifest, hmanifest, lacks_or_isFirst package "spine"⟩

theorem ofText_eq_error_iff {source : String} {e : ConversionError} :
    ofText source = .error e ↔
      (Element.ofText? source = none ∧ e = .package .malformed) ∨
      ∃ package, Element.ofText? source = some package ∧
        ((Lacks package "manifest" ∧ e = .package .noManifest) ∨
          (¬Lacks package "manifest" ∧ Lacks package "spine" ∧ e = .package .noSpine)) := by
  obtain hsource | ⟨package, hsource, hlacks | ⟨manifest, hmanifest, hlacks | ⟨spine, hspine⟩⟩⟩ :=
    source_cases source
  · simp [ofText_of_malformed hsource, hsource, eq_comm]
  · simp [ofText_of_lacks_manifest hsource hlacks, hsource, hlacks, eq_comm]
  · simp [ofText_of_lacks_spine hsource hmanifest hlacks, hsource, hlacks, hmanifest.not_lacks, eq_comm]
  · have hpackage : IsPackage source manifest spine := ⟨package, hsource, hmanifest, hspine⟩
    simp [ofText_of_isPackage hpackage (reads_iff.2 rfl), hsource, hmanifest.not_lacks, hspine.not_lacks]

/-- A source is read exactly when it is a package document with a manifest and a spine. -/
theorem exists_isPackage_iff {source : String} :
    (∃ manifest spine, IsPackage source manifest spine) ↔ ∃ paths, ofText source = .ok paths := by
  constructor
  · rintro ⟨manifest, spine, hpackage⟩
    exact ⟨_, ofText_of_isPackage hpackage (reads_iff.2 rfl)⟩
  · rintro ⟨paths, hread⟩
    obtain hsource | ⟨package, hsource, hlacks | ⟨manifest, hmanifest, hlacks | ⟨spine, hspine⟩⟩⟩ :=
      source_cases source
    · simp [ofText_of_malformed hsource] at hread
    · simp [ofText_of_lacks_manifest hsource hlacks] at hread
    · simp [ofText_of_lacks_spine hsource hmanifest hlacks] at hread
    · exact ⟨manifest, spine, package, hsource, hmanifest, hspine⟩

/-- **The chapters of a package are what its spine names in its manifest.** Every package document with a
manifest and a spine is read, and what is read are the paths that the first manifest gives to the entries of
the first spine, at most one for each entry. They are the same when the items of the manifest, none of which
repeats an id, stand in another order, or when texts, comments or other elements are put between them or
between the entries. Nothing is read of a source exactly when it is not well formed, or has no manifest, or
has one and no spine, and this is the error. -/
theorem chapters_of_package (source : String) :
    (∀ manifest spine, IsPackage source manifest spine →
      ∃ paths, ofText source = .ok paths ∧
        (∀ others, Reads manifest (spine.childrenNamed "itemref") others ↔ others = paths) ∧
        paths.length ≤ (spine.childrenNamed "itemref").length ∧
        ∀ source' manifest' spine', IsPackage source' manifest' spine' →
          Padded "item" manifest.children manifest'.children ∨ Shuffled manifest manifest' →
          Padded "itemref" spine.children spine'.children → ofText source' = .ok paths) ∧
    ∀ e, ofText source = .error e ↔
      (Element.ofText? source = none ∧ e = .package .malformed) ∨
      ∃ package, Element.ofText? source = some package ∧
        ((Lacks package "manifest" ∧ e = .package .noManifest) ∨
          (¬Lacks package "manifest" ∧ Lacks package "spine" ∧ e = .package .noSpine)) := by
  refine ⟨fun manifest spine hpackage => ?_, fun e => ofText_eq_error_iff⟩
  obtain ⟨paths, hpaths⟩ : ∃ paths, Reads manifest (spine.childrenNamed "itemref") paths :=
    ⟨_, reads_iff.2 rfl⟩
  refine ⟨paths, ofText_of_isPackage hpackage hpaths, fun others => ?_, hpaths.length_le, ?_⟩
  · rw [reads_iff, ← reads_iff.1 hpaths]
  · intro source' manifest' spine' hpackage' hmanifest hspine
    have hgives : ∀ id path, Gives manifest' id path ↔ Gives manifest id path := by
      rcases hmanifest with hpadded | hshuffled
      · exact hpadded.gives_iff
      · exact hshuffled.gives_iff
    refine ofText_of_isPackage hpackage' ?_
    rw [hspine.childrenNamed_eq]
    exact hpaths.congr hgives

/-- A package document with several items of one id, and with an entry that leads to no chapter. -/
def repeatedPackage : String :=
  "<package><manifest><item id='a' href='x'/>and<item id='a' href='y'/><item id='a'/></manifest>" ++
    "<spine><itemref idref='a'/><!-- --><itemref idref='b'/><itemref idref='a'/></spine></package>"

/-- Of several items of one id the last one counts that has a path. -/
theorem chapters_of_repeatedPackage :
    ∃ manifest spine, IsPackage repeatedPackage manifest spine ∧ ofText repeatedPackage = .ok ["y", "y"] ∧
      Reads manifest (spine.childrenNamed "itemref") ["y", "y"] ∧
      2 ≤ (spine.childrenNamed "itemref").length := by
  have hread : ofText repeatedPackage = .ok ["y", "y"] := by decide +kernel
  obtain ⟨manifest, spine, hpackage⟩ := exists_isPackage_iff.2 ⟨_, hread⟩
  obtain ⟨paths, hpaths, hreads, hlength, -⟩ := (chapters_of_package _).1 manifest spine hpackage
  rw [hread] at hpaths
  cases hpaths
  exact ⟨manifest, spine, hpackage, hread, (hreads _).2 rfl, hlength⟩

end BookCatalog.Spine
