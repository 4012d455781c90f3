import BookCatalog.Proofs.FormatHistory

/-!
# The order in which formats are gone through

A registry tells the format of a file by the first of its formats that claims the extension, in whatever order
it goes through them. The answer is the same in every order exactly when no two formats of the registry
claim the extension (`detection_unordered_iff`). The formats that come with the catalog have no extension in
common (`detectAmong_of_perm_builtIn`), but a format that is registered besides them may claim one of theirs.
-/

namespace BookCatalog.FormatRegistry

/-! ## The first claim in some order -/

section
variable {formats entries : List Format} {fileName extension : String} {f : Format}

/-- Some formats of which at most one claims an extension. -/
def ClaimedOnce (formats : List Format) (extension : String) : Prop :=
  ∀ f ∈ formats, ∀ g ∈ formats, f.claims extension = true → g.claims extension = true → f = g

/-- When there is only one claim, it is found in every order. -/
theorem find?_claims_of_perm (hperm : entries.Perm formats) (honce : ClaimedOnce formats extension) :
    entries.find? (·.claims extension) = formats.find? (·.claims extension) := by
  cases hfound : entries.find? (·.claims extension) with
  | none =>
    refine (List.find?_eq_none.2 fun f hf => ?_).symm
    exact List.find?_eq_none.1 hfound f (hperm.mem_iff.2 hf)
  | some f =>
    obtain ⟨hf, hclaims⟩ := claims_of_find? hfound
    cases hfound' : formats.find? (·.claims extension) with
    | none => exact absurd hclaims (List.find?_eq_none.1 hfound' f (hperm.mem_iff.1 hf))
    | some g =>
      obtain ⟨hg, hclaims'⟩ := claims_of_find? hfound'
      rw [honce f (hperm.mem_iff.1 hf) g hg hclaims hclaims']

/-- A format can be put before all others, and is then the one that is told if it claims the extension. -/
theorem exists_perm_detectAmong (hf : f ∈ formats) (hextension : FilePath.extension? fileName = some extension)
    (hclaims : f.claims extension = true) :
    ∃ entries : List Format, entries.Perm formats ∧ detectAmong entries fileName = some f.name := by
  obtain ⟨before, after, rfl⟩ := List.append_of_mem hf
  refine ⟨f :: (before ++ after), List.perm_middle.symm, ?_⟩
  have hfirst : (f :: (before ++ after)).find? (·.claims extension) = some f := List.find?_cons_of_pos hclaims
  rw [detectAmong_of_extension hextension, hfirst, Option.map_some]

/-- The formats of a registry have different names, so a format is known from its name. -/
theorem eq_of_name_eq {r : FormatRegistry} {f g : Format} (hf : f ∈ r.formats) (hg : g ∈ r.formats)
    (h : f.name = g.name) : f = g :=
  List.inj_on_of_nodup_map r.distinct hf hg h

/-- The order does not matter for a file exactly when its extension is claimed once. -/
theorem detectAmong_unordered_iff (r : FormatRegistry) (fileName : String) :
    (∀ entries entries' : List Format, entries.Perm r.formats → entries'.Perm r.formats →
      detectAmong entries fileName = detectAmong entries' fileName) ↔
      ∀ extension, FilePath.extension? fileName = some extension → ClaimedOnce r.formats extension := by
  constructor
  · intro h extension hextension f hf g hg hclaims hclaims'
    obtain ⟨entries, hperm, hdetect⟩ := exists_perm_detectAmong hf hextension hclaims
    obtain ⟨entries', hperm', hdetect'⟩ := exists_perm_detectAmong hg hextension hclaims'
    have hname : some f.name = some g.name := by
      rw [← hdetect, ← hdetect', h entries entries' hperm hperm']
    exact eq_of_name_eq hf hg (Option.some.inj hname)
  · intro h entries entries' hperm hperm'
    cases hextension : FilePath.extension? fileName with
    | none => simp [detectAmong, hextension]
    | some extension =>
      have honce := h extension hextension
      rw [detectAmong_of_extension hextension, detectAmong_of_extension hextension,
        find?_claims_of_perm hperm honce, find?_claims_of_perm hperm' honce]

end

/-! ## The formats that come with the catalog -/

theorem claims_json_iff {extension : String} : Format.json.claims extension = true ↔ extension = "json" := by
  simp [Format.claims, Format.json]

theorem claims_markdown_iff {extension : String} :
    Format.markdown.claims extension = true ↔ extension = "md" ∨ extension = "markdown" := by
  simp [Format.claims, Format.markdown]

theorem mem_formats_builtIn {f : Format} : f ∈ builtIn.formats ↔ f = .json ∨ f = .markdown := by
  have hformats : builtIn.formats = [.json, .markdown] := rfl
  simp [hformats]

theorem claimedOnce_builtIn (extension : String) : ClaimedOnce builtIn.formats extension := by
  intro f hf g hg hclaims hclaims'
  rcases mem_formats_builtIn.1 hf with rfl | rfl <;> rcases mem_formats_builtIn.1 hg with rfl | rfl
  · rfl
  · rw [claims_json_iff] at hclaims
    simp [claims_markdown_iff, hclaims] at hclaims'
  · rw [claims_json_iff] at hclaims'
    simp [claims_markdown_iff, hclaims'] at hclaims
  · rfl

theorem detectAmong_of_perm_builtIn {entries : List Format} (hperm : entries.Perm builtIn.formats)
    (fileName : String) : detectAmong entries fileName = builtIn.detect fileName :=
  (detectAmong_unordered_iff builtIn fileName).2 (fun extension _ => claimedOnce_builtIn extension)
    entries builtIn.formats hperm (.refl _)

/-! ## Registries with any formats -/

/-- **The order of the formats does not matter exactly when no two of them claim the extension.** After any
registrations, whichever two orders the formats of the registry are gone through in, a file is told to be of the
same format, or of none: if its extension is claimed by two formats that are held, and only then, there are
orders that give different answers. -/
theorem detection_unordered_iff (history : List Format) (fileName : String) :
    (∀ entries entries' : List Format, entries.Perm (empty.registerAll history).formats →
      entries'.Perm (empty.registerAll history).formats →
        detectAmong entries fileName = detectAmong entries' fileName) ↔
      ∀ extension f g, FilePath.extension? fileName = some extension → IsHeld f history → IsHeld g history →
        f.claims extension = true → g.claims extension = true → f.name = g.name := by
  have hheld : ∀ f, f ∈ (empty.registerAll history).formats ↔ IsHeld f history := fun f => by
    have hlatest : (empty.registerAll history).HoldsLatest history := holdsLatest_empty.registerAll
    rw [mem_formats_iff, hlatest, IsHeld]
  rw [detectAmong_unordered_iff]
  constructor
  · intro h extension f g hextension hf hg hclaims hclaims'
    rw [h extension hextension f ((hheld f).2 hf) g ((hheld g).2 hg) hclaims hclaims']
  · intro h extension hextension f hf g hg hclaims hclaims'
    exact eq_of_name_eq hf hg
      (h extension f g hextension ((hheld f).1 hf) ((hheld g).1 hg) hclaims hclaims')

/-- A format that is known by a name and claims one extension. -/
def claiming (name extension : String) : Format where
  name := name
  extensions := [extension]
  render _ := .ok ""

/-- Two formats that claim `txt`: whichever is gone through first is the format of `a.txt`. -/
theorem detection_depends_on_order :
    ¬∀ (history : List Format) (fileName : String) (entries entries' : List Format),
      entries.Perm (empty.registerAll history).formats → entries'.Perm (empty.registerAll history).formats →
        detectAmong entries fileName = detectAmong entries' fileName := by
  intro h
  have hperm : [claiming "notes" "txt", claiming "memo" "txt"].Perm
      (empty.registerAll [claiming "notes" "txt", claiming "memo" "txt"]).formats := .swap _ _ _
  have hsame := h _ "a.txt" _ _ hperm (.refl _)
  exact absurd hsame (by decide)

end BookCatalog.FormatRegistry
