import BookCatalog.Proofs.AnchorHistory
import BookCatalog.Proofs.DetectionOrder
import BookCatalog.Proofs.Results
import BookCatalog.Chapters
import BookCatalog.Transform

/-!
# Transforms and their names

A transform is asked for by a name, which is cut at its first hyphen into a stage and a format. The names that
are understood are those that are listed (`mem_available_iff`), and a name for an output file is one of them.
What a transform shows is what the library makes of the page: the document of a chapter is that of a book with
this chapter alone, and the landing page is that of the parts in the page (`transforms_of_library`).
-/

namespace BookCatalog

namespace FormatRegistry

theorem get?_builtIn_eq_some_iff {format : String} {f : Format} :
    builtIn.get? format = some f ↔ (f = .json ∨ f = .markdown) ∧ f.name = format := by
  rw [get?_eq_some_iff, mem_formats_builtIn]

theorem has_builtIn_iff {format : String} : builtIn.has format = true ↔ format = "json" ∨ format = "markdown" := by
  rw [has, Option.isSome_iff_exists]
  simp only [get?_builtIn_eq_some_iff]
  constructor
  · rintro ⟨f, rfl | rfl, rfl⟩
    · exact .inl rfl
    · exact .inr rfl
  · rintro (rfl | rfl)
    · exact ⟨.json, .inl rfl, rfl⟩
    · exact ⟨.markdown, .inr rfl, rfl⟩

theorem render_builtIn_markdown_eq_ok_iff {d : Document} {text : String} :
    builtIn.render d "markdown" = .ok text ↔ Markdown.render? d = some text := by
  have hrender : builtIn.render d "markdown" = Format.markdown.render d := rfl
  rw [hrender]
  cases h : Markdown.render? d <;> simp [Format.markdown, h]

end FormatRegistry

/-! ## One chapter alone -/

/-- A book of one chapter is converted as the chapter is with its own anchors. -/
theorem Chapters.documents_singleton (name source : String) :
    documents [(name, source)] =
      (Chapter.anchors source >>= Chapter.document source) >>= fun d => .ok [(name, d)] := by
  have hstep : documents [(name, source)] = (Chapter.anchors source >>= fun found =>
      Chapter.document source ((∅ : AnchorTable).merge found) >>= fun d => .ok [(name, d)]) := by
    unfold documents transcode anchors anchorsFrom
    simp only [List.map_cons, List.map_nil, List.mapM_cons, List.mapM_nil, bind_assoc, pure_bind]
    rfl
  rw [hstep]
  simp only [AnchorTable.empty_merge, bind_assoc]

namespace Transform

/-! ## Names -/

/-- The name of a transform. -/
def name : Transform → String
  | .document format => "ast-" ++ format
  | .anchors => "anchors-json"
  | .parts => "nav-json"
  | .landingPage => "nav-markdown"

/-- A transform that there is: a document has to be shown in a format that comes with the catalog. -/
def IsKnown : Transform → Prop
  | .document format => FormatRegistry.builtIn.has format = true
  | .anchors | .parts | .landingPage => True

/-- A stage, a hyphen and a format are cut at that hyphen, when the stage has none. -/
theorem splitFirst?_name {stage : String} (h : '-' ∉ stage.toList) (format : String) :
    Text.splitFirst? (· == '-') (stage ++ "-" ++ format).toList = some (stage.toList, format.toList) := by
  rw [String.toList_append, String.toList_append, List.append_assoc]
  exact Text.splitFirst?_append_cons (by rfl) format.toList (Text.beq_eq_false_of_not_mem h)

theorem ofName?_name {t : Transform} (h : t.IsKnown) : ofName? t.name = some t := by
  cases t with
  | document format =>
    have hname : name (.document format) = "ast" ++ "-" ++ format := rfl
    rw [hname, ofName?, splitFirst?_name (by decide)]
    simp only [IsKnown] at h
    simp [String.ofList_toList, h]
  | anchors => rfl
  | parts => rfl
  | landingPage => rfl

/-- A name that is cut into a stage and a format is made of them. -/
theorem eq_of_splitFirst? {asked : String} {stage format : List Char}
    (h : Text.splitFirst? (· == '-') asked.toList = some (stage, format)) :
    asked = String.ofList stage ++ "-" ++ String.ofList format := by
  obtain ⟨hyphen, hhyphen, hasked⟩ := Text.splitFirst?_eq_some h
  obtain rfl : hyphen = '-' := by simpa using hhyphen
  apply String.toList_injective
  simp [hasked]

/-- A name is understood as the transform whose name it is. -/
theorem ofName?_eq_some_iff {asked : String} {t : Transform} :
    ofName? asked = some t ↔ t.IsKnown ∧ asked = t.name := by
  constructor
  · intro h
    cases hsplit : Text.splitFirst? (· == '-') asked.toList with
    | none => simp [ofName?, hsplit] at h
    | some cut =>
      obtain ⟨stage, format⟩ := cut
      rw [eq_of_splitFirst? hsplit]
      simp only [ofName?, hsplit] at h
      -- a case for each stage, and in it one for each format
      split at h
      · rename_i hstage
        split at h
        · rename_i hformat
          cases h
          exact ⟨hformat, by rw [hstage]; rfl⟩
        · cases h
      · rename_i hstage
        split at h
        · rename_i hformat
          cases h
          exact ⟨trivial, by rw [hstage, hformat]; rfl⟩
        · cases h
      · rename_i hstage
        split at h
        · rename_i hformat
          cases h
          exact ⟨trivial, by rw [hstage, hformat]; rfl⟩
        · split at h
          · rename_i hformat
            cases h
            exact ⟨trivial, by rw [hstage, hformat]; rfl⟩
          · cases h
      · cases h
  · rintro ⟨hknown, rfl⟩
    exact ofName?_name hknown

/-- The names that are listed are those of the transforms that there are. -/
theorem mem_available_iff {asked : String} : asked ∈ available ↔ ∃ t : Transform, t.IsKnown ∧ asked = t.name := by
  constructor
  · intro h
    simp only [available, List.mem_cons, List.not_mem_nil, or_false] at h
    rcases h with rfl | rfl | rfl | rfl | rfl
    · exact ⟨.document "json", FormatRegistry.has_builtIn_iff.2 (.inl rfl), rfl⟩
    · exact ⟨.document "markdown", FormatRegistry.has_builtIn_iff.2 (.inr rfl), rfl⟩
    · exact ⟨.anchors, trivial, rfl⟩
    · exact ⟨.parts, trivial, rfl⟩
    · exact ⟨.landingPage, trivial, rfl⟩
  · rintro ⟨t, hknown, rfl⟩
    cases t with
    | document format =>
      rcases FormatRegistry.has_builtIn_iff.1 hknown with rfl | rfl <;> decide
    | anchors => decide
    | parts => decide
    | landingPage => decide

theorem ofName?_eq_none_iff {asked : String} : ofName? asked = none ↔ asked ∉ available := by
  rw [mem_available_iff, Option.eq_none_iff_forall_ne_some]
  simp only [ne_eq, ofName?_eq_some_iff, not_exists]

/-- The name for an output file is that of a document in a format that claims the extension. -/
theorem nameForOutput?_builtIn_eq_some_iff {file asked : String} :
    nameForOutput? file FormatRegistry.builtIn = some asked ↔
      ∃ extension f, FilePath.extension? file = some extension ∧ f ∈ FormatRegistry.builtIn.formats ∧
        f.claims extension = true ∧ asked = "ast-" ++ f.name := by
  cases hextension : FilePath.extension? file with
  | none => simp [nameForOutput?, FormatRegistry.detect, FormatRegistry.detectAmong, hextension]
  | some extension =>
    rw [nameForOutput?, FormatRegistry.detect, FormatRegistry.detectAmong_of_extension hextension, Option.map_map,
      Option.map_eq_some_iff]
    constructor
    · rintro ⟨f, hfound, rfl⟩
      obtain ⟨hf, hclaims⟩ := FormatRegistry.claims_of_find? hfound
      exact ⟨extension, f, rfl, hf, hclaims, rfl⟩
    · rintro ⟨_, f, ⟨⟩, hf, hclaims, rfl⟩
      have hsome : (FormatRegistry.builtIn.formats.find? (·.claims extension)).isSome = true :=
        List.find?_isSome.2 ⟨f, hf, hclaims⟩
      obtain ⟨g, hfound⟩ := Option.isSome_iff_exists.1 hsome
      obtain ⟨hg, hclaims'⟩ := FormatRegistry.claims_of_find? hfound
      obtain rfl := FormatRegistry.claimedOnce_builtIn extension f hf g hg hclaims hclaims'
      exact ⟨f, hfound, rfl⟩

theorem nameForOutput?_builtIn_eq_none_iff {file : String} :
    nameForOutput? file FormatRegistry.builtIn = none ↔ ∀ extension ∈ FilePath.extension? file,
      ∀ f ∈ FormatRegistry.builtIn.formats, f.claims extension = false := by
  rw [Option.eq_none_iff_forall_ne_some]
  simp only [ne_eq, nameForOutput?_builtIn_eq_some_iff]
  constructor
  · intro h extension hextension f hf
    by_contra hclaims
    exact h _ ⟨extension, f, hextension, hf, Bool.eq_true_of_not_eq_false hclaims, rfl⟩
  · rintro h asked ⟨extension, f, hextension, hf, hclaims, -⟩
    rw [h extension hextension f hf] at hclaims
    cases hclaims

/-- The name for an output file is a listed one, in whatever order the formats that come with the catalog are
gone through. -/
theorem mem_available_of_nameForOutput? {registry : FormatRegistry} {fileName asked : String}
    (hperm : registry.formats.Perm FormatRegistry.builtIn.formats)
    (h : nameForOutput? fileName registry = some asked) : asked ∈ available := by
  have hbuiltIn : nameForOutput? fileName FormatRegistry.builtIn = some asked := by
    rw [nameForOutput?, ← FormatRegistry.detectAmong_of_perm_builtIn hperm]
    exact h
  obtain ⟨extension, f, -, hf, -, rfl⟩ := nameForOutput?_builtIn_eq_some_iff.1 hbuiltIn
  rcases FormatRegistry.mem_formats_builtIn.1 hf with rfl | rfl <;> decide

/-! ## What is shown -/

section
variable {source asked moduleName text format : String}

theorem converted_eq_ok_iff {α : Type} {result : Except ConversionError α} {a : α} :
    converted result = .ok a ↔ result = .ok a := by
  cases result <;> simp [converted, Except.mapError]

theorem converted_eq_error_iff {α : Type} {result : Except ConversionError α} {e : TransformError} :
    converted result = .error e ↔ ∃ e', result = .error e' ∧ e = .conversion e' := by
  cases result <;> simp [converted, Except.mapError, eq_comm]

theorem rendered_eq_ok_iff {d : Document} :
    rendered d format = .ok text ↔ FormatRegistry.builtIn.render d format = .ok text := by
  unfold rendered
  cases FormatRegistry.builtIn.render d format <;> simp [Except.mapError]

theorem rendered_eq_error_iff {d : Document} {e : TransformError} :
    rendered d format = .error e ↔ ∃ e', FormatRegistry.builtIn.render d format = .error e' ∧ e = .rendering e' := by
  unfold rendered
  cases FormatRegistry.builtIn.render d format <;> simp [Except.mapError, eq_comm]

/-- What fails in a transform is the conversion of the page or the rendering of a document. -/
theorem run_eq_error_cases {t : Transform} {e : TransformError} (h : t.run source moduleName = .error e) :
    (∃ e', e = .conversion e') ∨ ∃ e', e = .rendering e' := by
  cases t with
  | document format =>
    simp only [run, bind_eq_error_iff, converted_eq_error_iff, rendered_eq_error_iff] at h
    rcases h with ⟨e', -, rfl⟩ | ⟨found, -, ⟨e', -, rfl⟩ | ⟨d, -, e', -, rfl⟩⟩
    · exact .inl ⟨e', rfl⟩
    · exact .inl ⟨e', rfl⟩
    · exact .inr ⟨e', rfl⟩
  | anchors =>
    simp only [run, bind_eq_error_iff, converted_eq_error_iff] at h
    rcases h with ⟨e', -, rfl⟩ | ⟨found, -, hpure⟩
    · exact .inl ⟨e', rfl⟩
    · cases hpure
  | parts =>
    simp only [run, bind_eq_error_iff, converted_eq_error_iff] at h
    rcases h with ⟨e', -, rfl⟩ | ⟨parts, -, hpure⟩
    · exact .inl ⟨e', rfl⟩
    · cases hpure
  | landingPage =>
    simp only [run, bind_eq_error_iff, converted_eq_error_iff, rendered_eq_error_iff] at h
    rcases h with ⟨e', -, rfl⟩ | ⟨parts, -, e', -, rfl⟩
    · exact .inl ⟨e', rfl⟩
    · exact .inr ⟨e', rfl⟩

/-- Texts whose beginnings have different first letters are different. -/
theorem append_ne_append {beginning beginning' : String} {c c' : Char}
    (h : beginning.toList.head? = some c) (h' : beginning'.toList.head? = some c') (hne : c ≠ c')
    (rest rest' : String) : beginning ++ rest ≠ beginning' ++ rest' := by
  intro heq
  have hhead := congrArg (fun text : String => text.toList.head?) heq
  simp only [String.toList_append, List.head?_append, h, h', Option.some_or, Option.some.injEq] at hhead
  exact hne hhead

/-- Only an unknown name has the message of one. -/
theorem message_eq_unknown_iff {e : TransformError} :
    e.message = "Unknown transform: " ++ asked ↔ e = .unknown asked := by
  cases e with
  | unknown name =>
    have hmessage : (TransformError.unknown name).message = "Unknown transform: " ++ name := rfl
    rw [hmessage, String.append_right_inj, TransformError.unknown.injEq]
  | conversion e =>
    exact iff_of_false (append_ne_append rfl rfl (by decide) e.message asked) (by simp)
  | rendering e =>
    exact iff_of_false (append_ne_append rfl rfl (by decide) e.message asked) (by simp)

theorem runNamed_of_ofName? {t : Transform} (h : ofName? asked = some t) :
    runNamed source asked moduleName = t.run source moduleName := by
  rw [runNamed, h]

/-- The error of an unknown name is given for the names that are not listed, and for no others. -/
theorem runNamed_eq_unknown_iff :
    runNamed source asked moduleName = .error (.unknown asked) ↔ asked ∉ available := by
  rw [← ofName?_eq_none_iff]
  cases ht : ofName? asked with
  | none => simp [runNamed, ht]
  | some t =>
    refine iff_of_false (fun h => ?_) (by simp)
    rw [runNamed_of_ofName? ht] at h
    rcases run_eq_error_cases h with ⟨e', he⟩ | ⟨e', he⟩ <;> cases he

/-- The document of a chapter is shown as that of a book with this chapter alone. -/
theorem runNamed_document_eq_ok_iff (h : FormatRegistry.builtIn.has format = true) (chapter : String) :
    runNamed source ("ast-" ++ format) moduleName = .ok text ↔
      ∃ d, Chapters.documents [(chapter, source)] = .ok [(chapter, d)] ∧
        FormatRegistry.builtIn.render d format = .ok text := by
  have hname : ofName? ("ast-" ++ format) = some (.document format) := ofName?_name (t := .document format) h
  rw [runNamed_of_ofName? hname, Chapters.documents_singleton]
  simp only [run, bind_eq_ok_iff, converted_eq_ok_iff, rendered_eq_ok_iff, Except.ok.injEq,
    List.cons.injEq, Prod.mk.injEq, true_and, and_true]
  constructor
  · rintro ⟨found, hfound, d, hd, htext⟩
    exact ⟨d, ⟨d, ⟨found, hfound, hd⟩, rfl⟩, htext⟩
  · rintro ⟨_, ⟨d, ⟨found, hfound, hd⟩, rfl⟩, htext⟩
    exact ⟨found, hfound, d, hd, htext⟩

/-- It fails to be converted with the error of that book. -/
theorem runNamed_document_eq_error_iff (h : FormatRegistry.builtIn.has format = true) (chapter : String)
    {e : ConversionError} :
    runNamed source ("ast-" ++ format) moduleName = .error (.conversion e) ↔
      Chapters.documents [(chapter, source)] = .error e := by
  have hname : ofName? ("ast-" ++ format) = some (.document format) := ofName?_name (t := .document format) h
  rw [runNamed_of_ofName? hname, Chapters.documents_singleton]
  simp only [run, bind_eq_error_iff, converted_eq_error_iff, converted_eq_ok_iff, rendered_eq_error_iff]
  simp

theorem runNamed_landingPage_eq_ok_iff :
    runNamed source "nav-markdown" moduleName = .ok text ↔
      ∃ parts, TableOfContents.parts source = .ok parts ∧
        Markdown.render? (TableOfContents.landingPage parts moduleName) = some text := by
  have hname : ofName? "nav-markdown" = some .landingPage := ofName?_name (t := .landingPage) trivial
  rw [runNamed_of_ofName? hname]
  simp only [run, bind_eq_ok_iff, converted_eq_ok_iff, rendered_eq_ok_iff,
    FormatRegistry.render_builtIn_markdown_eq_ok_iff]

end

/-- **The transforms that are listed are those that are understood, and they show what the library makes of a
page.** For every page: a name is refused as unknown exactly when it is not listed; the name for an output file
is a listed one, in whatever order the formats that come with the catalog are gone through; a chapter is shown
in a format as the document of the book with this chapter alone, under any name, and fails to be converted with
the error of that book; and the landing page that is shown is that of the parts in the page. -/
theorem transforms_of_library (source moduleName : String) :
    (∀ asked, (∃ e, runNamed source asked moduleName = .error e ∧ e.message = "Unknown transform: " ++ asked) ↔
      asked ∉ available) ∧
    (∀ registry : FormatRegistry, registry.formats.Perm FormatRegistry.builtIn.formats →
      ∀ fileName, ∀ asked ∈ nameForOutput? fileName registry, asked ∈ available) ∧
    (∀ format ∈ FormatRegistry.builtIn.names, ∀ chapter,
      (∀ text, runNamed source ("ast-" ++ format) moduleName = .ok text ↔
        ∃ d, Chapters.documents [(chapter, source)] = .ok [(chapter, d)] ∧
          FormatRegistry.builtIn.render d format = .ok text) ∧
      ∀ e, runNamed source ("ast-" ++ format) moduleName = .error (.conversion e) ↔
        Chapters.documents [(chapter, source)] = .error e) ∧
    ∀ text, runNamed source "nav-markdown" moduleName = .ok text ↔
      ∃ parts, TableOfContents.parts source = .ok parts ∧
        Markdown.render? (TableOfContents.landingPage parts moduleName) = some text := by
  refine ⟨fun asked => ?_, ?_, ?_, fun text => runNamed_landingPage_eq_ok_iff⟩
  · simp only [message_eq_unknown_iff, exists_eq_right, runNamed_eq_unknown_iff]
  · intro registry hperm fileName asked hasked
    exact mem_available_of_nameForOutput? hperm (Option.mem_def.1 hasked)
  · intro format hformat chapter
    have hhas := FormatRegistry.has_iff.2 hformat
    exact ⟨fun text => runNamed_document_eq_ok_iff hhas chapter,
      fun e => runNamed_document_eq_error_iff hhas chapter⟩

/-- A chapter with one paragraph, and the formats that come with the catalog in their other order. -/
theorem transforms_of_smallChapter :
    (∃ d, Chapters.documents [("a.xhtml", "<div class='body'><p>a</p></div>")] = .ok [("a.xhtml", d)] ∧
      FormatRegistry.builtIn.render d "markdown" = .ok "a\n") ∧
    nameForOutput? "out/a.json" ((FormatRegistry.empty.register .json).register .markdown) = some "ast-json" ∧
    "ast-json" ∈ available := by
  obtain ⟨-, hnames, hformats, -⟩ := transforms_of_library "<div class='body'><p>a</p></div>" "Swift"
  have hmarkdown : "markdown" ∈ FormatRegistry.builtIn.names :=
    FormatRegistry.has_iff.1 (FormatRegistry.has_builtIn_iff.2 (.inr rfl))
  have hshown : runNamed "<div class='body'><p>a</p></div>" ("ast-" ++ "markdown") "Swift" = .ok "a\n" := by
    decide +kernel
  have hname : nameForOutput? "out/a.json" ((FormatRegistry.empty.register .json).register .markdown) =
      some "ast-json" := by decide
  exact ⟨((hformats "markdown" hmarkdown "a.xhtml").1 "a\n").1 hshown, hname,
    hnames _ (.swap _ _ _) "out/a.json" _ hname⟩

end Transform

end BookCatalog
