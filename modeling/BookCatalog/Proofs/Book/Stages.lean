import BookCatalog.Proofs.Book.Work
import BookCatalog.Proofs.BookAnchors
import BookCatalog.Proofs.Directories

/-!
# The stages of a conversion

A conversion makes directories, writes the files that do not depend on the book, copies the images,
writes the landing page, reads the chapters, and writes their files. Each stage is described by the
trees before and after it when it succeeds; `run_eq_ok_iff` puts the stages together.
-/

namespace BookCatalog.Book

open BookCatalog.FilePath Work

variable {t t' : FileTree} {root output : String} {options : BookOptions}

/-! ## Pages -/

theorem mapM_render_eq_ok_iff {documents : List (String × Document)}
    {chapters : List (String × String)} :
    (documents.mapM fun d => do return (chapterPath output d.1, ← render d.2)) = .ok chapters ↔
      List.Forall₂ (fun d c => c.1 = chapterPath output d.1 ∧ render d.2 = .ok c.2)
        documents chapters := by
  simp only [mapM_eq_ok_iff, pair_eq_ok_iff]

theorem renderChapters_eq_ok_iff {sources : List (String × String)}
    {chapters : List (String × String)} {n : Nat} :
    renderChapters output sources = .ok (chapters, n) ↔
      n = (Chapters.bookTable sources).size ∧ ∃ documents, Chapters.documents sources = .ok documents ∧
        (documents.mapM fun d => do return (chapterPath output d.1, ← render d.2)) = .ok chapters := by
  unfold renderChapters Chapters.documents
  simp only [bind_eq_ok_iff]
  constructor
  · rintro ⟨⟨table, documents⟩, htable, rendered, hr, h⟩
    cases h
    obtain ⟨-, rfl, -⟩ := Chapters.transcode_eq_ok_iff.1 htable
    exact ⟨rfl, documents, ⟨_, htable, rfl⟩, hr⟩
  · rintro ⟨rfl, documents, ⟨⟨table, docs⟩, htable, h⟩, hr⟩
    cases h
    obtain ⟨-, rfl, -⟩ := Chapters.transcode_eq_ok_iff.1 htable
    exact ⟨_, htable, chapters, hr, rfl⟩

/-- A chapter keeps its place from its source to its rendering. -/
theorem map_fst_of_renderChapters {sources chapters : List (String × String)} {n : Nat}
    (h : renderChapters output sources = .ok (chapters, n)) :
    chapters.map (·.1) = sources.map fun c => chapterPath output c.1 := by
  obtain ⟨-, documents, hdocs, hmap⟩ := renderChapters_eq_ok_iff.1 h
  calc chapters.map (·.1) = documents.map fun d => chapterPath output d.1 :=
        (map_eq_map_of_forall₂ ((mapM_render_eq_ok_iff.1 hmap).imp fun _ _ h => h.1.symm)).symm
    _ = (documents.map (·.1)).map (chapterPath output) := by rw [List.map_map, Function.comp_def]
    _ = (sources.map (·.1)).map (chapterPath output) := by
        rw [map_eq_map_of_forall₂ ((Chapters.documents_eq_ok_iff.1 hdocs).imp fun _ _ h => h.1.symm)]
    _ = sources.map fun c => chapterPath output c.1 := by rw [List.map_map, Function.comp_def]

/-! ## Stages before the chapters -/

theorem on_setUp_eq_ok_iff :
    (setUp output options).on t = (.ok (), t') ↔ ∃ outer made,
      t.makeDirectories output = (.ok (), outer) ∧
      outer.makeDirectories (join output options.assets) = (.ok (), made) ∧
      made.writeAll (textFiles (staticFiles output options)) = .ok t' := by
  unfold setUp
  rw [on_then_eq_ok_iff]
  simp only [on_makeDirectory_eq_ok_iff]
  refine exists_congr fun outer => ?_
  rw [on_then_eq_ok_iff]
  simp only [on_makeDirectory_eq_ok_iff, on_writeTexts_eq_ok_iff, exists_and_left]

theorem on_writeLandingPage_eq_ok_iff {source destination moduleName : String} :
    (writeLandingPage source destination moduleName).on t = (.ok (), t') ↔
      ∃ text parts page, t.readText source = .ok text ∧ TableOfContents.parts text = .ok parts ∧
        render (TableOfContents.landingPage parts moduleName) = .ok page ∧
        t.write destination (.text page) = .ok t' := by
  unfold writeLandingPage
  simp only [on_bind_eq_ok_iff, on_read_eq_ok_iff, on_step, on_write_eq_ok_iff, Prod.mk.injEq]
  constructor
  · rintro ⟨text, _, ⟨hr, rfl⟩, parts, _, ⟨hp, rfl⟩, page, _, ⟨hpage, rfl⟩, hw⟩
    exact ⟨text, parts, page, hr, hp, hpage, hw⟩
  · rintro ⟨text, parts, page, hr, hp, hpage, hw⟩
    exact ⟨text, t, ⟨hr, rfl⟩, parts, t, ⟨hp, rfl⟩, page, t, ⟨hpage, rfl⟩, hw⟩

theorem on_layOut_eq_ok_iff {n : Nat} :
    (layOut root output options).on t = (.ok n, t') ↔ ∃ laid illustrated,
      (setUp output options).on t = (.ok (), laid) ∧
      n = (laid.filesIn (join root options.images)).length ∧
      (copyFiles (join root options.images) (join output options.assets)
        (laid.filesIn (join root options.images))).on laid = (.ok (), illustrated) ∧
      (writeLandingPage (join root options.contents) (join output options.landingPage)
        options.moduleName).on illustrated = (.ok (), t') := by
  unfold layOut
  constructor
  · intro h
    obtain ⟨laid, hset, h⟩ := on_then_eq_ok_iff.1 h
    obtain ⟨k, illustrated, himages, h⟩ := on_bind_eq_ok_iff.1 h
    rw [on_copyImages] at himages
    obtain ⟨_, hcopy, hk⟩ := on_then_eq_ok_iff.1 himages
    cases hk
    obtain ⟨_, hpage, h⟩ := on_then_eq_ok_iff.1 h
    cases h
    exact ⟨laid, illustrated, hset, rfl, hcopy, hpage⟩
  · rintro ⟨laid, illustrated, hset, rfl, hcopy, hpage⟩
    refine on_then_eq_ok_iff.2 ⟨laid, hset, on_bind_eq_ok_iff.2
      ⟨(laid.filesIn (join root options.images)).length, illustrated, ?_, ?_⟩⟩
    · rw [on_copyImages]
      exact on_then_eq_ok_iff.2 ⟨illustrated, hcopy, rfl⟩
    · exact on_then_eq_ok_iff.2 ⟨t', hpage, rfl⟩

theorem on_readSpine_eq_ok_iff {spine : List String} :
    (readSpine root options).on t = (.ok spine, t') ↔ t' = t ∧ ∃ manifest,
      t.readText (join root options.manifest) = .ok manifest ∧ Spine.ofText manifest = .ok spine := by
  unfold readSpine
  simp only [on_bind_eq_ok_iff, on_read_eq_ok_iff, on_step, Prod.mk.injEq]
  constructor
  · rintro ⟨manifest, _, ⟨hr, rfl⟩, hs, rfl⟩
    exact ⟨rfl, manifest, hr, hs⟩
  · rintro ⟨rfl, manifest, hr, hs⟩
    exact ⟨manifest, _, ⟨hr, rfl⟩, hs, rfl⟩

theorem on_prepare_eq_ok_iff {p : Prepared} :
    (prepare root output options).on t = (.ok p, t') ↔ ∃ spine sources,
      (layOut root output options).on t = (.ok p.assetsCopied, t') ∧
      (readSpine root options).on t' = (.ok spine, t') ∧
      (readChapters root spine).on t' = (.ok sources, t') ∧
      renderChapters output sources = .ok (p.chapters, p.anchorsCollected) := by
  unfold prepare
  constructor
  · intro h
    obtain ⟨n, laid, hlay, hrest⟩ := on_bind_eq_ok_iff.1 h
    obtain ⟨spine, _, hspine, hread⟩ := on_bind_eq_ok_iff.1 hrest
    obtain ⟨rfl, -⟩ := on_readSpine_eq_ok_iff.1 hspine
    obtain ⟨sources, _, hsources, hlast⟩ := on_bind_eq_ok_iff.1 hread
    obtain ⟨rfl, -⟩ := on_readChapters_eq_ok_iff.1 hsources
    obtain ⟨⟨chapters, m⟩, _, hrender, hp⟩ := on_bind_eq_ok_iff.1 hlast
    rw [on_step, Prod.mk.injEq] at hrender
    obtain ⟨hrender, rfl⟩ := hrender
    cases hp
    exact ⟨spine, sources, hlay, hspine, hsources, hrender⟩
  · rintro ⟨spine, sources, hlay, hspine, hsources, hrender⟩
    refine on_bind_eq_ok_iff.2 ⟨_, t', hlay, on_bind_eq_ok_iff.2 ⟨spine, t', hspine, ?_⟩⟩
    refine on_bind_eq_ok_iff.2 ⟨sources, t', hsources, ?_⟩
    exact on_bind_eq_ok_iff.2 ⟨(p.chapters, p.anchorsCollected), t', by rw [on_step, hrender], rfl⟩

/-- A conversion succeeds when everything before the chapters does and their files can be written. -/
theorem run_eq_ok_iff {files final : FileTree} {report : BookReport} :
    run root output options files = (.ok report, final) ↔ ∃ p tree,
      (prepare root output options).on files = (.ok p, tree) ∧
      tree.writeAll (textFiles p.chapters) = .ok final ∧ report = p.report := by
  show (convert root output options).on files = (.ok report, final) ↔ _
  unfold convert
  simp only [on_bind_eq_ok_iff]
  constructor
  · rintro ⟨p, tree, hp, _, m, hw, h⟩
    cases h
    exact ⟨p, tree, hp, on_writeTexts_eq_ok_iff.1 hw, rfl⟩
  · rintro ⟨p, tree, hp, hw, rfl⟩
    exact ⟨p, tree, hp, (), final, on_writeTexts_eq_ok_iff.2 hw, rfl⟩

end BookCatalog.Book
