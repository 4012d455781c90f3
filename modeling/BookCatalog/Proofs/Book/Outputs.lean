import BookCatalog.Proofs.Book.FailFast

/-!
# The files of a catalog

A chapter keeps nothing of its path but the file name without the extension, and all chapters go to one
directory, that of the landing page. So two chapters can go to one file, and the later one stays. The
files of a catalog are different files exactly when the names of the chapters are different and none of
them is that of the landing page; then every file holds what was rendered for it
(`outputs_kept_iff`).
-/

namespace BookCatalog.Book

open BookCatalog.FilePath Work

variable {t t' : FileTree} {root output : String} {options : BookOptions} {files : FileTree}

/-! ## Names of outputs -/

/-- A text is the rendering of the landing page of a conversion. -/
def IsLandingPage (root output : String) (options : BookOptions) (files : FileTree) (page : String) :
    Prop :=
  ∃ laid illustrated n source parts, (setUp output options).on files = (.ok (), laid) ∧
    (copyImages (join root options.images) (join output options.assets)).on laid =
      (.ok n, illustrated) ∧
    illustrated.readText (join root options.contents) = .ok source ∧
    TableOfContents.parts source = .ok parts ∧
    render (TableOfContents.landingPage parts options.moduleName) = .ok page

/-- A path leads to a file in the directory of the catalog. -/
def IsOutput (output path : String) : Prop := ∃ name, IsName name ∧ path = join output name

/-- Files of the catalog under different paths are at different locations. -/
theorem eq_of_location?_eq {path path' : String} {loc : Location} (hp : IsOutput output path)
    (hp' : IsOutput output path') (hl : t.location? path = some loc)
    (hl' : t.location? path' = some loc) : path = path' := by
  obtain ⟨name, hname, rfl⟩ := hp
  obtain ⟨name', hname', rfl⟩ := hp'
  have hlast := FileTree.location?_join_getLast? hname hl
  have hlast' := FileTree.location?_join_getLast? hname' hl'
  rw [hlast] at hlast'
  cases hlast'
  rfl

/-- Files of the catalog that are written to different paths are read as they were written. -/
theorem read_of_nodup_outputs {written : List (String × FileContent)} (h : t.writeAll written = .ok t')
    (houtput : ∀ w ∈ written, IsOutput output w.1) (hnodup : (written.map (·.1)).Nodup) :
    ∀ path c, (path, c) ∈ written → t'.read path = .ok c := by
  intro path c hw
  refine FileTree.read_of_mem_writeAll h hw fun w' hw' heq => ?_
  obtain ⟨-, loc, hl⟩ := FileTree.exists_location?_of_mem_writeAll h _ hw
  have hpath := eq_of_location?_eq (houtput w' hw') (houtput _ hw) (heq.trans hl) hl
  exact List.inj_on_of_nodup_map hnodup hw' hw hpath

theorem nodup_map_iff {α β γ : Type} {f : α → β} {g : α → γ} {xs : List α}
    (h : ∀ x ∈ xs, ∀ y ∈ xs, f x = f y ↔ g x = g y) : (xs.map f).Nodup ↔ (xs.map g).Nodup := by
  unfold List.Nodup
  rw [List.pairwise_map, List.pairwise_map]
  exact List.Pairwise.iff_of_mem fun hx hy => not_congr (h _ hx _ hy)

theorem join_append_md_inj {stem stem' : String} (h : IsName (stem ++ ".md"))
    (h' : IsName (stem' ++ ".md")) :
    join output (stem ++ ".md") = join output (stem' ++ ".md") ↔ stem = stem' := by
  refine ⟨fun heq => ?_, fun heq => by rw [heq]⟩
  have hmd := join_inj (isAbsolute_of_isName h) (isAbsolute_of_isName h') heq
  rw [← String.toList_inj] at hmd ⊢
  simpa using hmd

/-- Chapters go to one file when they have one name. -/
theorem chapterPath_eq_iff {chapter chapter' : String} {text text' : String}
    (h : t.readText (join root chapter) = .ok text) (h' : t.readText (join root chapter') = .ok text') :
    chapterPath output chapter = chapterPath output chapter' ↔
      FilePath.stem? chapter = FilePath.stem? chapter' := by
  obtain ⟨stem, hstem, hname, hpath⟩ := chapterPath_of_readText output h
  obtain ⟨stem', hstem', hname', hpath'⟩ := chapterPath_of_readText output h'
  rw [hpath, hpath', hstem, hstem', join_append_md_inj hname hname', Option.some_inj]

/-- A chapter goes to the file of the landing page when it has that name. -/
theorem chapterPath_eq_landingPage_iff {chapter text : String}
    (h : t.readText (join root chapter) = .ok text) :
    chapterPath output chapter = join output "SwiftBook.md" ↔
      FilePath.stem? chapter = some "SwiftBook" := by
  obtain ⟨stem, hstem, hname, hpath⟩ := chapterPath_of_readText output h
  have hlanding : IsName ("SwiftBook" ++ ".md") := isName_append_md (by decide)
  rw [hpath, hstem, Option.some_inj]
  exact join_append_md_inj hname hlanding

theorem isOutput_chapterPath {chapter text : String}
    (h : t.readText (join root chapter) = .ok text) : IsOutput output (chapterPath output chapter) := by
  obtain ⟨stem, -, hname, hpath⟩ := chapterPath_of_readText output h
  exact ⟨_, hname, hpath⟩

/-! ## What the files hold in the end -/

/-- The landing page and the chapters go to different files when the names of the chapters differ from
one another and from that of the landing page. -/
theorem nodup_outputs_iff {spine : List String}
    (hread : ∀ chapter ∈ spine, ∃ text, t.readText (join root chapter) = .ok text) :
    (join output "SwiftBook.md" :: spine.map (chapterPath output)).Nodup ↔
      (spine.map FilePath.stem?).Nodup ∧ some "SwiftBook" ∉ spine.map FilePath.stem? := by
  have hchapters : (spine.map (chapterPath output)).Nodup ↔ (spine.map FilePath.stem?).Nodup := by
    refine nodup_map_iff fun x hx y hy => ?_
    obtain ⟨text, ht⟩ := hread x hx
    obtain ⟨text', ht'⟩ := hread y hy
    exact chapterPath_eq_iff ht ht'
  have hlanding : join output "SwiftBook.md" ∈ spine.map (chapterPath output) ↔
      some "SwiftBook" ∈ spine.map FilePath.stem? := by
    simp only [List.mem_map]
    refine exists_congr fun x => and_congr_right fun hx => ?_
    obtain ⟨text, ht⟩ := hread x hx
    exact chapterPath_eq_landingPage_iff ht
  rw [List.nodup_cons, hchapters, hlanding, and_comm]

/-- **The files of a catalog are kept exactly when their names differ.** The paths that are written for
the landing page and for the chapters are different exactly when the names of the chapters are, and none
is the name of the landing page. Then each file holds in the end what was rendered for it. -/
theorem outputs_kept_iff {final : FileTree} {report : BookReport}
    (h : run root output {} files = (.ok report, final)) :
    ∃ n tree page chapters, (layOut root output {}).on files = (.ok n, tree) ∧
      IsLandingPage root output {} files page ∧ AreRenderings root output {} tree chapters ∧
      report.chapters = chapters.map (·.1) ∧
      ((join output "SwiftBook.md" :: report.chapters).Nodup ↔
        ((chaptersRead root output {} files).map FilePath.stem?).Nodup ∧
          some "SwiftBook" ∉ (chaptersRead root output {} files).map FilePath.stem?) ∧
      ((join output "SwiftBook.md" :: report.chapters).Nodup →
        (∀ c ∈ chapters, final.readText c.1 = .ok c.2) ∧
          final.readText (join output "SwiftBook.md") = .ok page) := by
  obtain ⟨p, tree, hprepare, hwrite, rfl⟩ := run_eq_ok_iff.1 h
  obtain ⟨spine, sources, hlay, hspine, hsources, hchapters⟩ := on_prepare_eq_ok_iff.1 hprepare
  obtain ⟨laid, illustrated, hset, hcount, hcopy, hpage⟩ := on_layOut_eq_ok_iff.1 hlay
  obtain ⟨source, parts, page, hsource, hparts, hrender, hlanding⟩ :=
    on_writeLandingPage_eq_ok_iff.1 hpage
  obtain ⟨-, hpaths, hread⟩ := on_readChapters_eq_ok_iff.1 hsources
  have hread' : ∀ chapter ∈ spine, ∃ text, tree.readText (join root chapter) = .ok text := by
    intro chapter hc
    rw [← hpaths] at hc
    obtain ⟨c, hmem, rfl⟩ := List.mem_map.1 hc
    exact ⟨c.2, hread c hmem⟩
  have hreport : p.report.chapters = spine.map (chapterPath output) := by
    rw [← hpaths, List.map_map]
    exact map_fst_of_renderChapters hchapters
  have hillustrated : (copyImages (join root "_images") (join output "Assets")).on laid =
      (.ok p.assetsCopied, illustrated) := by
    rw [on_copyImages, hcount]
    exact on_then_eq_ok_iff.2 ⟨illustrated, hcopy, rfl⟩
  have hall : illustrated.writeAll ((join output "SwiftBook.md", .text page) :: textFiles p.chapters) =
      .ok final := FileTree.writeAll_cons_eq_ok_iff.2 ⟨tree, hlanding, hwrite⟩
  refine ⟨_, tree, page, p.chapters, hlay,
    ⟨laid, illustrated, _, source, parts, hset, hillustrated, hsource, hparts, hrender⟩,
    areRenderings_of_prepare hprepare, rfl, ?_, fun hnodup => ?_⟩
  · rw [hreport, chaptersRead_eq hlay hspine]
    exact nodup_outputs_iff hread'
  have houtput : ∀ w ∈ (join output "SwiftBook.md", FileContent.text page) :: textFiles p.chapters,
      IsOutput output w.1 := by
    intro w hw
    rcases List.mem_cons.1 hw with rfl | hw
    · exact ⟨"SwiftBook" ++ ".md", isName_append_md (by decide), rfl⟩
    · obtain ⟨c, hc, rfl⟩ := List.mem_map.1 hw
      have hpath : c.1 ∈ spine.map (chapterPath output) := hreport ▸ List.mem_map_of_mem hc
      obtain ⟨chapter, hchapter, heq⟩ := List.mem_map.1 hpath
      obtain ⟨text, ht⟩ := hread' chapter hchapter
      exact heq ▸ isOutput_chapterPath ht
  have hfiles : ((join output "SwiftBook.md", FileContent.text page) :: textFiles p.chapters).map (·.1) =
      join output "SwiftBook.md" :: p.report.chapters := by
    simp [textFiles, Prepared.report]
  have hkept := read_of_nodup_outputs hall houtput (hfiles ▸ hnodup)
  constructor
  · intro c hc
    refine FileTree.readText_eq_ok_iff.2 (hkept c.1 (.text c.2) (List.mem_cons_of_mem _ ?_))
    exact List.mem_map.2 ⟨c, hc, rfl⟩
  · exact FileTree.readText_eq_ok_iff.2 (hkept _ _ List.mem_cons_self)

theorem outputs_kept_iff_smallBook :
    ∃ n tree page chapters, (layOut "book" "out" {}).on smallBook = (.ok n, tree) ∧
      IsLandingPage "book" "out" {} smallBook page ∧ AreRenderings "book" "out" {} tree chapters ∧
      smallPrepared.report.chapters = chapters.map (·.1) ∧
      ((join "out" "SwiftBook.md" :: smallPrepared.report.chapters).Nodup ↔
        ((chaptersRead "book" "out" {} smallBook).map FilePath.stem?).Nodup ∧
          some "SwiftBook" ∉ (chaptersRead "book" "out" {} smallBook).map FilePath.stem?) ∧
      ((join "out" "SwiftBook.md" :: smallPrepared.report.chapters).Nodup →
        (∀ c ∈ chapters, smallFinal.readText c.1 = .ok c.2) ∧
          smallFinal.readText (join "out" "SwiftBook.md") = .ok page) :=
  outputs_kept_iff run_smallBook

/-- Chapters of one name in different directories: the second one is written over the first one. -/
theorem second_chapter_overwrites_first :
    ∃ report final tree chapters, run "book" "out" {} smallBook = (.ok report, final) ∧
      (chaptersRead "book" "out" {} smallBook).Nodup ∧
      (prepare "book" "out" {}).on smallBook = (.ok smallPrepared, tree) ∧
      AreRenderings "book" "out" {} tree chapters ∧ report.chapters = chapters.map (·.1) ∧
      ¬report.chapters.Nodup ∧ ¬∀ c ∈ chapters, final.readText c.1 = .ok c.2 := by
  refine ⟨_, _, _, smallPrepared.chapters, run_smallBook, ?_, on_prepare_smallBook,
    areRenderings_of_prepare on_prepare_smallBook, rfl, by decide, fun hkept => ?_⟩
  · rw [chaptersRead_smallBook]
    decide
  · have hfirst := hkept ("out/x.md", "one\n") (by decide)
    have hlast : smallFinal.readText "out/x.md" = .ok "two\n" := by decide +kernel
    rw [hlast, Except.ok.injEq] at hfirst
    exact absurd hfirst (by decide)

end BookCatalog.Book
