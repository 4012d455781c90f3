import BookCatalog.Proofs.Book.Catalog
import Mathlib.Logic.Relation

/-!
# A conversion that fails

Everything that can fail is done for all chapters before the file of the first one is written. A
conversion that fails before that has only made the directories of the catalog and written files that
are no chapters (`BeforeChapters`). A conversion that fails later has written the chapters that come
before the file at fault, each as a whole, and none after it (`run_fails_fast`).
-/

namespace BookCatalog.Book

open BookCatalog.FilePath Work Relation

variable {α β : Type} {t t' : FileTree} {root output : String} {options : BookOptions}
  {files : FileTree}

/-! ## Where work leads -/

/-- Whatever comes of work, the tree after it is related to the tree before it. -/
def Work.Within (R : FileTree → FileTree → Prop) (work : Work α) : Prop := ∀ t, R t (work.on t).2

namespace Work.Within

variable {R : FileTree → FileTree → Prop}

theorem bind {work : Work α} {next : α → Work β} (htrans : ∀ {a b c}, R a b → R b c → R a c)
    (hwork : Within R work) (hnext : ∀ a, Within R (next a)) : Within R (work >>= next) := by
  intro t
  have h := hwork t
  rw [on_bind]
  cases hw : work.on t with
  | mk result m =>
    rw [hw] at h
    cases result with
    | error e => exact h
    | ok a => exact htrans h (hnext a m)

theorem step {result : Except ConversionError α} (hrefl : ∀ a, R a a) :
    Within R (Book.step result) := fun t => hrefl t

theorem read {path : String} (hrefl : ∀ a, R a a) : Within R (Book.read path) := fun t => by
  rw [on_read]
  exact hrefl t

theorem write {path text : String} (hrefl : ∀ a, R a a)
    (hwrite : ∀ t t', t.write path (.text text) = .ok t' → R t t') :
    Within R (Book.write path text) := fun t => by
  rw [on_write]
  cases h : t.write path (.text text) with
  | error fault => exact hrefl t
  | ok t' => exact hwrite t t' h

theorem writeTexts (hrefl : ∀ a, R a a) (htrans : ∀ {a b c}, R a b → R b c → R a c) :
    ∀ {texts : List (String × String)},
      (∀ w ∈ texts, ∀ t t', t.write w.1 (.text w.2) = .ok t' → R t t') → Within R (Book.writeTexts texts)
  | [], _ => fun t => hrefl t
  | (path, text) :: rest, hwrites => by
    obtain ⟨hfirst, hrest⟩ := List.forall_mem_cons.1 hwrites
    rw [writeTexts_cons]
    exact .bind htrans (.write hrefl hfirst) fun _ => writeTexts hrefl htrans hrest

end Work.Within

/-! ## Before the chapters -/

/-- What a conversion does to a tree, once the directories of the catalog have been made and before the
file of a chapter is written: it writes a file that does not depend on the book, copies an image, or
writes the landing page. -/
inductive FrontStep (root output : String) (options : BookOptions) : FileTree → FileTree → Prop where
  | staticFile {t t' : FileTree} {path text : String} (hfile : (path, text) ∈ staticFiles output options)
      (hwrite : t.write path (.text text) = .ok t') : FrontStep root output options t t'
  | image {t t' : FileTree} {name : FileName} (hname : name ∈ t.filesIn (join root options.images))
      (hcopy : t.copy (join root options.images) name (assetPath (join output options.assets) name) =
        (.ok (), t')) : FrontStep root output options t t'
  | landingPage {t t' : FileTree} {source page : String} {parts : List ContentsPart}
      (hsource : t.readText (join root options.contents) = .ok source)
      (hparts : TableOfContents.parts source = .ok parts)
      (hpage : render (TableOfContents.landingPage parts options.moduleName) = .ok page)
      (hwrite : t.write (join output options.landingPage) (.text page) = .ok t') :
      FrontStep root output options t t'

/-- A tree has gained directories on the paths of the catalog and its assets, and besides the files that
a conversion writes before the chapters. `confinedTo_of_beforeChapters` says what this means for each
location. -/
def BeforeChapters (root output : String) (options : BookOptions) (files t : FileTree) : Prop :=
  ∃ made, FileTree.AddsDirectories (directories output options) files made ∧
    ReflTransGen (FrontStep root output options) made t

theorem within_writeStaticFiles : (writeTexts (staticFiles output options)).Within
    (ReflTransGen (FrontStep root output options)) :=
  .writeTexts (fun _ => .refl) .trans fun _ hfile _ _ hw => .single (.staticFile hfile hw)

theorem within_copyFiles : ∀ {names : List FileName} {t : FileTree},
    (∀ name ∈ names, name ∈ t.filesIn (join root options.images)) →
    ReflTransGen (FrontStep root output options) t
      ((copyFiles (join root options.images) (join output options.assets) names).on t).2
  | [], _, _ => .refl
  | name :: rest, t, hnames => by
    obtain ⟨hname, hrest⟩ := List.forall_mem_cons.1 hnames
    rw [copyFiles_cons, on_bind]
    cases hc : (copy (join root options.images) name
        (assetPath (join output options.assets) name)).on t with
    | mk result m =>
      cases result with
      | error e => exact eq_of_on_copy_error hc ▸ .refl
      | ok _ =>
        have hcopy := on_copy_eq_ok_iff.1 hc
        obtain ⟨c, -, hw⟩ := FileTree.copy_eq_ok_iff.1 hcopy
        refine .head (.image hname hcopy) (within_copyFiles fun n hn => ?_)
        exact FileTree.mem_filesIn_of_write hw (hrest n hn)

theorem within_copyImages :
    (copyImages (join root options.images) (join output options.assets)).Within
      (ReflTransGen (FrontStep root output options)) := fun t => by
  have h : ReflTransGen (FrontStep root output options) t _ := within_copyFiles fun _ hn => hn
  rw [on_copyImages, on_bind]
  cases hc : (copyFiles (join root options.images) (join output options.assets)
      (t.filesIn (join root options.images))).on t with
  | mk result m =>
    rw [hc] at h
    cases result <;> exact h

theorem within_writeLandingPage :
    (writeLandingPage (join root options.contents) (join output options.landingPage)
      options.moduleName).Within (ReflTransGen (FrontStep root output options)) := fun t => by
  unfold writeLandingPage
  rw [on_bind, on_read]
  cases hsource : t.readText (join root options.contents) with
  | error fault => exact .refl
  | ok source =>
    simp only [Except.mapError]
    rw [on_bind, on_step]
    cases hparts : TableOfContents.parts source with
    | error e => exact .refl
    | ok parts =>
      simp only
      rw [on_bind, on_step]
      cases hpage : render (TableOfContents.landingPage parts options.moduleName) with
      | error e => exact .refl
      | ok page =>
        simp only
        rw [on_write]
        cases hwrite : t.write (join output options.landingPage) (.text page) with
        | error fault => exact .refl
        | ok t' => exact .single (.landingPage hsource hparts hpage hwrite)

theorem within_readSpine : (readSpine root options).Within (ReflTransGen (FrontStep root output options)) :=
  .bind .trans (.read fun _ => .refl) fun _ => .step fun _ => .refl

theorem within_readChapters : ∀ {paths : List String},
    (readChapters root paths).Within (ReflTransGen (FrontStep root output options))
  | [] => fun _ => .refl
  | path :: rest => by
    rw [readChapters_cons]
    refine .bind .trans (.read fun _ => .refl) fun text => ?_
    exact .bind .trans within_readChapters fun sources _ => .refl

theorem addsDirectories_makeDirectory {path : String} (hpath : path ∈ directories output options) :
    (makeDirectory path).Within (FileTree.AddsDirectories (directories output options)) := fun t => by
  rw [on_makeDirectory]
  exact (FileTree.addsDirectories_makeDirectories path t).mono (by simpa using hpath)

/-- The work of `prepare` once the directories of the catalog have been made. -/
def furnish (root output : String) (options : BookOptions) : Work Prepared := do
  writeTexts (staticFiles output options)
  let assetsCopied ← copyImages (join root options.images) (join output options.assets)
  writeLandingPage (join root options.contents) (join output options.landingPage) options.moduleName
  let sources ← readChapters root (← readSpine root options)
  let (chapters, anchorsCollected) ← step (renderChapters output sources)
  return { chapters, assetsCopied, anchorsCollected }

theorem prepare_eq (root output : String) (options : BookOptions) :
    prepare root output options =
      (makeDirectory output >>= fun _ => makeDirectory (join output options.assets)) >>= fun _ =>
        furnish root output options := by
  simp only [prepare, layOut, setUp, furnish, bind_assoc, pure_bind]

theorem within_furnish (root output : String) (options : BookOptions) :
    (furnish root output options).Within (ReflTransGen (FrontStep root output options)) := by
  refine .bind .trans within_writeStaticFiles fun _ => ?_
  refine .bind .trans within_copyImages fun n => ?_
  refine .bind .trans within_writeLandingPage fun _ => ?_
  refine .bind .trans within_readSpine fun spine => ?_
  refine .bind .trans within_readChapters fun sources => ?_
  exact .bind .trans (.step fun _ => .refl) fun rendered _ => .refl

/-- Whatever comes of a conversion, no chapter has been written before the loop that writes them. -/
theorem beforeChapters_prepare (root output : String) (options : BookOptions) (files : FileTree) :
    BeforeChapters root output options files ((prepare root output options).on files).2 := by
  have hdirectories : (makeDirectory output >>= fun _ => makeDirectory (join output options.assets)).Within
      (FileTree.AddsDirectories (directories output options)) :=
    .bind .trans (addsDirectories_makeDirectory (by simp [directories])) fun _ =>
      addsDirectories_makeDirectory (by simp [directories])
  have hadds := hdirectories files
  rw [prepare_eq, on_bind]
  cases hd : (makeDirectory output >>= fun _ => makeDirectory (join output options.assets)).on files with
  | mk result made =>
    rw [hd] at hadds
    cases result with
    | error e => exact ⟨made, hadds, .refl⟩
    | ok _ => exact ⟨made, hadds, within_furnish root output options made⟩

/-! ## The tree after a failure -/

/-- The paths of the files that a conversion writes before the chapters. -/
inductive IsFrontPath (output : String) (options : BookOptions) : String → Prop where
  | staticFile {path text : String} (hfile : (path, text) ∈ staticFiles output options) :
      IsFrontPath output options path
  | image (name : FileName) : IsFrontPath output options (assetPath (join output options.assets) name)
  | landingPage : IsFrontPath output options (join output options.landingPage)

theorem FrontStep.exists_write (h : FrontStep root output options t t') :
    ∃ path c, IsFrontPath output options path ∧ t.write path c = .ok t' := by
  cases h with
  | staticFile hfile hwrite => exact ⟨_, _, .staticFile hfile, hwrite⟩
  | @image name hname hcopy =>
    obtain ⟨c, -, hwrite⟩ := FileTree.copy_eq_ok_iff.1 hcopy
    exact ⟨_, _, .image name, hwrite⟩
  | landingPage hsource hparts hpage hwrite => exact ⟨_, _, .landingPage, hwrite⟩

/-- Before the chapters are written, every location holds what it held, or a directory that was missing
on a path of the catalog, or a file that is no chapter. -/
theorem confinedTo_of_beforeChapters (h : BeforeChapters root output options files t) :
    FileTree.ConfinedTo (directories output options) (IsFrontPath output options) files t := by
  obtain ⟨made, hadds, hsteps⟩ := h
  induction hsteps with
  | refl => exact hadds.confinedTo _
  | tail _ hstep ih =>
    obtain ⟨path, c, hpath, hwrite⟩ := hstep.exists_write
    exact ih.write hpath hwrite

/-- Some texts are the renderings of all chapters of the book in a tree, in reading order, with the files
they go to. -/
def AreRenderings (root output : String) (options : BookOptions) (t : FileTree)
    (chapters : List (String × String)) : Prop :=
  ∃ manifest sources documents, t.readText (join root options.manifest) = .ok manifest ∧
    Spine.ofText manifest = .ok (sources.map (·.1)) ∧
    (∀ c ∈ sources, t.readText (join root c.1) = .ok c.2) ∧
    Chapters.documents sources = .ok documents ∧
    (documents.mapM fun d => do return (chapterPath output d.1, ← render d.2)) = .ok chapters

theorem areRenderings_of_prepare {p : Prepared}
    (h : (prepare root output options).on files = (.ok p, t)) :
    AreRenderings root output options t p.chapters := by
  obtain ⟨spine, sources, -, hspine, hsources, hchapters⟩ := on_prepare_eq_ok_iff.1 h
  obtain ⟨-, manifest, hmanifest, hof⟩ := on_readSpine_eq_ok_iff.1 hspine
  obtain ⟨-, hpaths, hread⟩ := on_readChapters_eq_ok_iff.1 hsources
  obtain ⟨-, documents, hdocuments, hmap⟩ := renderChapters_eq_ok_iff.1 hchapters
  exact ⟨manifest, sources, documents, hmanifest, hpaths ▸ hof, hread, hdocuments, hmap⟩

/-- **A conversion that fails leaves no chapter half done.** When it fails before its loop over the
chapters, what has been made are directories and files that are no chapters. When it fails in the loop,
all chapters have been rendered; those before the file at fault have been written, each as a whole, and
no other. -/
theorem run_fails_fast {e : ConversionError} {final : FileTree}
    (h : run root output options files = (.error e, final)) :
    ((prepare root output options).on files = (.error e, final) ∧
      BeforeChapters root output options files final ∧
      FileTree.ConfinedTo (directories output options) (IsFrontPath output options) files final) ∨
    ∃ p tree done path text rest fault,
      (prepare root output options).on files = (.ok p, tree) ∧
      BeforeChapters root output options files tree ∧
      FileTree.ConfinedTo (directories output options) (IsFrontPath output options) files tree ∧
      AreRenderings root output options tree p.chapters ∧
      p.chapters = done ++ (path, text) :: rest ∧
      tree.writeAll (textFiles done) = .ok final ∧
      final.write path (.text text) = .error fault ∧ e = .file path fault := by
  have hbefore := beforeChapters_prepare root output options files
  have h : (convert root output options).on files = (.error e, final) := h
  obtain hprepare | ⟨p, tree, hprepare, hrest⟩ := on_bind_eq_error_iff.1 h
  · rw [hprepare] at hbefore
    exact .inl ⟨hprepare, hbefore, confinedTo_of_beforeChapters hbefore⟩
  · rw [hprepare] at hbefore
    obtain hloop | ⟨_, m, -, hreport⟩ := on_bind_eq_error_iff.1 hrest
    · obtain ⟨done, path, text, rest, fault, hsplit, hdone, hfault, he⟩ :=
        on_writeTexts_eq_error_iff.1 hloop
      exact .inr ⟨p, tree, done, path, text, rest, fault, hprepare, hbefore,
        confinedTo_of_beforeChapters hbefore, areRenderings_of_prepare hprepare, hsplit, hdone, hfault, he⟩
    · cases hreport

/-- A book with three chapters, and a catalog with a directory where the second of them goes. -/
def blockedBook : FileTree := .ofList [
  (["book", "nav.xhtml"], .file (.text "<nav><ol></ol></nav>")),
  (["book", "content.opf"], .file (.text ("<package><manifest><item id='x' href='x.xhtml'/>" ++
    "<item id='y' href='y.xhtml'/><item id='z' href='z.xhtml'/></manifest><spine><itemref idref='x'/>" ++
    "<itemref idref='y'/><itemref idref='z'/></spine></package>"))),
  (["book", "x.xhtml"], .file (.text (smallChapter "one"))),
  (["book", "y.xhtml"], .file (.text (smallChapter "two"))),
  (["book", "z.xhtml"], .file (.text (smallChapter "three"))),
  (["out", "y.md"], .directory)] []

/-- What is made of the book before its chapters are written. -/
def blockedPrepared : Prepared where
  chapters := [("out/x.md", "one\n"), ("out/y.md", "two\n"), ("out/z.md", "three\n")]
  assetsCopied := 0
  anchorsCollected := 0

/-- The book and a catalog with the files that do not depend on the book. -/
def blockedLaid : FileTree := ((setUp "out" {}).on blockedBook).2

/-- The book and a catalog that lacks only the chapters. -/
def blockedTree : FileTree := ((write "out/SwiftBook.md" "# ``Swift``\n\n## Topics\n").on blockedLaid).2

/-- The book and a catalog with the first chapter. -/
def blockedFinal : FileTree := ((write "out/x.md" "one\n").on blockedTree).2

theorem steps_blockedBook :
    ((setUp "out" {}).on blockedBook).1 = .ok () ∧
    blockedLaid.isDirectory (join "book" ({} : BookOptions).images) = false ∧
    blockedLaid.readText (join "book" ({} : BookOptions).contents) = .ok "<nav><ol></ol></nav>" ∧
    ((write "out/SwiftBook.md" "# ``Swift``\n\n## Topics\n").on blockedLaid).1 = .ok () ∧
    ((write "out/x.md" "one\n").on blockedTree).1 = .ok () ∧
    ((write "out/y.md" "two\n").on blockedFinal).1 = .error (.file "out/y.md" .isADirectory) ∧
    ∀ c ∈ [("x.xhtml", smallChapter "one"), ("y.xhtml", smallChapter "two"),
      ("z.xhtml", smallChapter "three")], blockedTree.readText (join "book" c.1) = .ok c.2 := by
  decide +kernel

theorem on_prepare_blockedBook :
    (prepare "book" "out" {}).on blockedBook = (.ok blockedPrepared, blockedTree) := by
  obtain ⟨hset, himages, hcontents, hlanding, -, -, hchapters⟩ := steps_blockedBook
  have hlaid : (setUp "out" {}).on blockedBook = (.ok (), blockedLaid) := by rw [blockedLaid, ← hset]
  have hlay : (layOut "book" "out" {}).on blockedBook = (.ok 0, blockedTree) :=
    on_layOut_of_emptyContents hlaid (FileTree.filesIn_of_not_isDirectory himages) rfl hcontents rfl
      (by rw [paths_smallBook.2.2, blockedTree, ← hlanding])
  have hspine : (readSpine "book" {}).on blockedTree =
      (.ok ["x.xhtml", "y.xhtml", "z.xhtml"], blockedTree) := by
    have hread : blockedTree.readText (join "book" ({} : BookOptions).manifest) =
        .ok ("<package><manifest><item id='x' href='x.xhtml'/>" ++
          "<item id='y' href='y.xhtml'/><item id='z' href='z.xhtml'/></manifest><spine>" ++
          "<itemref idref='x'/><itemref idref='y'/><itemref idref='z'/></spine></package>") := by
      decide +kernel
    exact on_readSpine_eq_ok_iff.2 ⟨rfl, _, hread, by decide +kernel⟩
  refine on_prepare_eq_ok_iff.2 ⟨_, _, hlay, hspine,
    on_readChapters_eq_ok_iff.2 ⟨rfl, rfl, hchapters⟩, ?_⟩
  decide +kernel

/-- The second chapter cannot be written. -/
theorem run_blockedBook :
    run "book" "out" {} blockedBook = (.error (.file "out/y.md" .isADirectory), blockedFinal) := by
  obtain ⟨-, -, -, -, hfirst, hsecond, -⟩ := steps_blockedBook
  have hdone : (write "out/x.md" "one\n").on blockedTree = (.ok (), blockedFinal) := by
    rw [blockedFinal, ← hfirst]
  have hfault : (write "out/y.md" "two\n").on blockedFinal =
      (.error (.file "out/y.md" .isADirectory), blockedFinal) := by
    rw [on_write] at hsecond ⊢
    cases hw : blockedFinal.write "out/y.md" (.text "two\n") with
    | ok t => rw [hw] at hsecond; cases hsecond
    | error fault => rw [hw] at hsecond; cases hsecond; rfl
  show (convert "book" "out" {}).on blockedBook = _
  unfold convert
  rw [on_bind, on_prepare_blockedBook]
  simp only [blockedPrepared]
  rw [writeTexts_cons, writeTexts_cons, on_bind, on_bind, hdone]
  simp only
  rw [on_bind, hfault]

/-- The directory of a chapter is no book, since it has no table of contents: the conversion fails before
the chapters. Where a directory stands in the way of the second of three chapters, the first one has been
written as a whole and the last one has not been written. -/
theorem failing_runs_fail_fast :
    (let e := ConversionError.file "book/a/nav.xhtml" .notFound
      let final := (run "book/a" "out" {} smallBook).2
      ((prepare "book/a" "out" {}).on smallBook = (.error e, final) ∧
        BeforeChapters "book/a" "out" {} smallBook final ∧
        FileTree.ConfinedTo (directories "out" {}) (IsFrontPath "out" {}) smallBook final) ∨
      ∃ p tree done path text rest fault,
        (prepare "book/a" "out" {}).on smallBook = (.ok p, tree) ∧
        BeforeChapters "book/a" "out" {} smallBook tree ∧
        FileTree.ConfinedTo (directories "out" {}) (IsFrontPath "out" {}) smallBook tree ∧
        AreRenderings "book/a" "out" {} tree p.chapters ∧
        p.chapters = done ++ (path, text) :: rest ∧
        tree.writeAll (textFiles done) = .ok final ∧
        final.write path (.text text) = .error fault ∧ e = .file path fault) ∧
    (prepare "book" "out" {}).on blockedBook = (.ok blockedPrepared, blockedTree) ∧
      BeforeChapters "book" "out" {} blockedBook blockedTree ∧
      FileTree.ConfinedTo (directories "out" {}) (IsFrontPath "out" {}) blockedBook blockedTree ∧
      AreRenderings "book" "out" {} blockedTree blockedPrepared.chapters ∧
      blockedTree.writeAll (textFiles [("out/x.md", "one\n")]) = .ok blockedFinal ∧
      blockedFinal.write "out/y.md" (.text "two\n") = .error .isADirectory := by
  refine ⟨?_, on_prepare_blockedBook, ?_⟩
  · have h : (run "book/a" "out" {} smallBook).1 = .error (.file "book/a/nav.xhtml" .notFound) := by
      decide +kernel
    exact run_fails_fast (by rw [← h])
  obtain ⟨hprepare, -⟩ | ⟨p, tree, done, path, text, rest, fault, hprepare, hbefore, hconfined, hrendered,
    hsplit, hdone, hfault, he⟩ := run_fails_fast run_blockedBook
  · rw [on_prepare_blockedBook] at hprepare
    cases hprepare
  rw [on_prepare_blockedBook] at hprepare
  cases hprepare
  cases he
  -- the chapter at fault is the second one
  obtain ⟨rfl, rfl⟩ : done = [("out/x.md", "one\n")] ∧ text = "two\n" := by
    simp only [blockedPrepared] at hsplit
    obtain _ | ⟨first, _ | ⟨second, _ | ⟨third, more⟩⟩⟩ := done <;> simp at hsplit
    simp [← hsplit.1, ← hsplit.2.1]
  exact ⟨hbefore, hconfined, hrendered, hdone, hfault⟩

end BookCatalog.Book
