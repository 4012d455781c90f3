import BookCatalog.Proofs.Book.Catalog
import BookCatalog.Proofs.FileReplacement

/-!
# Two books that differ in one file, before the chapters

What a conversion does before the chapters makes the directories of the catalog and writes files
(`exists_writeAll_of_on_layOut`). When two books differ in a file that is neither read nor written there
(`FrontApart`), the same is laid out for both of them, and the trees differ in this file alone
(`exists_on_layOut`).
-/

namespace BookCatalog.Book

open BookCatalog.FilePath Work FileTree

variable {root output : String} {options : BookOptions} {files files' : FileTree}
  {spot : Location} {c c' : FileContent}

/-! ## Directories and writes -/

theorem location?_of_on_setUp {laid : FileTree}
    (hset : (setUp output options).on files = (.ok (), laid)) (path : String) :
    laid.location? path = (madeFrom output options files).location? path := by
  obtain ⟨outer, made, houter, hmade, hwrites⟩ := on_setUp_eq_ok_iff.1 hset
  rw [madeFrom_eq houter hmade]
  exact (location?_congr (sameDirectories_of_writeAll hwrites) path).symm

theorem locationIn?_of_on_setUp {laid : FileTree}
    (hset : (setUp output options).on files = (.ok (), laid)) (dir : String) (name : FileName) :
    laid.locationIn? dir name = (madeFrom output options files).locationIn? dir name := by
  obtain ⟨outer, made, houter, hmade, hwrites⟩ := on_setUp_eq_ok_iff.1 hset
  rw [madeFrom_eq houter hmade]
  exact (locationIn?_congr (sameDirectories_of_writeAll hwrites) dir name).symm

/-- Copies are writes. -/
theorem exists_writeAll_of_on_copyFiles {images assets : String} :
    ∀ {names : List FileName} {t m : FileTree}, (copyFiles images assets names).on t = (.ok (), m) →
      ∃ ws : List (String × FileContent), ws.map (·.1) = names.map (assetPath assets) ∧ t.writeAll ws = .ok m
  | [], t, m, h => by
    cases h
    exact ⟨[], rfl, rfl⟩
  | name :: rest, t, m, h => by
    rw [copyFiles_cons] at h
    obtain ⟨n, hfirst, hrest⟩ := on_then_eq_ok_iff.1 h
    obtain ⟨d, -, hw⟩ := copy_eq_ok_iff.1 (on_copy_eq_ok_iff.1 hfirst)
    obtain ⟨ws, hpaths, hws⟩ := exists_writeAll_of_on_copyFiles hrest
    refine ⟨(assetPath assets name, t.copied images name (assetPath assets name) d) :: ws, ?_, ?_⟩
    · rw [List.map_cons, hpaths, List.map_cons]
    · rw [writeAll_cons_eq_ok_iff]
      dsimp only
      exact ⟨n, hw, hws⟩

/-- What comes before the chapters makes the directories of the catalog and writes files. -/
theorem exists_writeAll_of_on_layOut {tree : FileTree} {n : Nat}
    (hlay : (layOut root output options).on files = (.ok n, tree)) :
    ∃ ws : List (String × FileContent),
      ws.map (·.1) = (staticFiles output options).map (·.1) ++
        (copiedImages root output options files).map (assetPath (join output options.assets)) ++
          [join output options.landingPage] ∧
      (madeFrom output options files).writeAll ws = .ok tree := by
  obtain ⟨laid, illustrated, hset, -, hcopy, hpage⟩ := on_layOut_eq_ok_iff.1 hlay
  obtain ⟨outer, made, houter, hmade, hstatic⟩ := on_setUp_eq_ok_iff.1 hset
  obtain ⟨copies, hpaths, hcopies⟩ := exists_writeAll_of_on_copyFiles hcopy
  obtain ⟨_, _, page, -, -, -, hlanding⟩ := on_writeLandingPage_eq_ok_iff.1 hpage
  refine ⟨textFiles (staticFiles output options) ++ copies ++ [(join output options.landingPage, .text page)],
    ?_, ?_⟩
  · rw [copiedImages_eq hset, ← hpaths, List.map_append, List.map_append, textFiles, List.map_map]
    rfl
  · rw [madeFrom_eq houter hmade, writeAll_append_eq_ok_iff]
    exact ⟨illustrated, writeAll_append_eq_ok_iff.2 ⟨laid, hstatic, hcopies⟩, by rwa [writeAll_singleton]⟩

theorem location?_of_on_layOut {tree : FileTree} {n : Nat}
    (hlay : (layOut root output options).on files = (.ok n, tree)) (path : String) :
    tree.location? path = (madeFrom output options files).location? path := by
  obtain ⟨ws, -, hws⟩ := exists_writeAll_of_on_layOut hlay
  exact (location?_congr (sameDirectories_of_writeAll hws) path).symm

/-! ## A file that is left alone -/

/-- What is read and written before the chapters is not the file at `spot`. -/
structure FrontApart (root output : String) (options : BookOptions) (spot : Location) (files : FileTree) :
    Prop where
  image_ne : ∀ name ∈ copiedImages root output options files,
    (madeFrom output options files).locationIn? (join root options.images) name ≠ some spot
  asset_ne : ∀ name ∈ copiedImages root output options files,
    (madeFrom output options files).location? (assetPath (join output options.assets) name) ≠ some spot
  static_ne : ∀ file ∈ staticFiles output options,
    (madeFrom output options files).location? file.1 ≠ some spot
  contents_ne : (madeFrom output options files).location? (join root options.contents) ≠ some spot
  landingPage_ne : (madeFrom output options files).location? (join output options.landingPage) ≠ some spot

theorem differAt_madeFrom (h : DifferAt spot c c' files files') (output : String)
    (options : BookOptions) :
    DifferAt spot c c' (madeFrom output options files) (madeFrom output options files') := by
  have houter := (h.differAt_makeDirectories output).2
  exact (houter.differAt_makeDirectories (join output options.assets)).2

theorem exists_on_setUp {laid : FileTree} (h : DifferAt spot c c' files files')
    (hstatic : ∀ file ∈ staticFiles output options,
      (madeFrom output options files).location? file.1 ≠ some spot)
    (hset : (setUp output options).on files = (.ok (), laid)) :
    ∃ laid', (setUp output options).on files' = (.ok (), laid') ∧ DifferAt spot c c' laid laid' := by
  obtain ⟨outer, made, houter, hmade, hwrites⟩ := on_setUp_eq_ok_iff.1 hset
  rw [madeFrom_eq houter hmade] at hstatic
  obtain ⟨outer', houter', houters⟩ := h.exists_makeDirectories houter
  obtain ⟨made', hmade', hmades⟩ := houters.exists_makeDirectories hmade
  obtain ⟨laid', hwrites', hlaid⟩ := hmades.exists_writeAll (fun w hw => by
    obtain ⟨file, hfile, rfl⟩ := List.mem_map.1 hw
    exact hstatic file hfile) hwrites
  exact ⟨laid', on_setUp_eq_ok_iff.2 ⟨outer', made', houter', hmade', hwrites'⟩, hlaid⟩

theorem copiedImages_eq_of_differAt {laid : FileTree} {path : String}
    (h : DifferAt spot c c' files files') (hfront : FrontApart root output options spot files)
    (hspot : (madeFrom output options files).location? path = some spot)
    (hset : (setUp output options).on files = (.ok (), laid)) :
    copiedImages root output options files' = copiedImages root output options files := by
  obtain ⟨laid', hset', hlaid⟩ := exists_on_setUp h hfront.static_ne hset
  have hloc := location?_of_on_setUp hset
  have himages := hfront.image_ne
  simp only [copiedImages_eq hset, ← locationIn?_of_on_setUp hset] at himages
  rw [copiedImages_eq hset, copiedImages_eq hset']
  exact hlaid.filesIn_eq ((hloc path).trans hspot) himages

theorem FrontApart.of_differAt {laid : FileTree} {path : String}
    (h : DifferAt spot c c' files files') (hfront : FrontApart root output options spot files)
    (hspot : (madeFrom output options files).location? path = some spot)
    (hset : (setUp output options).on files = (.ok (), laid)) :
    FrontApart root output options spot files' := by
  have himages := copiedImages_eq_of_differAt h hfront hspot hset
  have hmade := differAt_madeFrom h output options
  have hloc := hmade.location?_eq
  have hlocIn := locationIn?_congr hmade.sameDirectories
  constructor
  all_goals simp only [himages, hloc, ← hlocIn]
  · exact hfront.image_ne
  · exact hfront.asset_ne
  · exact hfront.static_ne
  · exact hfront.contents_ne
  · exact hfront.landingPage_ne

theorem exists_on_copyFiles {images assets : String} : ∀ {names : List FileName} {t t' m : FileTree},
    DifferAt spot c c' t t' →
      (∀ name ∈ names, t.locationIn? images name ≠ some spot ∧
        t.location? (assetPath assets name) ≠ some spot) →
      (copyFiles images assets names).on t = (.ok (), m) →
        ∃ m', (copyFiles images assets names).on t' = (.ok (), m') ∧ DifferAt spot c c' m m'
  | [], t, t', m, h, _, hcopy => by
    cases hcopy
    exact ⟨t', rfl, h⟩
  | name :: rest, t, t', m, h, hne, hcopy => by
    rw [copyFiles_cons] at hcopy ⊢
    obtain ⟨n, hfirst, hrest⟩ := on_then_eq_ok_iff.1 hcopy
    obtain ⟨⟨hsource, hdestination⟩, hne⟩ := List.forall_mem_cons.1 hne
    obtain ⟨n', hfirst', hn⟩ := h.exists_copy hsource hdestination (on_copy_eq_ok_iff.1 hfirst)
    obtain ⟨d, -, hw⟩ := copy_eq_ok_iff.1 (on_copy_eq_ok_iff.1 hfirst)
    have hsame := sameDirectories_of_write hw
    simp only [location?_congr hsame, locationIn?_congr hsame] at hne
    obtain ⟨m', hrest', hm⟩ := exists_on_copyFiles hn hne hrest
    exact ⟨m', on_then_eq_ok_iff.2 ⟨n', on_copy_eq_ok_iff.2 hfirst', hrest'⟩, hm⟩

theorem exists_on_writeLandingPage {t t' m : FileTree} {source destination moduleName : String}
    (h : DifferAt spot c c' t t') (hsource : t.location? source ≠ some spot)
    (hdestination : t.location? destination ≠ some spot)
    (hpage : (writeLandingPage source destination moduleName).on t = (.ok (), m)) :
    ∃ m', (writeLandingPage source destination moduleName).on t' = (.ok (), m') ∧
      DifferAt spot c c' m m' := by
  obtain ⟨text, parts, page, hr, hparts, hrender, hw⟩ := on_writeLandingPage_eq_ok_iff.1 hpage
  obtain ⟨m', hw', hm⟩ := h.exists_write hdestination hw
  exact ⟨m', on_writeLandingPage_eq_ok_iff.2
    ⟨text, parts, page, (h.readText_iff hsource text).2 hr, hparts, hrender, hw'⟩, hm⟩

/-- What comes before the chapters is laid out alike in both trees. -/
theorem exists_on_layOut {tree : FileTree} {n : Nat} {path : String}
    (h : DifferAt spot c c' files files') (hfront : FrontApart root output options spot files)
    (hspot : (madeFrom output options files).location? path = some spot)
    (hlay : (layOut root output options).on files = (.ok n, tree)) :
    ∃ tree', (layOut root output options).on files' = (.ok n, tree') ∧ DifferAt spot c c' tree tree' := by
  obtain ⟨laid, illustrated, hset, rfl, hcopy, hpage⟩ := on_layOut_eq_ok_iff.1 hlay
  obtain ⟨laid', hset', hlaid⟩ := exists_on_setUp h hfront.static_ne hset
  have himages := copiedImages_eq_of_differAt h hfront hspot hset
  rw [copiedImages_eq hset, copiedImages_eq hset'] at himages
  have hloc := location?_of_on_setUp hset
  obtain ⟨copies, -, hcopies⟩ := exists_writeAll_of_on_copyFiles hcopy
  have hloc' := location?_congr (sameDirectories_of_writeAll hcopies)
  obtain ⟨illustrated', hcopy', hillustrated⟩ := exists_on_copyFiles hlaid (fun name hn => by
    rw [hloc, locationIn?_of_on_setUp hset]
    rw [← copiedImages_eq hset] at hn
    exact ⟨hfront.image_ne name hn, hfront.asset_ne name hn⟩) hcopy
  obtain ⟨tree', hpage', htree⟩ := exists_on_writeLandingPage hillustrated
    (by rw [← hloc', hloc]; exact hfront.contents_ne)
    (by rw [← hloc', hloc]; exact hfront.landingPage_ne) hpage
  refine ⟨tree', on_layOut_eq_ok_iff.2 ⟨laid', illustrated', hset', ?_, ?_, hpage'⟩, htree⟩
  · simp only [himages]
  · simp only [himages]
    exact hcopy'

end BookCatalog.Book
