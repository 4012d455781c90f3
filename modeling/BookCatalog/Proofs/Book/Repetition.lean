import BookCatalog.Proofs.Book.Catalog
import BookCatalog.Proofs.FileRewrites

/-!
# A second conversion

A conversion that succeeds can be made again on the tree that it left. It gives the same report and leaves the
same entries (`run_again_eq`). The tree still holds the same book, since nothing of it was written, and a
conversion of a book that a tree holds writes the catalog of the book (`run_eq_ok_of_hosts`). So the second
conversion makes the writes of the first one, and these put what is there already.
-/

namespace BookCatalog

open BookCatalog.FilePath

/-- The paths of the files of a book. -/
def BookFiles.paths (b : BookFiles) (root : String) (options : BookOptions) : List String :=
  b.images.filterMap (fun i => i.1.pathIn? (join root options.images)) ++ join root options.contents ::
    join root options.manifest :: b.chapters.map fun c => join root c.1

namespace Book

open Work FileTree

section
variable {root output : String} {options : BookOptions}

/-! ## Converting a book that a tree holds -/

/-- Images are copied with what they hold. -/
theorem on_copyFiles_of_writeAll {images assets : String} {held : List (FileName × FileContent)}
    {t t' : FileTree} (hread : ∀ i ∈ held, t.readIn images i.1 = .ok i.2)
    (hapart : ∀ i ∈ held, ∀ i' ∈ held, ∀ loc, t.locationIn? images i.1 = some loc →
      t.location? (assetPath assets i'.1) ≠ some loc)
    (h : t.writeAll (held.map fun i => (assetPath assets i.1, i.2)) = .ok t') :
    (copyFiles images assets (held.map (·.1))).on t = (.ok (), t') := by
  induction held generalizing t with
  | nil =>
    rw [List.map_nil, writeAll_nil] at h
    cases h
    rw [List.map_nil, copyFiles_nil, on_pure]
  | cons i rest ih =>
    rw [List.map_cons, writeAll_cons_eq_ok_iff] at h
    obtain ⟨m, hw, h⟩ := h
    dsimp only at hw
    obtain ⟨hr, hread⟩ := List.forall_mem_cons.1 hread
    have hsame := sameDirectories_of_write hw
    obtain ⟨-, target, htarget, -⟩ := write_eq_ok_iff.1 hw
    have hne : t.locationIn? images i.1 ≠ t.location? (assetPath assets i.1) := fun heq =>
      hapart i List.mem_cons_self i List.mem_cons_self target (heq.trans htarget) htarget
    have hcopied : t.copied images i.1 (assetPath assets i.1) i.2 = i.2 := by
      rw [copied, if_neg hne]
    have hcopy : t.copy images i.1 (assetPath assets i.1) = (.ok (), m) :=
      copy_eq_ok_iff.2 ⟨i.2, hr, by rw [hcopied, hw]⟩
    rw [List.map_cons, copyFiles_cons, on_then_eq_ok_iff]
    refine ⟨m, on_copy_eq_ok_iff.2 hcopy, ih (fun i' hi' => ?_) ?_ h⟩
    · exact (readIn_of_write_ne hw (fun loc hl =>
        hapart i' (List.mem_cons_of_mem _ hi') i List.mem_cons_self loc hl) i'.2).2 (hread i' hi')
    · intro i' hi' i'' hi'' loc hl
      rw [← locationIn?_congr hsame] at hl
      rw [← location?_congr hsame]
      exact hapart i' (List.mem_cons_of_mem _ hi') i'' (List.mem_cons_of_mem _ hi'') loc hl

/-- A tree in which a book can be converted without a change to the book: the directories of the catalog are
there, none of the files that are written is one of the book, and the first ones do not change what the
directory of the images lists. -/
structure Hosts (root output : String) (options : BookOptions) (t : FileTree) (b : BookFiles)
    (written : List (String × FileContent)) : Prop where
  heldBy : b.HeldBy root options t
  directory : ∀ path ∈ directories output options, path = "" ∨ t.isDirectory path = true
  apart : ∀ r ∈ b.paths root options, ∀ w ∈ written, ∀ loc,
    t.location? r = some loc → t.location? w.1 ≠ some loc
  filesIn_eq : ∀ laid, t.writeAll (textFiles (staticFiles output options)) = .ok laid →
    laid.filesIn (join root options.images) = t.filesIn (join root options.images)

section
variable {t t' : FileTree} {b : BookFiles} {written : List (String × FileContent)}

/-- What a book holds is read as before after the first of the writes. -/
theorem Hosts.read_iff (h : Hosts root output options t b written) {done : List (String × FileContent)}
    {m : FileTree} (hw : t.writeAll done = .ok m) (hsub : done ⊆ written) {r : String}
    (hr : r ∈ b.paths root options) (c : FileContent) : m.read r = .ok c ↔ t.read r = .ok c :=
  read_of_writeAll_ne hw (fun w hmem => h.apart r hr w (hsub hmem)) c

theorem Hosts.readText_iff (h : Hosts root output options t b written)
    {done : List (String × FileContent)} {m : FileTree} (hw : t.writeAll done = .ok m) (hsub : done ⊆ written)
    {r : String} (hr : r ∈ b.paths root options) (text : String) :
    m.readText r = .ok text ↔ t.readText r = .ok text := by
  rw [readText_eq_ok_iff, readText_eq_ok_iff, h.read_iff hw hsub hr]

theorem mem_paths_image {i : FileName × FileContent} (hi : i ∈ b.images) {path : String}
    (hpath : i.1.pathIn? (join root options.images) = some path) : path ∈ b.paths root options :=
  List.mem_append_left _ (List.mem_filterMap.2 ⟨i, hi, hpath⟩)

/-- No image is written over. -/
theorem image_ne_of_paths_ne {ws : List (String × FileContent)}
    (hapart : ∀ r ∈ b.paths root options, ∀ w ∈ ws, ∀ loc,
      t.location? r = some loc → t.location? w.1 ≠ some loc) {i : FileName × FileContent}
    (hi : i ∈ b.images) {w : String × FileContent} (hw : w ∈ ws) (loc : Location)
    (hl : t.locationIn? (join root options.images) i.1 = some loc) : t.location? w.1 ≠ some loc := by
  obtain ⟨path, hpath, hl⟩ := Option.bind_eq_some_iff.1 hl
  exact hapart path (mem_paths_image hi hpath) w hw loc hl

theorem mem_paths_contents : join root options.contents ∈ b.paths root options :=
  List.mem_append_right _ List.mem_cons_self

theorem mem_paths_manifest : join root options.manifest ∈ b.paths root options :=
  List.mem_append_right _ (List.mem_cons_of_mem _ List.mem_cons_self)

theorem mem_paths_chapter {c : String × String} (hc : c ∈ b.chapters) :
    join root c.1 ∈ b.paths root options :=
  List.mem_append_right _ (List.mem_cons_of_mem _ (List.mem_cons_of_mem _ (List.mem_map.2 ⟨c, hc, rfl⟩)))

/-- What comes before the chapters of a book that a tree holds. -/
theorem on_layOut_of_hosts {page : String} {tree : FileTree} (h : Hosts root output options t b written)
    (hparts : ∃ parts, TableOfContents.parts b.contents = .ok parts ∧
      render (TableOfContents.landingPage parts options.moduleName) = .ok page)
    (hsub : frontFiles output options b.images page ⊆ written)
    (hwrite : t.writeAll (frontFiles output options b.images page) = .ok tree) :
    (layOut root output options).on t = (.ok b.images.length, tree) := by
  obtain ⟨parts, hparts, hpage⟩ := hparts
  unfold frontFiles at hwrite hsub
  obtain ⟨illustrated, hillustrated, hlanding⟩ := writeAll_append_eq_ok_iff.1 hwrite
  obtain ⟨laid, hlaid, himages⟩ := writeAll_append_eq_ok_iff.1 hillustrated
  rw [writeAll_singleton] at hlanding
  have hsubFront := List.append_subset.1 hsub
  have hsubLaid := (List.append_subset.1 hsubFront.1).1
  have hsame := sameDirectories_of_writeAll hlaid
  have hlisted : laid.filesIn (join root options.images) = b.images.map (·.1) :=
    (h.filesIn_eq laid hlaid).trans h.heldBy.images_eq.symm
  have hmade {path : String} (hp : path ∈ directories output options) :=
    makeDirectories_of_isDirectory (h.directory path hp)
  refine on_layOut_eq_ok_iff.2 ⟨laid, illustrated, ?_, by rw [hlisted, List.length_map], ?_, ?_⟩
  · exact on_setUp_eq_ok_iff.2 ⟨t, t, hmade (by simp [directories]), hmade (by simp [directories]), hlaid⟩
  · rw [hlisted]
    refine on_copyFiles_of_writeAll (fun i hi => ?_) (fun i hi i' hi' loc hl => ?_) himages
    · refine (readIn_of_writeAll_ne hlaid (fun w hw => ?_) i.2).2 (h.heldBy.read_image i hi)
      exact image_ne_of_paths_ne h.apart hi (hsubLaid hw)
    · rw [← locationIn?_congr hsame] at hl
      rw [← location?_congr hsame]
      have hmem : (assetPath (join output options.assets) i'.1, i'.2) ∈ written :=
        (List.append_subset.1 hsubFront.1).2 (List.mem_map.2 ⟨i', hi', rfl⟩)
      have hne := image_ne_of_paths_ne h.apart hi hmem loc hl
      dsimp only at hne
      exact hne
  · refine on_writeLandingPage_eq_ok_iff.2 ⟨b.contents, parts, page, ?_, hparts, hpage, hlanding⟩
    exact (h.readText_iff hillustrated hsubFront.1 mem_paths_contents b.contents).2 h.heldBy.read_contents

/-- **A book that a tree holds can be converted**, and what is written is its catalog. -/
theorem run_eq_ok_of_hosts (h : Hosts root output options t b written)
    (hcatalog : b.catalog output options = .ok written) (hwrite : t.writeAll written = .ok t') :
    run root output options t = (.ok (b.report output), t') := by
  obtain ⟨parts, hparts, hcatalog⟩ := bind_eq_ok_iff.1 hcatalog
  obtain ⟨page, hpage, hcatalog⟩ := bind_eq_ok_iff.1 hcatalog
  obtain ⟨documents, hdocuments, hcatalog⟩ := bind_eq_ok_iff.1 hcatalog
  obtain ⟨chapters, hchapters, hcatalog⟩ := bind_eq_ok_iff.1 hcatalog
  cases hcatalog
  obtain ⟨tree, hfront, hrest⟩ := writeAll_append_eq_ok_iff.1 hwrite
  have hsub : frontFiles output options b.images page ⊆
      frontFiles output options b.images page ++ textFiles chapters := List.subset_append_left _ _
  obtain ⟨manifest, hmanifest, hspine⟩ := h.heldBy.spine_eq
  have hrender : renderChapters output b.chapters = .ok (chapters, (Chapters.bookTable b.chapters).size) :=
    renderChapters_eq_ok_iff.2 ⟨rfl, documents, hdocuments, hchapters⟩
  have hread := fun c hc => (h.readText_iff hfront hsub (mem_paths_chapter hc) c.2).2 (h.heldBy.read_chapter c hc)
  have hprepare : (prepare root output options).on t =
      (.ok ⟨chapters, b.images.length, (Chapters.bookTable b.chapters).size⟩, tree) := by
    refine on_prepare_eq_ok_iff.2 ⟨b.chapters.map (·.1), b.chapters,
      on_layOut_of_hosts h ⟨parts, hparts, hpage⟩ hsub hfront, ?_, ?_, hrender⟩
    · exact on_readSpine_eq_ok_iff.2 ⟨rfl, manifest,
        (h.readText_iff hfront hsub mem_paths_manifest manifest).2 hmanifest, hspine⟩
    · exact on_readChapters_eq_ok_iff.2 ⟨rfl, rfl, hread⟩
  refine run_eq_ok_iff.2 ⟨_, tree, hprepare, hrest, ?_⟩
  simp only [Prepared.report, BookFiles.report, map_fst_of_renderChapters hrender, Chapters.size_bookTable]

end

/-! ## The book of a conversion -/

section
variable {files final : FileTree} {report : BookReport}

/-- What is written for a catalog begins with the files that do not depend on the book. -/
theorem staticFiles_subset_catalog {b : BookFiles} {written : List (String × FileContent)}
    (h : b.catalog output options = .ok written) : textFiles (staticFiles output options) ⊆ written := by
  obtain ⟨_, -, h⟩ := bind_eq_ok_iff.1 h
  obtain ⟨_, -, h⟩ := bind_eq_ok_iff.1 h
  obtain ⟨_, -, h⟩ := bind_eq_ok_iff.1 h
  obtain ⟨_, -, h⟩ := bind_eq_ok_iff.1 h
  cases h
  unfold frontFiles
  rw [List.append_assoc, List.append_assoc]
  exact List.subset_append_left _ _

/-- A conversion that does not write what it reads converts the book that the tree holds when the directories
of the catalog have been made. -/
theorem exists_book_of_run (h : run root output options files = (.ok report, final))
    (hapart : ReadsApart root output options files) :
    ∃ (b : BookFiles) (written : List (String × FileContent)),
      b.HeldBy root options (madeFrom output options files) ∧ b.catalog output options = .ok written ∧
      (madeFrom output options files).writeAll written = .ok final ∧ report = b.report output ∧
      (∀ path ∈ directories output options, path = "" ∨ (madeFrom output options files).isDirectory path = true) ∧
      (∀ w ∈ written, w.1 ∈ writes root output options files) ∧
      b.paths root options ⊆ reads root output options files := by
  obtain ⟨p, tree, hprepare, hwrite, rfl⟩ := run_eq_ok_iff.1 h
  obtain ⟨spine, sources, hlay, hspine, hsources, hchapters⟩ := on_prepare_eq_ok_iff.1 hprepare
  obtain ⟨laid, illustrated, hset, -, -, -⟩ := on_layOut_eq_ok_iff.1 hlay
  obtain ⟨images, text, page, hfront, hcopied, hcount, hwritten⟩ := exists_front_of_on_layOut hlay hapart
  obtain ⟨parts, hparts, hpage⟩ := hfront.page_eq
  have hheld := hfront.heldBy hapart hcopied hwritten hlay hspine hsources
  obtain ⟨hsize, documents, hdocuments, hmap⟩ := renderChapters_eq_ok_iff.1 hchapters
  obtain ⟨-, hpaths, -⟩ := on_readChapters_eq_ok_iff.1 hsources
  have hread : chaptersRead root output options files = sources.map (·.1) :=
    (chaptersRead_eq hlay hspine).trans hpaths.symm
  refine ⟨⟨images, text, sources⟩, _, hheld, ?_, writeAll_append_eq_ok_iff.2 ⟨tree, hwritten, hwrite⟩, ?_,
    isDirectory_of_mem_directories hset, ?_, ?_⟩
  · simp only [BookFiles.catalog, bind_eq_ok_iff]
    exact ⟨parts, hparts, page, hpage, documents, hdocuments, p.chapters, hmap, rfl⟩
  · simp only [Prepared.report, BookFiles.report, map_fst_of_renderChapters hchapters, hcount, hsize,
      Chapters.size_bookTable]
  · intro w hw
    rcases List.mem_append.1 hw with hw | hw
    · exact mem_writes_of_mem_frontFiles hcopied w hw
    · obtain ⟨c, hc, rfl⟩ := List.mem_map.1 hw
      have hpath : c.1 ∈ p.chapters.map (·.1) := List.mem_map_of_mem hc
      rw [map_fst_of_renderChapters hchapters] at hpath
      obtain ⟨source, hsource, heq⟩ := List.mem_map.1 hpath
      show c.1 ∈ writes root output options files
      rw [← heq]
      exact mem_writes_chapter (hread ▸ List.mem_map_of_mem hsource)
  · unfold BookFiles.paths reads
    rw [hread, ← hcopied, List.filterMap_map, List.map_map]
    exact List.Subset.refl _

/-- A book is held as before when none of its files is written and its images are listed as before. -/
theorem heldBy_of_writeAll {b : BookFiles} {ws : List (String × FileContent)} {t t' : FileTree}
    (h : b.HeldBy root options t) (hw : t.writeAll ws = .ok t')
    (hapart : ∀ r ∈ b.paths root options, ∀ w ∈ ws, ∀ loc,
      t.location? r = some loc → t.location? w.1 ≠ some loc)
    (hlisted : t'.filesIn (join root options.images) = t.filesIn (join root options.images)) :
    b.HeldBy root options t' := by
  have hread {r : String} (hr : r ∈ b.paths root options) (c : FileContent) :
      t'.read r = .ok c ↔ t.read r = .ok c := read_of_writeAll_ne hw (hapart r hr) c
  have htext {r : String} (hr : r ∈ b.paths root options) (text : String) :
      t'.readText r = .ok text ↔ t.readText r = .ok text := by
    rw [readText_eq_ok_iff, readText_eq_ok_iff, hread hr]
  obtain ⟨manifest, hmanifest, hspine⟩ := h.spine_eq
  have himage (i) (hi : i ∈ b.images) : t'.readIn (join root options.images) i.1 = .ok i.2 :=
    (readIn_of_writeAll_ne hw (fun w hmem => image_ne_of_paths_ne hapart hi hmem) i.2).2 (h.read_image i hi)
  exact ⟨h.images_eq.trans hlisted.symm, himage,
    (htext mem_paths_contents b.contents).2 h.read_contents,
    ⟨manifest, (htext mem_paths_manifest manifest).2 hmanifest, hspine⟩,
    fun c hc => (htext (mem_paths_chapter hc) c.2).2 (h.read_chapter c hc)⟩

/-! ## Twice -/

/-- None of the files that the directory of the images lists after a conversion is one that the conversion
writes. -/
def ListingApart (root output : String) (options : BookOptions) (files : FileTree) : Prop :=
  ∀ name ∈ (run root output options files).2.filesIn (join root options.images),
    ∀ w ∈ writes root output options files,
      (madeFrom output options files).locationIn? (join root options.images) name ≠
        (madeFrom output options files).location? w

/-- **Converting twice is converting once.** When a conversion succeeds, and neither what it reads nor what the
directory of the images lists is written by it, the same conversion of the tree that it left succeeds with the
same report and leaves every entry as it was. -/
theorem run_again_eq (h : run root output options files = (.ok report, final))
    (hapart : ReadsApart root output options files) (hlisting : ListingApart root output options files) :
    ∃ again, run root output options final = (.ok report, again) ∧
      again.toSurroundings = final.toSurroundings ∧ ∀ loc, again.get? loc = final.get? loc := by
  obtain ⟨b, written, hheld, hcatalog, hwrite, rfl, hdirectory, hwritten, hpaths⟩ := exists_book_of_run h hapart
  have hsame := sameDirectories_of_writeAll hwrite
  have hloc := location?_congr hsame
  have hbook : ∀ r ∈ b.paths root options, ∀ w ∈ written, ∀ loc,
      (madeFrom output options files).location? r = some loc →
        (madeFrom output options files).location? w.1 ≠ some loc :=
    fun r hr w hw => hapart r (hpaths hr) w.1 (hwritten w hw)
  have hnames : ∀ w ∈ written, ∀ name ∈ final.filesIn (join root options.images),
      (madeFrom output options files).locationIn? (join root options.images) name ≠
        (madeFrom output options files).location? w.1 := fun w hw name hn =>
    hlisting name (by rw [h]; exact hn) w.1 (hwritten w hw)
  have hstatic := staticFiles_subset_catalog hcatalog
  have hhosts : Hosts root output options final b written := by
    refine ⟨heldBy_of_writeAll hheld hwrite hbook (filesIn_of_writeAll hwrite hnames), ?_, ?_, ?_⟩
    · intro path hpath
      rw [← isDirectory_congr hsame]
      exact hdirectory path hpath
    · intro r hr w hw
      rw [← hloc, ← hloc]
      exact hbook r hr w hw
    · intro laid hlaid
      refine filesIn_of_rewriteAll hlaid (fun w hw => isFile_of_mem_writeAll hwrite (hstatic hw)) ?_
      intro w hw name hn
      rw [← locationIn?_congr hsame, ← hloc]
      exact hnames w (hstatic hw) name hn
  obtain ⟨again, hagain, hget⟩ := exists_writeAll_again hwrite
  exact ⟨again, run_eq_ok_of_hosts hhosts hcatalog hagain,
    (sameDirectories_of_writeAll hagain).surroundings_eq, hget⟩

theorem filesIn_smallFinal :
    smallFinal.filesIn (join "book" ({} : BookOptions).images) = [.text "i_2x.png"] := by
  have hfind : smallFinal.find "book/_images" = .ok (.directory ["book", "_images"]) :=
    find_eq_directory_iff.2 ⟨by decide +kernel, by decide +kernel⟩
  have hnames : smallFinal.namesAt ["book", "_images"] = [.text "i_2x.png"] := by decide +kernel
  rw [paths_smallBook.1, filesIn_of_sorted hfind hnames (by decide +kernel)]
  decide +kernel

theorem listingApart_smallBook : ListingApart "book" "out" {} smallBook := by
  unfold ListingApart writes
  rw [run_smallBook, filesIn_smallFinal, copiedImages_smallBook, chaptersRead_smallBook]
  decide +kernel

/-- The small book, whose second chapter is written over the first one, is converted twice. -/
theorem run_again_smallBook : ∃ again,
    run "book" "out" {} smallFinal = (.ok smallPrepared.report, again) ∧
      again.toSurroundings = smallFinal.toSurroundings ∧ ∀ loc, again.get? loc = smallFinal.get? loc :=
  run_again_eq run_smallBook readsApart_smallBook listingApart_smallBook

end

end

end Book

end BookCatalog
