import BookCatalog.Book
import BookCatalog.Proofs.FileListing

/-!
# Work on a tree of files

What work does is described by the trees before and after it. A chain of work goes on where the part
before it stopped (`on_bind_eq_ok_iff`), and stops at the first error with what was written until then
(`on_bind_eq_error_iff`). Each step is described by the request that it makes.
-/

namespace BookCatalog.Book

open BookCatalog.FilePath

variable {α β : Type} {t t' : FileTree} {e : ConversionError}

/-- What comes of work on a tree, and the tree after it. -/
def Work.on (work : Work α) (t : FileTree) : Except ConversionError α × FileTree := work.run.run t

namespace Work

/-! ## Chains -/

@[simp] theorem on_pure (a : α) (t : FileTree) : (pure a : Work α).on t = (.ok a, t) := rfl

@[simp] theorem on_throw (e : ConversionError) (t : FileTree) :
    (throw e : Work α).on t = (.error e, t) := rfl

@[simp] theorem on_get (t : FileTree) : (get : Work FileTree).on t = (.ok t, t) := rfl

@[simp] theorem on_set (t t' : FileTree) : (set t' : Work Unit).on t = (.ok (), t') := rfl

@[simp] theorem on_step (result : Except ConversionError α) (t : FileTree) :
    (step result).on t = (result, t) := rfl

theorem on_bind (work : Work α) (next : α → Work β) (t : FileTree) :
    (work >>= next).on t =
      match work.on t with
      | (.ok a, t') => (next a).on t'
      | (.error e, t') => (.error e, t') := by
  unfold on
  rw [ExceptT.run_bind, StateT.run_bind]
  simp only [bind]
  cases work.run.run t with
  | mk result m => cases result <;> rfl

theorem on_bind_eq_ok_iff {work : Work α} {next : α → Work β} {b : β} :
    (work >>= next).on t = (.ok b, t') ↔
      ∃ a m, work.on t = (.ok a, m) ∧ (next a).on m = (.ok b, t') := by
  rw [on_bind]
  cases work.on t with
  | mk result m => cases result <;> simp

/-- A step that gives nothing is followed by the rest of the work. -/
theorem on_then_eq_ok_iff {work : Work Unit} {next : Unit → Work β} {b : β} :
    (work >>= next).on t = (.ok b, t') ↔
      ∃ m, work.on t = (.ok (), m) ∧ (next ()).on m = (.ok b, t') := by
  rw [on_bind_eq_ok_iff]
  exact ⟨fun ⟨_, m, h⟩ => ⟨m, h⟩, fun ⟨m, h⟩ => ⟨(), m, h⟩⟩

theorem on_bind_eq_error_iff {work : Work α} {next : α → Work β} :
    (work >>= next).on t = (.error e, t') ↔
      work.on t = (.error e, t') ∨
        ∃ a m, work.on t = (.ok a, m) ∧ (next a).on m = (.error e, t') := by
  rw [on_bind]
  cases work.on t with
  | mk result m => cases result <;> simp

end Work

open Work

/-! ## Steps -/

theorem on_read (path : String) (t : FileTree) :
    (read path).on t = ((t.readText path).mapError (ConversionError.file path), t) := by
  unfold read
  rw [on_bind, on_get]
  cases h : t.readText path <;> simp [h, Except.mapError]

theorem on_write (path text : String) (t : FileTree) :
    (write path text).on t =
      match t.write path (.text text) with
      | .ok t' => (.ok (), t')
      | .error fault => (.error (.file path fault), t) := by
  unfold write
  rw [on_bind, on_get]
  cases h : t.write path (.text text) <;> simp [h]

theorem on_makeDirectory (path : String) (t : FileTree) :
    (makeDirectory path).on t =
      ((t.makeDirectories path).1.mapError (ConversionError.file path), (t.makeDirectories path).2) := by
  unfold makeDirectory
  rw [on_bind, on_get]
  cases h : t.makeDirectories path with
  | mk result t' => cases result <;> simp [h, on_bind, Except.mapError]

theorem on_copy (directory : String) (name : FileName) (destination : String) (t : FileTree) :
    (copy directory name destination).on t =
      ((t.copy directory name destination).1.mapError (ConversionError.file destination),
        (t.copy directory name destination).2) := by
  unfold copy
  rw [on_bind, on_get]
  cases h : t.copy directory name destination with
  | mk result t' => cases result <;> simp [h, on_bind, Except.mapError]

theorem on_read_eq_ok_iff {path text : String} :
    (read path).on t = (.ok text, t') ↔ t.readText path = .ok text ∧ t' = t := by
  rw [on_read]
  cases t.readText path <;> simp [Except.mapError, eq_comm]

theorem on_write_eq_ok_iff {path text : String} :
    (write path text).on t = (.ok (), t') ↔ t.write path (.text text) = .ok t' := by
  rw [on_write]
  cases t.write path (.text text) <;> simp

theorem on_write_eq_error_iff {path text : String} :
    (write path text).on t = (.error e, t') ↔
      t' = t ∧ ∃ fault, t.write path (.text text) = .error fault ∧ e = .file path fault := by
  rw [on_write]
  cases t.write path (.text text) <;> simp [eq_comm, and_comm]

theorem on_makeDirectory_eq_ok_iff {path : String} :
    (makeDirectory path).on t = (.ok (), t') ↔ t.makeDirectories path = (.ok (), t') := by
  rw [on_makeDirectory]
  cases t.makeDirectories path with
  | mk result m => cases result <;> simp [Except.mapError]

theorem on_copy_eq_ok_iff {directory destination : String} {name : FileName} :
    (copy directory name destination).on t = (.ok (), t') ↔
      t.copy directory name destination = (.ok (), t') := by
  rw [on_copy]
  cases t.copy directory name destination with
  | mk result m => cases result <;> simp [Except.mapError]

/-- A copy that fails changes nothing. -/
theorem eq_of_on_copy_error {directory destination : String} {name : FileName}
    (h : (copy directory name destination).on t = (.error e, t')) : t' = t := by
  rw [on_copy] at h
  cases hc : t.copy directory name destination with
  | mk result m =>
    rw [hc] at h
    cases result with
    | error fault => cases h; exact FileTree.eq_of_copy_error hc
    | ok _ => cases h

/-! ## Loops -/

/-- Texts as what files hold. -/
def textFiles (texts : List (String × String)) : List (String × FileContent) :=
  texts.map fun w => (w.1, .text w.2)

theorem writeTexts_nil : writeTexts [] = pure () := rfl

theorem writeTexts_cons (path text : String) (rest : List (String × String)) :
    writeTexts ((path, text) :: rest) = (write path text >>= fun _ => writeTexts rest) := rfl

theorem on_writeTexts_eq_ok_iff : ∀ {texts : List (String × String)} {t : FileTree},
    (writeTexts texts).on t = (.ok (), t') ↔ t.writeAll (textFiles texts) = .ok t'
  | [], t => by simp [writeTexts_nil, textFiles]
  | (path, text) :: rest, t => by
    rw [writeTexts_cons, on_then_eq_ok_iff]
    simp only [textFiles, List.map_cons, FileTree.writeAll_cons_eq_ok_iff, ← on_write_eq_ok_iff]
    refine exists_congr fun m => and_congr_right fun _ => ?_
    exact on_writeTexts_eq_ok_iff

/-- Writing texts stops at the first file that cannot be written. What comes before it has been written,
and nothing else. -/
theorem on_writeTexts_eq_error_iff : ∀ {texts : List (String × String)} {t : FileTree},
    (writeTexts texts).on t = (.error e, t') ↔
      ∃ done path text rest fault, texts = done ++ (path, text) :: rest ∧
        t.writeAll (textFiles done) = .ok t' ∧ t'.write path (.text text) = .error fault ∧
        e = .file path fault
  | [], t => by simp [writeTexts_nil]
  | (path, text) :: rest, t => by
    rw [writeTexts_cons, on_bind_eq_error_iff]
    constructor
    · rintro (h | ⟨_, m, hw, h⟩)
      · obtain ⟨rfl, fault, hw, he⟩ := on_write_eq_error_iff.1 h
        exact ⟨[], path, text, rest, fault, rfl, rfl, hw, he⟩
      · obtain ⟨done, p, s, rest', fault, rfl, hdone, hfault, he⟩ := on_writeTexts_eq_error_iff.1 h
        refine ⟨(path, text) :: done, p, s, rest', fault, rfl, ?_, hfault, he⟩
        exact FileTree.writeAll_cons_eq_ok_iff.2 ⟨m, on_write_eq_ok_iff.1 hw, hdone⟩
    · rintro ⟨done, p, s, rest', fault, hsplit, hdone, hfault, he⟩
      cases done with
      | nil =>
        cases hsplit
        cases hdone
        exact .inl (on_write_eq_error_iff.2 ⟨rfl, fault, hfault, he⟩)
      | cons first done =>
        cases hsplit
        obtain ⟨m, hw, hdone⟩ := FileTree.writeAll_cons_eq_ok_iff.1 hdone
        refine .inr ⟨(), m, on_write_eq_ok_iff.2 hw, ?_⟩
        exact on_writeTexts_eq_error_iff.2 ⟨done, p, s, rest', fault, rfl, hdone, hfault, he⟩

theorem readChapters_nil (root : String) : readChapters root [] = pure [] := rfl

theorem readChapters_cons (root path : String) (rest : List String) :
    readChapters root (path :: rest) = (do
      let text ← read (join root path)
      let sources ← readChapters root rest
      return (path, text) :: sources) := by
  unfold readChapters
  simp only [List.mapM_cons, bind_assoc, pure_bind]

/-- Chapters are read as the tree holds them. -/
theorem on_readChapters_eq_ok_iff {root : String} :
    ∀ {paths : List String} {t t' : FileTree} {sources : List (String × String)},
    (readChapters root paths).on t = (.ok sources, t') ↔
      t' = t ∧ sources.map (·.1) = paths ∧ ∀ c ∈ sources, t.readText (join root c.1) = .ok c.2
  | [], t, t', sources => by
    rw [readChapters_nil, on_pure, List.map_eq_nil_iff]
    constructor
    · intro h; cases h; simp
    · rintro ⟨rfl, rfl, -⟩; rfl
  | path :: rest, t, t', sources => by
    simp only [readChapters_cons, on_bind_eq_ok_iff, on_read_eq_ok_iff, on_pure]
    constructor
    · rintro ⟨text, _, ⟨hr, rfl⟩, more, _, hmore, h⟩
      cases h
      obtain ⟨rfl, hpaths, hread⟩ := on_readChapters_eq_ok_iff.1 hmore
      exact ⟨rfl, by rw [List.map_cons, hpaths], List.forall_mem_cons.2 ⟨hr, hread⟩⟩
    · rintro ⟨rfl, hpaths, hread⟩
      cases sources with
      | nil => cases hpaths
      | cons c more =>
        cases hpaths
        obtain ⟨hr, hread⟩ := List.forall_mem_cons.1 hread
        exact ⟨c.2, t', ⟨hr, rfl⟩, more, t', on_readChapters_eq_ok_iff.2 ⟨rfl, rfl, hread⟩, rfl⟩

theorem copyFiles_nil (images assets : String) : copyFiles images assets [] = pure () := rfl

theorem copyFiles_cons (images assets : String) (name : FileName) (rest : List FileName) :
    copyFiles images assets (name :: rest) =
      (copy images name (assetPath assets name) >>= fun _ => copyFiles images assets rest) := rfl

/-- All files of a directory of images are copied, and there are none if it is no directory. -/
theorem on_copyImages (images assets : String) (t : FileTree) :
    (copyImages images assets).on t =
      (copyFiles images assets (t.filesIn images) >>= fun _ => pure (t.filesIn images).length).on t := by
  unfold copyImages
  rw [on_bind, on_get]
  by_cases hd : t.isDirectory images = true
  · obtain ⟨loc, hp⟩ := FileTree.isDirectory_iff.1 hd
    have hn := FileTree.names_of_find hp
    have hfiles := FileTree.filesIn_of_find hp
    have hnames : (fileNames images).on t = (.ok (t.filesIn images), t) := by
      unfold fileNames
      rw [on_bind, on_get]
      simp [hn, hfiles]
    simp only [hd, if_true]
    rw [on_bind, hnames]
  · have hd : t.isDirectory images = false := by simpa using hd
    simp [hd, FileTree.filesIn_of_not_isDirectory hd, copyFiles_nil]

end BookCatalog.Book
