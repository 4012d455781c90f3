import BookCatalog.Proofs.FileNames

/-!
# The same requests again

A request for a directory that is there does nothing (`makeDirectories_of_isDirectory`). Writes that were made
can be made again on the tree that they left, and leave the same entries (`exists_writeAll_again`). Files that
are there already can be written without any directory listing other files, if it lists none of those that are
written (`filesIn_of_rewriteAll`).
-/

namespace BookCatalog.FileTree

open BookCatalog.FilePath

variable {t t' : FileTree}

theorem makeDirectories_of_isDirectory {path : String} (h : path = "" ∨ t.isDirectory path = true) :
    t.makeDirectories path = (.ok (), t) := by
  unfold makeDirectories makeDirectoriesFrom
  obtain hempty | hd := h
  · rw [if_pos hempty]
  obtain ⟨loc, hp⟩ := isDirectory_iff.1 hd
  have hmake : t.makeDirectory path = .error .alreadyExists := by
    simp only [makeDirectory, hp, bind, Except.bind]
    rfl
  by_cases hempty : path = ""
  · rw [if_pos hempty]
  · simp [hempty, hmake, hd]

/-! ## Writes that were made -/

/-- What was written is a file. -/
theorem isFile_of_mem_writeAll {ws : List (String × FileContent)} (h : t.writeAll ws = .ok t')
    {w : String × FileContent} (hw : w ∈ ws) : t'.isFile w.1 = true := by
  obtain ⟨hs, loc, hl⟩ := exists_location?_of_mem_writeAll h w hw
  obtain ⟨last, hlast⟩ : ∃ last, t.lastWrite? ws loc = some last := by
    refine Option.ne_none_iff_exists'.1 fun hnone => ?_
    exact lastWrite?_eq_none_iff.1 hnone w hw hl
  refine isFile_iff.2 ⟨last.2, read_eq_ok_iff.2 ⟨hs, loc, ?_, ?_⟩⟩
  · rw [← location?_congr (sameDirectories_of_writeAll h), hl]
  · rw [get?_writeAll h, hlast]
    rfl

/-- Writes that were made can be made again. They leave what they left before. -/
theorem exists_writeAll_again {ws : List (String × FileContent)} (h : t.writeAll ws = .ok t') :
    ∃ again, t'.writeAll ws = .ok again ∧ ∀ loc, again.get? loc = t'.get? loc := by
  have hsame := sameDirectories_of_writeAll h
  obtain ⟨again, hagain⟩ : ∃ again, t'.writeAll ws = .ok again := exists_writeAll_iff.2 fun w hw =>
    (exists_write_congr hsame w.1 w.2).2 (exists_writeAll_iff.1 ⟨t', h⟩ w hw)
  refine ⟨again, hagain, fun loc => ?_⟩
  have hlast : t'.lastWrite? ws loc = t.lastWrite? ws loc := by
    simp only [lastWrite?, location?_congr hsame]
  rw [get?_writeAll hagain, hlast, get?_writeAll h]
  cases t.lastWrite? ws loc <;> rfl

/-! ## Files that are there already -/

/-- A file that is written over was there before, under its name. -/
theorem mem_filesIn_of_rewrite {path dir : String} {name : FileName} {c : FileContent}
    (h : t.write path c = .ok t') (hf : t.isFile path = true) (hn : name ∈ t'.filesIn dir) :
    name ∈ t.filesIn dir := by
  have hsame := sameDirectories_of_write h
  obtain ⟨loc, hp, hname, hfile⟩ := mem_filesIn_iff.1 hn
  obtain ⟨c', hr⟩ := isFile_iff.1 hf
  obtain ⟨-, spot, hl, hg⟩ := read_eq_ok_iff.1 hr
  refine mem_filesIn_iff.2 ⟨loc, find_directory_mono hsame.symm.le hp, ?_, ?_⟩
  · obtain ⟨-, spot', hl', -, rfl⟩ := write_eq_ok_iff.1 h
    obtain rfl : spot = spot' := Option.some.inj (hl.symm.trans hl')
    obtain ⟨s, rfl, rfl⟩ | hold := (mem_namesAt_put _).1 hname
    · exact mem_namesAt_of_get? hg
    · exact hold
  · obtain ⟨c'', hr'⟩ := isFileIn_iff.1 hfile
    by_cases heq : t.locationIn? dir name = some spot
    · cases name with
      | raw name => cases heq
      | text name =>
        exact isFileIn_iff.2 ⟨c', read_eq_ok_iff.2 ⟨(read_eq_ok_iff.1 hr').1, spot, heq, hg⟩⟩
    · refine isFileIn_iff.2 ⟨c'', (readIn_of_write_ne h (fun l hl' hl'' => heq ?_) c'').1 hr'⟩
      exact hl'.trans (hl''.symm.trans hl)

/-- The files of a directory are the same when others that are there already are written over. -/
theorem filesIn_of_rewriteAll {dir : String} : ∀ {ws : List (String × FileContent)} {t : FileTree},
    t.writeAll ws = .ok t' → (∀ w ∈ ws, t.isFile w.1 = true) →
    (∀ w ∈ ws, ∀ name ∈ t.filesIn dir, t.locationIn? dir name ≠ t.location? w.1) →
    t'.filesIn dir = t.filesIn dir
  | [], _, h, _, _ => by cases h; rfl
  | w :: ws, t, h, hfiles, hne => by
    obtain ⟨m, hw, h⟩ := writeAll_cons_eq_ok_iff.1 h
    obtain ⟨hfile, hrest⟩ := List.forall_mem_cons.1 hfiles
    have hsame := sameDirectories_of_write hw
    have hm : m.filesIn dir = t.filesIn dir := filesIn_of_write hw fun name hn =>
      hne w List.mem_cons_self name (mem_filesIn_of_rewrite hw hfile hn)
    rw [← hm]
    refine filesIn_of_rewriteAll h (fun w' hw' => isFile_of_write hw (hrest w' hw')) fun w' hw' name hn => ?_
    rw [← locationIn?_congr hsame, ← location?_congr hsame]
    exact hne w' (List.mem_cons_of_mem _ hw') name (hm ▸ hn)

end BookCatalog.FileTree
