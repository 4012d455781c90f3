import BookCatalog.Proofs.DirectoryNames
import BookCatalog.Proofs.FileWrites

/-!
# The files of a directory

The files that a directory lists do not change with a write that reaches none of them
(`filesIn_of_writeAll`): a write adds at most one name, that of the file it writes.
-/

namespace BookCatalog.FileTree

open BookCatalog.FilePath

variable {t t' : FileTree}

/-! ## Names in a directory -/

theorem nameIn?_eq_some_iff {dir loc : Location} {name : String} :
    nameIn? dir loc = some name ↔ loc = dir ++ [name] := by
  unfold nameIn?
  rcases List.eq_nil_or_concat loc with rfl | ⟨front, last, rfl⟩
  · simp
  · rw [List.concat_eq_append, List.dropLast_concat, List.getLast?_concat]
    constructor
    · intro h
      split at h
      · rename_i hd; cases h; rw [hd]
      · cases h
    · intro h
      obtain ⟨rfl, hlast⟩ := List.append_inj' h rfl
      cases hlast
      simp

theorem filter_mergeSort_of_perm {l l' : List FileName} {f : FileName → Bool}
    (h : (l.filter f).Perm (l'.filter f)) :
    (l.mergeSort (· ≤ ·)).filter f = (l'.mergeSort (· ≤ ·)).filter f := by
  have hsorted (l : List FileName) : ((l.mergeSort (· ≤ ·)).filter f).Pairwise (· ≤ ·) :=
    (FileName.pairwise_mergeSort l).filter f
  refine List.Perm.eq_of_pairwise (fun a b _ _ => FileName.le_antisymm) (hsorted l) (hsorted l') ?_
  exact ((List.mergeSort_perm l _).filter f).trans (h.trans ((List.mergeSort_perm l' _).filter f).symm)

/-- The locations of a tree when an entry has been put. -/
theorem map_fst_put (t : FileTree) (loc : Location) (e : Entry) :
    (t.put loc e).entries.map (·.1) = loc :: (t.entries.map (·.1)).filter (· ≠ loc) := by
  simp [put, List.filter_map]
  rfl

/-- The names in a directory that are no text. -/
def rawNamesAt (around : Surroundings) (dir : Location) : List FileName :=
  around.unspelled.filterMap fun e => if e.1.1 = dir then some (.raw e.1.2) else none

/-- A location matters only for the name that it has in the directory. -/
theorem filter_namesAt_eq {dir loc : Location} {f : FileName → Bool}
    (hf : ∀ name, loc = dir ++ [name] → f (.text name) = false) (t : FileTree) :
    (t.namesAt dir).filter f =
      (((t.entries.map (·.1)).filter (· ≠ loc)).filterMap fun l =>
        ((nameIn? dir l).map FileName.text).filter f) ++ (rawNamesAt t.toSurroundings dir).filter f := by
  have hloc : ((nameIn? dir loc).map FileName.text).filter f = none := by
    cases hn : nameIn? dir loc with
    | none => rfl
    | some name => simp [Option.filter, hf name (nameIn?_eq_some_iff.1 hn)]
  unfold namesAt
  rw [List.filter_append, List.filter_filterMap, List.filterMap_filter, List.filterMap_map]
  refine congrArg (· ++ _) (List.filterMap_congr fun old _ => ?_)
  by_cases hold : old.1 = loc
  · simp [hold, hloc]
  · simp [hold]

/-- An entry that is put at a location matters only for the name that it has. -/
theorem filter_namesAt_put {dir loc : Location} {f : FileName → Bool} (e : Entry)
    (hf : ∀ name, loc = dir ++ [name] → f (.text name) = false) :
    ((t.put loc e).namesAt dir).filter f = (t.namesAt dir).filter f := by
  rw [filter_namesAt_eq hf, filter_namesAt_eq hf, map_fst_put, List.filter_cons_of_neg (by simp),
    List.filter_filter]
  simp

theorem text_mem_namesAt_iff {dir : Location} {name : String} :
    .text name ∈ t.namesAt dir ↔ ∃ e ∈ t.entries, e.1 = dir ++ [name] := by
  simp [namesAt, nameIn?_eq_some_iff]

theorem mem_namesAt_put {dir loc : Location} {name : FileName} (e : Entry) :
    name ∈ (t.put loc e).namesAt dir ↔
      (∃ s, name = .text s ∧ loc = dir ++ [s]) ∨ name ∈ t.namesAt dir := by
  cases name with
  | raw name => simp [namesAt, put]
  | text name =>
    simp only [text_mem_namesAt_iff, FileName.text.injEq, exists_eq_left']
    by_cases hl : loc = dir ++ [name]
    · simp [put, hl]
    · have hne : ∀ l : Location, l = dir ++ [name] → l ≠ loc := fun l h h' => hl (h'.symm.trans h)
      simp [put, hl]
      grind

/-! ## Files among the names -/

/-- The names of the files in the directory that a path leads to, in order. -/
def filesIn (t : FileTree) (dir : String) : List FileName :=
  match t.names dir with
  | .ok names => names.filter fun name => t.isFileIn dir name
  | .error _ => []

/-- There are no files in what is no directory. -/
theorem filesIn_of_not_isDirectory {dir : String} (h : t.isDirectory dir = false) :
    t.filesIn dir = [] := by
  unfold filesIn names
  cases hf : t.find dir with
  | error e => rfl
  | ok target =>
    cases target with
    | directory loc => simp [isDirectory, hf] at h
    | file loc c => rfl
    | nothing loc => rfl

theorem names_of_find {dir : String} {loc : Location} (h : t.find dir = .ok (.directory loc)) :
    t.names dir = .ok ((t.namesAt loc).mergeSort (· ≤ ·)) := by
  unfold names
  simp only [h, bind, Except.bind]
  rfl

theorem filesIn_of_find {dir : String} {loc : Location} (h : t.find dir = .ok (.directory loc)) :
    t.filesIn dir = ((t.namesAt loc).mergeSort (· ≤ ·)).filter fun name => t.isFileIn dir name := by
  unfold filesIn
  rw [names_of_find h]

/-- The files of a directory whose names stand in order. -/
theorem filesIn_of_sorted {dir : String} {loc : Location} {names : List FileName}
    (h : t.find dir = .ok (.directory loc)) (hnames : t.namesAt loc = names)
    (hsorted : names.Pairwise fun a b => decide (a ≤ b) = true) :
    t.filesIn dir = names.filter fun name => t.isFileIn dir name := by
  rw [filesIn_of_find h, hnames, List.mergeSort_of_pairwise hsorted]

/-- A file is still one after a write. -/
theorem isFileIn_of_write {path dir : String} {name : FileName} {c : FileContent}
    (h : t.write path c = .ok t') (hf : t.isFileIn dir name = true) : t'.isFileIn dir name = true := by
  obtain ⟨c', hr⟩ := isFileIn_iff.1 hf
  exact isFileIn_iff.2 ⟨_, readIn_of_write h hr⟩

theorem isFile_of_write {path path' : String} {c : FileContent} (h : t.write path c = .ok t')
    (hf : t.isFile path' = true) : t'.isFile path' = true := by
  have hjoin : join "" path' = path' := by simp [join]
  rw [← hjoin] at hf ⊢
  have hin : t.isFileIn "" path' = true := hf
  exact isFileIn_of_write h hin

/-- The files of a directory are the names in it that lead to files. -/
theorem mem_filesIn_iff {dir : String} {name : FileName} : name ∈ t.filesIn dir ↔
    ∃ loc, t.find dir = .ok (.directory loc) ∧ name ∈ t.namesAt loc ∧ t.isFileIn dir name = true := by
  constructor
  · intro h
    have hd : t.isDirectory dir = true := by
      by_contra hd
      rw [filesIn_of_not_isDirectory (by simpa using hd)] at h
      cases h
    obtain ⟨loc, hp⟩ := isDirectory_iff.1 hd
    rw [filesIn_of_find hp] at h
    simp only [List.mem_filter, List.mem_mergeSort] at h
    exact ⟨loc, hp, h⟩
  · rintro ⟨loc, hp, h⟩
    rw [filesIn_of_find hp]
    simpa only [List.mem_filter, List.mem_mergeSort] using h

/-- A directory lists after a write what it listed before. -/
theorem mem_filesIn_of_write {path dir : String} {name : FileName} {c : FileContent}
    (h : t.write path c = .ok t') (hn : name ∈ t.filesIn dir) : name ∈ t'.filesIn dir := by
  obtain ⟨loc, hp, hname, hfile⟩ := mem_filesIn_iff.1 hn
  have hp' := find_directory_mono (sameDirectories_of_write h).le hp
  refine mem_filesIn_iff.2 ⟨loc, hp', ?_, isFileIn_of_write h hfile⟩
  obtain ⟨-, target, -, -, rfl⟩ := write_eq_ok_iff.1 h
  exact (mem_namesAt_put _).2 (.inr hname)

/-- A file in a directory is at the place of its name there. -/
theorem location?_join_of_isFile {dir name : String} {loc : Location}
    (hp : t.find dir = .ok (.directory loc)) (hname : IsName name)
    (hf : t.isFile (join dir name) = true) : t.location? (join dir name) = some (loc ++ [name]) := by
  obtain ⟨c, hr⟩ := isFile_iff.1 hf
  obtain ⟨-, l, hl, -⟩ := read_eq_ok_iff.1 hr
  have hne : dir ≠ "" := (find_eq_directory_iff.1 hp).1.ne_empty
  obtain ⟨dir', hfind, rfl⟩ := location?_join hname hne hl
  rw [hp] at hfind
  cases hfind
  exact hl

/-- The files of a directory are the same after a write that reaches none of them. -/
theorem filesIn_of_write {path dir : String} {c : FileContent} (h : t.write path c = .ok t')
    (hne : ∀ name ∈ t'.filesIn dir, t.locationIn? dir name ≠ t.location? path) :
    t'.filesIn dir = t.filesIn dir := by
  have hsame := sameDirectories_of_write h
  by_cases hd : t.isDirectory dir = true
  swap
  · have hd' : t.isDirectory dir = false := by simpa using hd
    rw [filesIn_of_not_isDirectory hd', filesIn_of_not_isDirectory (isDirectory_congr hsame dir ▸ hd')]
  obtain ⟨loc, hp⟩ := isDirectory_iff.1 hd
  have hp' := find_directory_mono hsame.le hp
  rw [filesIn_of_find hp'] at hne ⊢
  rw [filesIn_of_find hp]
  simp only [List.mem_filter, List.mem_mergeSort] at hne
  obtain ⟨-, target, hl, -, rfl⟩ := write_eq_ok_iff.1 h
  have hfile : ∀ name ∈ (t.put target (.file c)).namesAt loc,
      (t.put target (.file c)).isFileIn dir name = t.isFileIn dir name := by
    intro name hn
    rw [Bool.eq_iff_iff]
    refine ⟨fun hf => ?_, isFileIn_of_write h⟩
    obtain ⟨c', hr⟩ := isFileIn_iff.1 hf
    refine isFileIn_iff.2 ⟨c', (readIn_of_write_ne h (fun l hl' hl'' => ?_) c').1 hr⟩
    exact hne name ⟨hn, hf⟩ (hl'.trans hl''.symm)
  rw [List.filter_congr fun name hn => hfile name (List.mem_mergeSort.1 hn)]
  refine filter_mergeSort_of_perm (.of_eq (filter_namesAt_put _ fun name htarget => ?_))
  -- a file of this name would be the one that is written
  have hname : FileName.text name ∈ (t.put target (.file c)).namesAt loc :=
    (mem_namesAt_put _).2 (.inl ⟨name, rfl, htarget⟩)
  rw [← hfile _ hname]
  by_contra hf
  have hf : (t.put target (.file c)).isFileIn dir (.text name) = true := by simpa using hf
  refine hne _ ⟨hname, hf⟩ ?_
  subst htarget
  rw [hl, locationIn?_congr hsame]
  exact location?_join_of_isFile hp' (isName_of_location? hl) hf

theorem filesIn_of_writeAll {dir : String} : ∀ {ws : List (String × FileContent)} {t : FileTree},
    t.writeAll ws = .ok t' →
    (∀ w ∈ ws, ∀ name ∈ t'.filesIn dir, t.locationIn? dir name ≠ t.location? w.1) →
    t'.filesIn dir = t.filesIn dir
  | [], _, h, _ => by cases h; rfl
  | w :: ws, t, h, hne => by
    obtain ⟨m, hw, h⟩ := writeAll_cons_eq_ok_iff.1 h
    have hsame := sameDirectories_of_write hw
    have ih : t'.filesIn dir = m.filesIn dir := filesIn_of_writeAll h fun w' hw' name hn => by
      rw [← locationIn?_congr hsame, ← location?_congr hsame]
      exact hne w' (List.mem_cons_of_mem _ hw') name hn
    rw [ih]
    refine filesIn_of_write hw fun name hn => hne w List.mem_cons_self name ?_
    rwa [ih]

end BookCatalog.FileTree
