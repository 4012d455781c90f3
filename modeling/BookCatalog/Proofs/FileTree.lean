import BookCatalog.FileTree
import BookCatalog.Proofs.Paths
import BookCatalog.Proofs.Results

/-!
# Paths in a tree of files

A path leads to a location through directories only, so the location that it names (`location?`) depends
on the directories of a tree and not on its files. Requests are described by locations: a file is read
where its path leads (`read_eq_ok_iff`), and a write puts one entry at the location of its path and
changes nothing else (`write_eq_ok_iff`, `get?_put`).
-/

namespace BookCatalog.FileTree

open BookCatalog.FilePath

/-! ## Entries -/

theorem lookup_filter_ne {loc loc' : Location} (h : loc' ≠ loc) :
    ∀ es : List (Location × Entry), (es.filter fun old => old.1 ≠ loc).lookup loc' = es.lookup loc'
  | [] => rfl
  | (l, e) :: rest => by
    have ih := lookup_filter_ne h rest
    by_cases hl : l = loc
    · have hb : (loc' == l) = false := by simpa [hl] using h
      simp only [List.filter_cons, hl, ne_eq, not_true_eq_false, decide_false, Bool.false_eq_true,
        if_false, ih]
      rw [List.lookup_cons, ← hl, hb]
    · simp only [List.filter_cons, ne_eq, hl, not_false_eq_true, decide_true, if_true, List.lookup_cons]
      rw [ih]

@[simp] theorem toSurroundings_put (t : FileTree) (loc : Location) (e : Entry) :
    (t.put loc e).toSurroundings = t.toSurroundings := rfl

theorem get?_put {loc : Location} (h : loc ≠ []) (t : FileTree) (e : Entry) (loc' : Location) :
    (t.put loc e).get? loc' = if loc' = loc then some e else t.get? loc' := by
  unfold get? put
  by_cases hl : loc' = loc
  · subst hl; simp [h]
  · have hb : (loc' == loc) = false := by simpa using hl
    simp only [hl, if_false, List.lookup_cons, hb]
    rw [lookup_filter_ne hl]

/-- Of two entries put at one location the later one stays. -/
theorem put_put (t : FileTree) (loc : Location) (e e' : Entry) :
    (t.put loc e).put loc e' = t.put loc e' := by
  simp [put, List.filter_filter]

/-! ## Trees with more directories -/

/-- The directories of one tree are directories of another one with the same surroundings. -/
structure DirectoriesIn (t t' : FileTree) : Prop where
  surroundings_eq : t'.toSurroundings = t.toSurroundings
  directory : ∀ loc, t.get? loc = some .directory → t'.get? loc = some .directory

/-- Two trees have the same surroundings and the same directories. -/
structure SameDirectories (t t' : FileTree) : Prop where
  surroundings_eq : t'.toSurroundings = t.toSurroundings
  directory_iff : ∀ loc, t.get? loc = some .directory ↔ t'.get? loc = some .directory

namespace SameDirectories

variable {t t' t'' : FileTree}

theorem refl (t : FileTree) : SameDirectories t t := ⟨rfl, fun _ => .rfl⟩

theorem symm (h : SameDirectories t t') : SameDirectories t' t :=
  ⟨h.surroundings_eq.symm, fun loc => (h.directory_iff loc).symm⟩

theorem trans (h : SameDirectories t t') (h' : SameDirectories t' t'') : SameDirectories t t'' :=
  ⟨h'.surroundings_eq.trans h.surroundings_eq,
    fun loc => (h.directory_iff loc).trans (h'.directory_iff loc)⟩

theorem le (h : SameDirectories t t') : DirectoriesIn t t' :=
  ⟨h.surroundings_eq, fun loc => (h.directory_iff loc).1⟩

end SameDirectories

/-! ## Following a path -/

theorem start_congr {t t' : FileTree} (h : t'.toSurroundings = t.toSurroundings) (path : String) :
    t'.start path = t.start path := by
  unfold start
  rw [h]

/-- A text that can be followed: it is not empty, not too long, and has no NUL. -/
structure IsPath (path : String) : Prop where
  no_nul : '\x00' ∉ path.toList
  ne_empty : path ≠ ""
  size_le : path.utf8ByteSize ≤ longestPath

theorem isPath_iff {path : String} : IsPath path ↔
    '\x00' ∉ path.toList ∧ path ≠ "" ∧ path.utf8ByteSize ≤ longestPath :=
  ⟨fun ⟨h, h', h''⟩ => ⟨h, h', h''⟩, fun ⟨h, h', h''⟩ => ⟨h, h', h''⟩⟩

instance (path : String) : Decidable (IsPath path) := decidable_of_iff _ isPath_iff.symm

/-- The location of a name in a directory. -/
def slotIn (dir : Location) (name : String) : Except FileError Location :=
  if longestName < name.utf8ByteSize then .error .nameTooLong else .ok (dir ++ [name])

/-- Where names lead from a directory: to a directory, or to the location that the last of them has. -/
def arrive (t : FileTree) (dir : Location) (names : List String) :
    Except FileError (Location ⊕ Location) :=
  match names.getLast? with
  | none => .ok (.inl dir)
  | some last => do
    let dir ← names.dropLast.foldlM t.enter dir
    if last = "." || last = ".." then return .inl (← t.enter dir last)
    else return .inr (← slotIn dir last)

/-- What stands at a location. -/
def targetAt (t : FileTree) (loc : Location) : Target :=
  match t.get? loc with
  | some .directory => .directory loc
  | some (.file content) => .file loc content
  | none => .nothing loc

/-- What names lead to, once the directories among them have been entered. -/
def targetOf (t : FileTree) : Location ⊕ Location → Target
  | .inl dir => .directory dir
  | .inr loc => t.targetAt loc

theorem isPath_of_append {path rest : String} (h : IsPath (path ++ rest)) (hne : path ≠ "") :
    IsPath path := by
  obtain ⟨hnul, -, hsize⟩ := h
  rw [String.toList_append, List.mem_append, not_or] at hnul
  rw [String.utf8ByteSize_append] at hsize
  exact ⟨hnul.1, hne, by omega⟩

theorem lookUp_eq (t : FileTree) (dir : Location) (name : String) :
    t.lookUp dir name = (slotIn dir name).map fun loc => (loc, t.get? loc) := by
  unfold lookUp slotIn
  split <;> rfl

theorem slotIn_eq_ok_iff {dir loc : Location} {name : String} :
    slotIn dir name = .ok loc ↔ name.utf8ByteSize ≤ longestName ∧ loc = dir ++ [name] := by
  unfold slotIn
  split
  · rename_i h; simp; omega
  · rename_i h
    have hle : name.utf8ByteSize ≤ longestName := by omega
    simp [hle, eq_comm]

/-- A text that is no path leads nowhere, whatever the tree. -/
theorem exists_find_eq_error {path : String} (h : ¬IsPath path) :
    ∃ e, ∀ t : FileTree, t.find path = .error e := by
  by_cases hnul : '\x00' ∈ path.toList
  · exact ⟨.nulInName, fun t => by simp [find, hnul]⟩
  by_cases hne : path = ""
  · exact ⟨.notFound, fun t => by subst hne; rfl⟩
  by_cases hsize : longestPath < path.utf8ByteSize
  · exact ⟨.nameTooLong, fun t => by simp [find, hnul, hne, hsize]⟩
  exact absurd ⟨hnul, hne, by omega⟩ h

theorem find_of_not_isPath {t : FileTree} {path : String} (h : ¬IsPath path) (target : Target) :
    t.find path ≠ .ok target := by
  obtain ⟨e, he⟩ := exists_find_eq_error h
  simp [he t]

theorem find_eq {path : String} (h : IsPath path) (t : FileTree) :
    t.find path = (t.arrive (t.start path) (FilePath.names path)).map t.targetOf := by
  unfold find arrive
  rw [if_neg (by simpa using h.no_nul), if_neg h.ne_empty, if_neg (by have := h.size_le; omega)]
  show (match (FilePath.names path).getLast? with | none => _ | some last => _) = _
  cases (FilePath.names path).getLast? with
  | none => rfl
  | some last =>
    show ((FilePath.names path).dropLast.foldlM t.enter (t.start path) >>= fun dir => _) =
      ((FilePath.names path).dropLast.foldlM t.enter (t.start path) >>= fun dir => _).map t.targetOf
    cases (FilePath.names path).dropLast.foldlM t.enter (t.start path) with
    | error e => rfl
    | ok dir =>
      by_cases hl : (last = "." || last = "..") = true
      · simp only [bind, Except.bind, hl, if_true]
        cases t.enter dir last <;> rfl
      · simp only [bind, Except.bind, hl, lookUp_eq]
        cases slotIn dir last with
        | error e => rfl
        | ok loc =>
          cases h : t.get? loc with
          | none => simp [Except.map, pure, Except.pure, targetOf, targetAt, h]
          | some e => cases e <;> simp [Except.map, pure, Except.pure, targetOf, targetAt, h]

/-! ## Steps along a path -/

theorem enter_eq_ok_iff {t : FileTree} {p q : Location} {name : String} :
    t.enter p name = .ok q ↔
      (name = "." ∧ q = p) ∨ (name = ".." ∧ q = p.dropLast) ∨
        (name ≠ "." ∧ name ≠ "..") ∧ slotIn p name = .ok q ∧ t.get? q = some .directory := by
  unfold enter
  by_cases hd : name = "."
  · simp [hd, eq_comm]
  by_cases hdd : name = ".."
  · simp [hdd, eq_comm]
  rw [if_neg hd, if_neg hdd, lookUp_eq]
  simp only [hd, hdd, false_and, false_or, ne_eq, not_false_eq_true, true_and]
  cases slotIn p name with
  | error e => simp [Except.map]
  | ok loc =>
    have hne (h : t.get? loc ≠ some .directory) : ¬(loc = q ∧ t.get? q = some .directory) := by
      rintro ⟨rfl, hd⟩
      exact h hd
    rw [Except.ok.injEq]
    cases hg : t.get? loc with
    | none => simpa [Except.map, hg] using hne (by simp [hg])
    | some e =>
      cases e with
      | directory => simp +contextual [Except.map, hg, eq_comm]
      | file c => simpa [Except.map, hg] using hne (by simp [hg])

/-- More directories lead at least as far. -/
theorem enter_mono {t t' : FileTree} (h : DirectoriesIn t t') {p q : Location} {name : String}
    (he : t.enter p name = .ok q) : t'.enter p name = .ok q := by
  rw [enter_eq_ok_iff] at he ⊢
  exact he.imp_right fun he => he.imp_right fun ⟨hn, hs, hg⟩ => ⟨hn, hs, h.directory q hg⟩

theorem foldlM_enter_mono {t t' : FileTree} (h : DirectoriesIn t t') {q : Location} :
    ∀ {names : List String} {p : Location}, names.foldlM t.enter p = .ok q →
      names.foldlM t'.enter p = .ok q
  | [], _, hf => hf
  | name :: rest, p, hf => by
    rw [List.foldlM_cons] at hf ⊢
    obtain ⟨r, hr, hf⟩ := bind_eq_ok_iff.1 hf
    exact bind_eq_ok_iff.2 ⟨r, enter_mono h hr, foldlM_enter_mono h hf⟩

theorem arrive_nil (t : FileTree) (p : Location) : t.arrive p [] = .ok (.inl p) := rfl

theorem arrive_concat (t : FileTree) (p : Location) (front : List String) (last : String) :
    t.arrive p (front ++ [last]) = (do
      let dir ← front.foldlM t.enter p
      if last = "." || last = ".." then return .inl (← t.enter dir last)
      else return .inr (← slotIn dir last)) := by
  unfold arrive
  rw [List.getLast?_concat, List.dropLast_concat]

theorem arrive_eq_inr_iff {t : FileTree} {p : Location} {names : List String} {loc : Location} :
    t.arrive p names = .ok (.inr loc) ↔ ∃ front name dir, names = front ++ [name] ∧
      (name ≠ "." ∧ name ≠ "..") ∧ name.utf8ByteSize ≤ longestName ∧
      front.foldlM t.enter p = .ok dir ∧ loc = dir ++ [name] := by
  rcases List.eq_nil_or_concat names with rfl | ⟨front, last, rfl⟩
  · simp [arrive_nil]
  rw [List.concat_eq_append, arrive_concat, bind_eq_ok_iff]
  constructor
  · rintro ⟨dir, hp, h⟩
    split at h
    · obtain ⟨q, -, h⟩ := bind_eq_ok_iff.1 h
      cases h
    · rename_i hl
      obtain ⟨q, hs, h⟩ := bind_eq_ok_iff.1 h
      cases h
      obtain ⟨hle, rfl⟩ := slotIn_eq_ok_iff.1 hs
      exact ⟨front, last, dir, rfl, by simpa using hl, hle, hp, rfl⟩
  · rintro ⟨front', name, dir, hn, hl, hle, hp, rfl⟩
    obtain ⟨rfl, hlast⟩ := List.append_inj' hn rfl
    cases hlast
    refine ⟨_, hp, ?_⟩
    rw [if_neg (by simpa using hl)]
    exact bind_eq_ok_iff.2 ⟨_, slotIn_eq_ok_iff.2 ⟨hle, rfl⟩, rfl⟩

theorem targetAt_eq_directory_iff {t : FileTree} {loc q : Location} :
    t.targetAt loc = .directory q ↔ t.get? loc = some .directory ∧ q = loc := by
  unfold targetAt
  cases hg : t.get? loc with
  | none => simp
  | some e => cases e <;> simp [eq_comm]

theorem map_arrive_eq_directory_iff {t : FileTree} {p q : Location} {names : List String} :
    (t.arrive p names).map t.targetOf = .ok (.directory q) ↔ names.foldlM t.enter p = .ok q := by
  rcases List.eq_nil_or_concat names with rfl | ⟨front, last, rfl⟩
  · simp [arrive_nil, Except.map, targetOf, pure, Except.pure]
  rw [List.concat_eq_append, arrive_concat, List.foldlM_append]
  cases front.foldlM t.enter p with
  | error e => simp [Except.map, bind, Except.bind]
  | ok dir =>
    simp only [bind, Except.bind, List.foldlM_cons, List.foldlM_nil]
    by_cases hl : last = "." ∨ last = ".."
    · rw [if_pos (by simpa using hl)]
      cases t.enter dir last <;> simp [Except.map, targetOf, pure, Except.pure]
    · obtain ⟨hd, hdd⟩ := not_or.1 hl
      rw [if_neg (by simpa using hl)]
      cases hs : slotIn dir last with
      | error e => simp [enter, hd, hdd, lookUp_eq, hs, Except.map]
      | ok loc =>
        have htarget : (Except.ok (t.targetAt loc) : Except FileError Target) = .ok (.directory q) ↔
            t.enter dir last = .ok q := by
          simp only [Except.ok.injEq, targetAt_eq_directory_iff, enter_eq_ok_iff, hd, hdd, hs]
          grind
        simpa [Except.map, targetOf, pure, Except.pure, htarget] using htarget.trans (by
          cases t.enter dir last <;> rfl)

/-- The directory that a path leads to is found by entering all its names. -/
theorem find_eq_directory_iff {t : FileTree} {path : String} {dir : Location} :
    t.find path = .ok (.directory dir) ↔
      IsPath path ∧ (FilePath.names path).foldlM t.enter (t.start path) = .ok dir := by
  by_cases h : IsPath path
  · rw [find_eq h, map_arrive_eq_directory_iff]
    simp [h]
  · simp [h, find_of_not_isPath h]

/-- A directory stays where it is when directories are added. -/
theorem find_directory_mono {t t' : FileTree} (h : DirectoriesIn t t') {path : String} {dir : Location}
    (hf : t.find path = .ok (.directory dir)) : t'.find path = .ok (.directory dir) := by
  rw [find_eq_directory_iff] at hf ⊢
  rw [start_congr h.surroundings_eq]
  exact ⟨hf.1, foldlM_enter_mono h hf.2⟩

/-! ## The location that a path names -/

/-- The location that the last name of a path has; there need not be anything. -/
def location? (t : FileTree) (path : String) : Option Location :=
  if IsPath path then
    match t.arrive (t.start path) (FilePath.names path) with
    | .ok (.inr loc) => some loc
    | _ => none
  else none

theorem location?_eq_some_iff_arrive {t : FileTree} {path : String} {loc : Location} :
    t.location? path = some loc ↔
      IsPath path ∧ t.arrive (t.start path) (FilePath.names path) = .ok (.inr loc) := by
  unfold location?
  split
  · rename_i h
    cases t.arrive (t.start path) (FilePath.names path) with
    | error e => simp
    | ok r => cases r <;> simp [h]
  · rename_i h; simp [h]

theorem location?_eq_some_iff {t : FileTree} {path : String} {loc : Location} :
    t.location? path = some loc ↔ IsPath path ∧ ∃ front name dir,
      FilePath.names path = front ++ [name] ∧ (name ≠ "." ∧ name ≠ "..") ∧
      name.utf8ByteSize ≤ longestName ∧ front.foldlM t.enter (t.start path) = .ok dir ∧
      loc = dir ++ [name] := by
  rw [location?_eq_some_iff_arrive, arrive_eq_inr_iff]

theorem location?_mono {t t' : FileTree} (h : DirectoriesIn t t') {path : String} {loc : Location}
    (hl : t.location? path = some loc) : t'.location? path = some loc := by
  rw [location?_eq_some_iff] at hl ⊢
  rw [start_congr h.surroundings_eq]
  obtain ⟨hp, front, name, dir, hn, hdots, hle, hf, rfl⟩ := hl
  exact ⟨hp, front, name, dir, hn, hdots, hle, foldlM_enter_mono h hf, rfl⟩

/-- Files do not matter for what locations paths name. -/
theorem location?_congr {t t' : FileTree} (h : SameDirectories t t') (path : String) :
    t.location? path = t'.location? path :=
  Option.ext fun _ => ⟨location?_mono h.le, location?_mono h.symm.le⟩

theorem ne_nil_of_location? {t : FileTree} {path : String} {loc : Location}
    (h : t.location? path = some loc) : loc ≠ [] := by
  obtain ⟨-, front, name, dir, -, -, -, -, rfl⟩ := location?_eq_some_iff.1 h
  simp

theorem find_eq_of_location? {t : FileTree} {path : String} {loc : Location}
    (h : t.location? path = some loc) : t.find path = .ok (t.targetAt loc) := by
  obtain ⟨hp, ha⟩ := location?_eq_some_iff_arrive.1 h
  rw [find_eq hp, ha]
  rfl

/-- What a path leads to is a directory, or it stands at the location of the path. -/
theorem find_eq_ok_cases {t : FileTree} {path : String} {target : Target}
    (h : t.find path = .ok target) :
    (∃ dir, target = .directory dir) ∨
      ∃ loc, t.location? path = some loc ∧ target = t.targetAt loc := by
  have hp : IsPath path := by
    by_contra hn
    exact find_of_not_isPath hn target h
  rw [find_eq hp] at h
  cases ha : t.arrive (t.start path) (FilePath.names path) with
  | error e => simp [ha, Except.map] at h
  | ok r =>
    simp only [ha, Except.map, Except.ok.injEq] at h
    subst h
    cases r with
    | inl dir => exact .inl ⟨dir, rfl⟩
    | inr loc => exact .inr ⟨loc, location?_eq_some_iff_arrive.2 ⟨hp, ha⟩, rfl⟩

/-- A path goes on from where it starts when a name is put after it. -/
theorem start_join {base name : String} (h : isAbsolute name = false) (t : FileTree) :
    t.start (join base name) = t.start base := by
  by_cases hb : base = ""
  · subst hb
    have habs : isAbsolute "" = false := rfl
    simp [join, start, h, habs]
  · obtain ⟨rest, hjoin⟩ := exists_join_eq_append h hb
    rw [hjoin, start, isAbsolute_append hb, start]

/-- A name that is put after a path has its location in the directory to which the names of the path lead. -/
theorem exists_directory_of_location?_join {t : FileTree} {base name : String} (hn : IsName name)
    {loc : Location} (h : t.location? (join base name) = some loc) :
    ∃ dir, (FilePath.names base).foldlM t.enter (t.start base) = .ok dir ∧ loc = dir ++ [name] := by
  have habs := isAbsolute_of_isName hn
  obtain ⟨-, front, last, dir, hnames, -, -, hf, rfl⟩ := location?_eq_some_iff.1 h
  rw [names_join habs, names_eq_singleton hn] at hnames
  obtain ⟨rfl, hlast⟩ := List.append_inj' hnames rfl
  cases hlast
  rw [start_join habs] at hf
  exact ⟨dir, hf, rfl⟩

/-- A path whose last name is put after a directory has its location in that directory. -/
theorem location?_join {t : FileTree} {base name : String} (hn : IsName name) (hb : base ≠ "")
    {loc : Location} (h : t.location? (join base name) = some loc) :
    ∃ dir, t.find base = .ok (.directory dir) ∧ loc = dir ++ [name] := by
  obtain ⟨dir, hf, rfl⟩ := exists_directory_of_location?_join hn h
  obtain ⟨rest, hjoin⟩ := exists_join_eq_append (isAbsolute_of_isName hn) hb
  obtain ⟨hp, -⟩ := location?_eq_some_iff.1 h
  rw [hjoin] at hp
  exact ⟨dir, find_eq_directory_iff.2 ⟨isPath_of_append hp hb, hf⟩, rfl⟩

/-- The location of a path ends with the file name of the path. -/
theorem location?_join_getLast? {t : FileTree} {base name : String} (hn : IsName name)
    {loc : Location} (h : t.location? (join base name) = some loc) : loc.getLast? = some name := by
  obtain ⟨dir, -, rfl⟩ := exists_directory_of_location?_join hn h
  simp

/-- The location of a name in a directory that is itself put after a path. -/
theorem exists_directory_of_location?_join_join {t : FileTree} {base directory name : String}
    (hd : IsName directory) (hn : IsName name) {loc : Location}
    (h : t.location? (join (join base directory) name) = some loc) :
    ∃ dir, (FilePath.names base).foldlM t.enter (t.start base) = .ok dir ∧
      loc = dir ++ [directory, name] := by
  have habs := isAbsolute_of_isName hd
  obtain ⟨inner, hf, rfl⟩ := exists_directory_of_location?_join hn h
  rw [names_join habs, names_eq_singleton hd, start_join habs, List.foldlM_append] at hf
  obtain ⟨outer, houter, henter⟩ := bind_eq_ok_iff.1 hf
  simp only [List.foldlM_cons, List.foldlM_nil, bind_pure] at henter
  obtain ⟨hdot, -⟩ | ⟨hdots, -⟩ | ⟨-, hslot, -⟩ := enter_eq_ok_iff.1 henter
  · exact absurd hdot hd.ne_dot
  · exact absurd hdots hd.ne_dots
  · obtain ⟨-, rfl⟩ := slotIn_eq_ok_iff.1 hslot
    exact ⟨outer, houter, by simp⟩

/-- The last name of a path that has a location is the name of a file. -/
theorem isName_of_location? {t : FileTree} {path name : String} {dir : Location}
    (h : t.location? path = some (dir ++ [name])) : IsName name := by
  obtain ⟨-, front, last, dir', hnames, hdots, -, -, hl⟩ := location?_eq_some_iff.1 h
  obtain ⟨-, hlast⟩ := List.append_inj' hl rfl
  cases hlast
  have hmem : name ∈ FilePath.names path := by simp [hnames]
  exact isName_of_mem_names hmem hdots.1 hdots.2

/-! ## Requests -/

/-- A file is read where its path leads. -/
theorem read_eq_ok_iff {t : FileTree} {path : String} {c : FileContent} :
    t.read path = .ok c ↔ endsInSlash path = false ∧
      ∃ loc, t.location? path = some loc ∧ t.get? loc = some (.file c) := by
  unfold read
  rw [bind_eq_ok_iff]
  constructor
  · rintro ⟨target, hf, h⟩
    obtain ⟨dir, rfl⟩ | ⟨loc, hl, rfl⟩ := find_eq_ok_cases hf
    · cases h
    cases hg : t.get? loc with
    | none => simp only [targetAt, hg] at h; cases h
    | some e =>
      cases e with
      | directory => simp only [targetAt, hg] at h; cases h
      | file content =>
        simp only [targetAt, hg] at h
        split at h
        · cases h
        · rename_i hs
          cases h
          exact ⟨by simpa using hs, loc, hl, hg⟩
  · rintro ⟨hs, loc, hl, hg⟩
    refine ⟨_, find_eq_of_location? hl, ?_⟩
    simp [targetAt, hg, hs]
    rfl

/-- A path that ends after a base is empty or names a directory. -/
theorem endsInSlash_join_empty {base : String} (h : join base "" ≠ "") :
    endsInSlash (join base "") = true := by
  have habs : isAbsolute "" = false := rfl
  unfold join endsInSlash at *
  by_cases hb : base = ""
  · simp [hb] at h
  · simp only [habs, hb, Bool.false_or, decide_false, Bool.false_eq_true, if_false]
    split
    · rename_i hs; simpa using hs
    · simp

theorem endsInSlash_join {base path : String} (h : endsInSlash path = true) :
    endsInSlash (join base path) = true := by
  have hlast : path.toList.getLast? = some '/' := by simpa [endsInSlash] using h
  have hne : path.toList ≠ [] := fun he => by simp [he] at hlast
  have happend : ∀ front : String, endsInSlash (front ++ path) = true := fun front => by
    rw [endsInSlash, String.toList_append, List.getLast?_append_of_ne_nil _ hne, hlast]
    rfl
  unfold join
  split
  · exact h
  · split
    · exact happend base
    · exact happend (base ++ "/")

/-- What can be read as a file has a name at the end of its path, wherever the path is seen from. -/
theorem exists_getLast?_names_of_read {t : FileTree} {base path : String} {c : FileContent}
    (h : t.read (join base path) = .ok c) :
    ∃ name, IsName name ∧ (FilePath.names path).getLast? = some name := by
  obtain ⟨hs, loc, hl, -⟩ := read_eq_ok_iff.1 h
  obtain ⟨hp, front, name, dir, hnames, ⟨hd, hdd⟩, -⟩ := location?_eq_some_iff.1 hl
  have hlast : (FilePath.names path).getLast? = some name := by
    by_cases habs : isAbsolute path = true
    · rw [show join base path = path by simp [join, habs]] at hnames
      rw [hnames, List.getLast?_concat]
    · have habs : isAbsolute path = false := by simpa using habs
      have hpath : path ≠ "" := fun he => by
        rw [he] at hp hs
        rw [endsInSlash_join_empty hp.ne_empty] at hs
        cases hs
      rw [names_join habs] at hnames
      rw [← List.getLast?_append_of_ne_nil _ (names_ne_nil hpath habs), hnames, List.getLast?_concat]
  exact ⟨name, isName_of_mem_names (List.mem_of_getLast? hlast) hd hdd, hlast⟩

/-- What can be read as a file has a file name, wherever its path is seen from. -/
theorem exists_fileName?_of_read {t : FileTree} {base path : String} {c : FileContent}
    (h : t.read (join base path) = .ok c) : ∃ name, IsName name ∧ fileName? path = some name := by
  obtain ⟨name, hname, hlast⟩ := exists_getLast?_names_of_read h
  exact ⟨name, hname, fileName?_eq_some hlast hname.ne_dot hname.ne_dots⟩

/-- A path leads to a file if the file can be read. -/
theorem isFile_iff {t : FileTree} {path : String} :
    t.isFile path = true ↔ ∃ c, t.read path = .ok c := by
  simp only [read_eq_ok_iff]
  unfold isFile
  constructor
  · intro h
    split at h
    · rename_i loc c hf
      obtain ⟨place, hc⟩ | ⟨loc', hl, hc⟩ := find_eq_ok_cases hf
      · cases hc
      unfold targetAt at hc
      split at hc
      · cases hc
      · rename_i c' hg
        exact ⟨c', by simpa using h, loc', hl, hg⟩
      · cases hc
    · cases h
  · rintro ⟨c, hs, loc, hl, hg⟩
    simp [find_eq_of_location? hl, targetAt, hg, hs]

/-- A file is read alike in trees with the same directories that hold the same at its location. -/
theorem read_congr {t t' : FileTree} (h : SameDirectories t t') {path : String}
    (hget : ∀ loc, t.location? path = some loc → t'.get? loc = t.get? loc) (c : FileContent) :
    t'.read path = .ok c ↔ t.read path = .ok c := by
  simp only [read_eq_ok_iff, ← location?_congr h]
  refine and_congr_right fun _ => exists_congr fun loc => and_congr_right fun hl => ?_
  rw [hget loc hl]

theorem readText_eq_ok_iff {t : FileTree} {path text : String} :
    t.readText path = .ok text ↔ t.read path = .ok (.text text) := by
  unfold readText
  rw [bind_eq_ok_iff]
  constructor
  · rintro ⟨c, hc, h⟩
    cases c <;> cases h
    exact hc
  · intro h
    exact ⟨_, h, rfl⟩

/-- A write puts a file at the location of its path. -/
theorem write_eq_ok_iff {t t' : FileTree} {path : String} {c : FileContent} :
    t.write path c = .ok t' ↔ endsInSlash path = false ∧
      ∃ loc, t.location? path = some loc ∧ t.get? loc ≠ some .directory ∧ t' = t.put loc (.file c) := by
  unfold write
  rw [bind_eq_ok_iff]
  constructor
  · rintro ⟨target, hf, h⟩
    obtain ⟨dir, rfl⟩ | ⟨loc, hl, rfl⟩ := find_eq_ok_cases hf
    · cases h
    have hfile : endsInSlash path = false ∧ t.get? loc ≠ some .directory ∧
        t' = t.put loc (.file c) := by
      cases hg : t.get? loc with
      | none =>
        simp only [targetAt, hg] at h
        split at h
        · cases h
        · rename_i hs; cases h; simpa using hs
      | some e =>
        cases e with
        | directory => simp only [targetAt, hg] at h; cases h
        | file content =>
          simp only [targetAt, hg] at h
          split at h
          · cases h
          · rename_i hs; cases h; simpa using hs
    exact ⟨hfile.1, loc, hl, hfile.2⟩
  · rintro ⟨hs, loc, hl, hg, rfl⟩
    refine ⟨_, find_eq_of_location? hl, ?_⟩
    cases hc : t.get? loc with
    | none => simp [targetAt, hc, hs, pure, Except.pure]
    | some e =>
      cases e with
      | directory => exact absurd hc hg
      | file content => simp [targetAt, hc, hs, pure, Except.pure]

/-- A new directory is put where nothing stands. -/
theorem makeDirectory_eq_ok_iff {t t' : FileTree} {path : String} :
    t.makeDirectory path = .ok t' ↔
      ∃ loc, t.location? path = some loc ∧ t.get? loc = none ∧ t' = t.put loc .directory := by
  unfold makeDirectory
  rw [bind_eq_ok_iff]
  constructor
  · rintro ⟨target, hf, h⟩
    obtain ⟨dir, rfl⟩ | ⟨loc, hl, rfl⟩ := find_eq_ok_cases hf
    · cases h
    cases hg : t.get? loc with
    | none =>
      simp only [targetAt, hg] at h
      cases h
      exact ⟨loc, hl, hg, rfl⟩
    | some e => cases e <;> simp only [targetAt, hg] at h <;> cases h
  · rintro ⟨loc, hl, hg, rfl⟩
    exact ⟨_, find_eq_of_location? hl, by simp [targetAt, hg, pure, Except.pure]⟩

theorem isDirectory_iff {t : FileTree} {path : String} :
    t.isDirectory path = true ↔ ∃ dir, t.find path = .ok (.directory dir) := by
  unfold isDirectory
  split
  · rename_i dir h; simp [h]
  · rename_i h
    simpa using fun dir => h dir

theorem isDirectory_congr {t t' : FileTree} (h : SameDirectories t t') (path : String) :
    t.isDirectory path = t'.isDirectory path := by
  rw [Bool.eq_iff_iff, isDirectory_iff, isDirectory_iff]
  exact ⟨fun ⟨p, hp⟩ => ⟨p, find_directory_mono h.le hp⟩,
    fun ⟨p, hp⟩ => ⟨p, find_directory_mono h.symm.le hp⟩⟩

/-! ## Files of a directory -/

/-- The location of a name in the directory that a path leads to. A name that is no text has none. -/
def locationIn? (t : FileTree) (directory : String) (name : FileName) : Option Location :=
  (name.pathIn? directory).bind t.location?

theorem locationIn?_congr {t t' : FileTree} (h : SameDirectories t t') (directory : String)
    (name : FileName) : t.locationIn? directory name = t'.locationIn? directory name := by
  cases name with
  | text name => exact location?_congr h _
  | raw name => rfl

theorem exists_text_of_locationIn? {t : FileTree} {directory : String} {name : FileName} {loc : Location}
    (h : t.locationIn? directory name = some loc) :
    ∃ s, name = .text s ∧ t.location? (join directory s) = some loc := by
  cases name with
  | text s => exact ⟨s, rfl, h⟩
  | raw name => cases h

theorem readRaw_eq_ok_iff {t : FileTree} {directory : String} {name : RawName} {c : FileContent} :
    t.readRaw directory name = .ok c ↔
      ((join directory "").utf8ByteSize + name.bytes.length ≤ longestPath ∧
        name.bytes.length ≤ longestName) ∧
      ∃ loc, t.find directory = .ok (.directory loc) ∧
        t.unspelled.lookup (loc, name) = some (.file c) := by
  unfold readRaw
  split
  · rename_i hlong
    simp only [Bool.or_eq_true, decide_eq_true_eq] at hlong
    simp only [reduceCtorEq, false_iff]
    omega
  rename_i hlong
  simp only [Bool.or_eq_true, decide_eq_true_eq, not_or, Nat.not_lt] at hlong
  rw [and_iff_right hlong, bind_eq_ok_iff]
  constructor
  · rintro ⟨target, hf, h⟩
    cases target with
    | file loc content => cases h
    | nothing loc => cases h
    | directory loc =>
      refine ⟨loc, hf, ?_⟩
      cases hg : t.unspelled.lookup (loc, name) with
      | none => simp only [hg] at h; cases h
      | some e =>
        cases e with
        | directory => simp only [hg] at h; cases h
        | file content =>
          simp only [hg] at h
          cases h
          rfl
  · rintro ⟨loc, hf, hg⟩
    refine ⟨_, hf, ?_⟩
    simp only [hg]
    rfl

/-- A file of a directory is read alike in trees with the same directories that hold the same at its
location. -/
theorem readIn_congr {t t' : FileTree} (h : SameDirectories t t') {directory : String} {name : FileName}
    (hget : ∀ loc, t.locationIn? directory name = some loc → t'.get? loc = t.get? loc)
    (c : FileContent) : t'.readIn directory name = .ok c ↔ t.readIn directory name = .ok c := by
  cases name with
  | text name => exact read_congr h hget c
  | raw name =>
    show t'.readRaw directory name = .ok c ↔ t.readRaw directory name = .ok c
    rw [readRaw_eq_ok_iff, readRaw_eq_ok_iff, h.surroundings_eq]
    refine and_congr_right fun _ => exists_congr fun loc => and_congr_left fun _ => ?_
    exact ⟨find_directory_mono h.symm.le, find_directory_mono h.le⟩

theorem isFileIn_iff {t : FileTree} {directory : String} {name : FileName} :
    t.isFileIn directory name = true ↔ ∃ c, t.readIn directory name = .ok c := by
  cases name with
  | text name => exact isFile_iff
  | raw name =>
    show (t.readRaw directory name).isOk = true ↔ ∃ c, t.readRaw directory name = .ok c
    cases t.readRaw directory name <;> simp [Except.isOk, Except.toBool]

end BookCatalog.FileTree
