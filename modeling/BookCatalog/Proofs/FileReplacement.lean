import BookCatalog.Proofs.FileNames

/-!
# Trees that differ in one file

Two trees may hold the same but for one file, of which each has its own version (`DifferAt`). A request
that does not reach this file has the same outcome in both and leaves trees that differ in the same file:
directories are made in both (`differAt_makeDirectories`), the same file is read (`read_iff`) or written
(`exists_writeAll`), and the same files are listed (`filesIn_eq`).
-/

namespace BookCatalog.FileTree

open BookCatalog.FilePath

/-- One tree has a file with `c` at `spot` where the other one has a file with `c'`, and they are the same
otherwise. -/
structure DifferAt (spot : Location) (c c' : FileContent) (t t' : FileTree) : Prop where
  surroundings_eq : t'.toSurroundings = t.toSurroundings
  here : t.get? spot = some (.file c)
  there : t'.get? spot = some (.file c')
  get?_eq : ∀ loc, loc ≠ spot → t'.get? loc = t.get? loc
  listed : ((t'.entries.map (·.1)).filter (· ≠ spot)).Perm ((t.entries.map (·.1)).filter (· ≠ spot))

theorem ne_nil_of_file {t : FileTree} {loc : Location} {c : FileContent}
    (h : t.get? loc = some (.file c)) : loc ≠ [] := by
  rintro rfl
  cases h

/-- A tree and the tree in which a file has been replaced. -/
theorem differAt_put {t : FileTree} {spot : Location} {c : FileContent}
    (h : t.get? spot = some (.file c)) (c' : FileContent) :
    DifferAt spot c c' t (t.put spot (.file c')) where
  surroundings_eq := rfl
  here := h
  there := by rw [get?_put (ne_nil_of_file h), if_pos rfl]
  get?_eq loc hloc := by rw [get?_put (ne_nil_of_file h), if_neg hloc]
  listed := by
    rw [map_fst_put, List.filter_cons_of_neg (by simp), List.filter_filter]
    simp

/-! ## Requests for a directory -/

/-- The tree with a new directory at a path, unless there is one. -/
def attempt (t : FileTree) (path : String) : Except FileError Unit × FileTree :=
  match t.makeDirectory path with
  | .ok t' => (.ok (), t')
  | .error e => (if t.isDirectory path then .ok () else .error e, t)

section
variable {t : FileTree} {path : String}

theorem makeDirectoriesFrom_empty (t : FileTree) (depth : Nat) :
    t.makeDirectoriesFrom depth "" = (.ok (), t) := by
  unfold makeDirectoriesFrom
  rfl

/-- Nothing that leads to the directory is missing. -/
theorem makeDirectoriesFrom_of_ne (hne : path ≠ "") (h : t.makeDirectory path ≠ .error .notFound)
    (depth : Nat) : t.makeDirectoriesFrom depth path = t.attempt path := by
  unfold makeDirectoriesFrom attempt
  cases hm : t.makeDirectory path with
  | ok m => simp [hne]
  | error e =>
    have he : e ≠ .notFound := fun he => h (he ▸ hm)
    simp [hne, he]

theorem makeDirectoriesFrom_zero (hne : path ≠ "") (h : t.makeDirectory path = .error .notFound) :
    t.makeDirectoriesFrom 0 path = (.error .notFound, t) := by
  unfold makeDirectoriesFrom
  simp [hne, h]

/-- The directory around the one that is asked for comes first. -/
theorem makeDirectoriesFrom_succ (hne : path ≠ "") (h : t.makeDirectory path = .error .notFound)
    (depth : Nat) : t.makeDirectoriesFrom (depth + 1) path =
      match (t.makeDirectoriesFrom depth (parent path)).1 with
      | .ok () => (t.makeDirectoriesFrom depth (parent path)).2.attempt path
      | .error e => (.error e, (t.makeDirectoriesFrom depth (parent path)).2) := by
  rw [makeDirectoriesFrom]
  simp only [hne, h, if_false, ne_eq, not_true_eq_false]
  cases t.makeDirectoriesFrom depth (parent path) with
  | mk result m => cases result <;> rfl

end

namespace DifferAt

variable {spot : Location} {c c' : FileContent} {t t' : FileTree}

theorem symm (h : DifferAt spot c c' t t') : DifferAt spot c' c t' t :=
  ⟨h.surroundings_eq.symm, h.there, h.here, fun loc hloc => (h.get?_eq loc hloc).symm, h.listed.symm⟩

/-- The same entry put into both trees. -/
theorem put (h : DifferAt spot c c' t t') {loc : Location} (hne : loc ≠ []) (hloc : loc ≠ spot) (e : Entry) :
    DifferAt spot c c' (t.put loc e) (t'.put loc e) where
  surroundings_eq := h.surroundings_eq
  here := by rw [get?_put hne, if_neg hloc.symm, h.here]
  there := by rw [get?_put hne, if_neg hloc.symm, h.there]
  get?_eq loc' hloc' := by rw [get?_put hne, get?_put hne, h.get?_eq loc' hloc']
  listed := by
    have hrest := h.listed.filter (· ≠ loc)
    rw [List.filter_filter, List.filter_filter] at hrest
    simpa [map_fst_put, List.filter_filter, hloc, Bool.and_comm] using hrest

theorem sameDirectories (h : DifferAt spot c c' t t') : SameDirectories t t' :=
  ⟨h.surroundings_eq, fun loc => by
    by_cases hloc : loc = spot
    · simp [hloc, h.here, h.there]
    · rw [h.get?_eq loc hloc]⟩

/-! ## Paths -/

theorem enter_eq (h : DifferAt spot c c' t t') : t'.enter = t.enter := by
  funext p name
  unfold enter
  rw [lookUp_eq, lookUp_eq]
  cases slotIn p name with
  | error e => rfl
  | ok loc =>
    by_cases hloc : loc = spot
    · simp [Except.map, hloc, h.here, h.there]
    · simp only [Except.map, h.get?_eq loc hloc]

theorem arrive_eq (h : DifferAt spot c c' t t') (p : Location) (names : List String) :
    t'.arrive p names = t.arrive p names := by
  simp only [arrive, h.enter_eq]

theorem location?_eq (h : DifferAt spot c c' t t') (path : String) : t'.location? path = t.location? path :=
  (location?_congr h.sameDirectories path).symm

/-- A path leads to one place in both trees. -/
theorem find_cases (h : DifferAt spot c c' t t') (path : String) :
    (∃ e, t.find path = .error e ∧ t'.find path = .error e) ∨
      ∃ r, t.find path = .ok (t.targetOf r) ∧ t'.find path = .ok (t'.targetOf r) := by
  by_cases hp : IsPath path
  · rw [find_eq hp, find_eq hp, h.arrive_eq, start_congr h.surroundings_eq]
    cases t.arrive (t.start path) (FilePath.names path) with
    | error e => exact .inl ⟨e, rfl, rfl⟩
    | ok r => exact .inr ⟨r, rfl, rfl⟩
  · obtain ⟨e, he⟩ := exists_find_eq_error hp
    exact .inl ⟨e, he t, he t'⟩

/-! ## Directories -/

theorem isDirectory_eq (h : DifferAt spot c c' t t') (path : String) :
    t'.isDirectory path = t.isDirectory path := (isDirectory_congr h.sameDirectories path).symm

/-- A directory is made in both trees, or there is one reason why it is not. -/
theorem makeDirectory_cases (h : DifferAt spot c c' t t') (path : String) :
    (∃ e, t.makeDirectory path = .error e ∧ t'.makeDirectory path = .error e) ∨
      ∃ m m', t.makeDirectory path = .ok m ∧ t'.makeDirectory path = .ok m' ∧
        DifferAt spot c c' m m' := by
  unfold makeDirectory
  obtain ⟨e, hf, hf'⟩ | ⟨r, hf, hf'⟩ := h.find_cases path
  · exact .inl ⟨e, by rw [hf]; rfl, by rw [hf']; rfl⟩
  rw [hf, hf']
  cases r with
  | inl dir => exact .inl ⟨.alreadyExists, rfl, rfl⟩
  | inr loc =>
    by_cases hloc : loc = spot
    · exact .inl ⟨.alreadyExists, by simp [targetOf, targetAt, hloc, h.here]; rfl,
        by simp [targetOf, targetAt, hloc, h.there]; rfl⟩
    · cases hg : t.get? loc with
      | none =>
        have hg' : t'.get? loc = none := by rw [h.get?_eq loc hloc, hg]
        have hne : loc ≠ [] := by
          rintro rfl
          cases hg
        refine .inr ⟨t.put loc .directory, t'.put loc .directory, ?_, ?_, h.put hne hloc .directory⟩
        · simp [targetOf, targetAt, hg]; rfl
        · simp [targetOf, targetAt, hg']; rfl
      | some e =>
        have hg' : t'.get? loc = some e := by rw [h.get?_eq loc hloc, hg]
        refine .inl ⟨.alreadyExists, ?_, ?_⟩ <;> cases e <;> simp [targetOf, targetAt, hg, hg'] <;> rfl

/-- Two requests have one result, and the trees after them differ in the file. -/
def OneOutcome (spot : Location) (c c' : FileContent) (r r' : Except FileError Unit × FileTree) : Prop :=
  r'.1 = r.1 ∧ DifferAt spot c c' r.2 r'.2

theorem oneOutcome_attempt (h : DifferAt spot c c' t t') (path : String) :
    OneOutcome spot c c' (t.attempt path) (t'.attempt path) := by
  unfold attempt
  obtain ⟨e, he, he'⟩ | ⟨m, m', hm, hm', hmade⟩ := h.makeDirectory_cases path
  · rw [he, he']
    exact ⟨by simp only [h.isDirectory_eq], h⟩
  · rw [hm, hm']
    exact ⟨rfl, hmade⟩

theorem oneOutcome_makeDirectoriesFrom : ∀ (depth : Nat) (path : String) {t t' : FileTree},
    DifferAt spot c c' t t' →
      OneOutcome spot c c' (t.makeDirectoriesFrom depth path) (t'.makeDirectoriesFrom depth path)
  | depth, path, t, t', h => by
    by_cases hempty : path = ""
    · rw [hempty, makeDirectoriesFrom_empty, makeDirectoriesFrom_empty]
      exact ⟨rfl, h⟩
    by_cases hmissing : t.makeDirectory path = .error .notFound
    swap
    · have hmissing' : t'.makeDirectory path ≠ .error .notFound := by
        obtain ⟨e, he, he'⟩ | ⟨m, m', hm, hm', -⟩ := h.makeDirectory_cases path
        · rw [he'] 
          rwa [he] at hmissing
        · simp [hm']
      rw [makeDirectoriesFrom_of_ne hempty hmissing, makeDirectoriesFrom_of_ne hempty hmissing']
      exact oneOutcome_attempt h path
    have hmissing' : t'.makeDirectory path = .error .notFound := by
      obtain ⟨e, he, he'⟩ | ⟨m, m', hm, -⟩ := h.makeDirectory_cases path
      · rw [he', ← he, hmissing]
      · rw [hm] at hmissing
        cases hmissing
    cases depth with
    | zero =>
      rw [makeDirectoriesFrom_zero hempty hmissing, makeDirectoriesFrom_zero hempty hmissing']
      exact ⟨rfl, h⟩
    | succ depth =>
      obtain ⟨hresult, hway⟩ := oneOutcome_makeDirectoriesFrom depth (FilePath.parent path) h
      rw [makeDirectoriesFrom_succ hempty hmissing, makeDirectoriesFrom_succ hempty hmissing', hresult]
      cases (t.makeDirectoriesFrom depth (FilePath.parent path)).1 with
      | error e => exact ⟨rfl, hway⟩
      | ok _ => exact oneOutcome_attempt hway path

/-- A request for a directory has one result and leaves trees that differ in the same file. -/
theorem differAt_makeDirectories (h : DifferAt spot c c' t t') (path : String) :
    (t'.makeDirectories path).1 = (t.makeDirectories path).1 ∧
      DifferAt spot c c' (t.makeDirectories path).2 (t'.makeDirectories path).2 :=
  oneOutcome_makeDirectoriesFrom _ path h

theorem exists_makeDirectories (h : DifferAt spot c c' t t') {path : String} {m : FileTree}
    (hm : t.makeDirectories path = (.ok (), m)) :
    ∃ m', t'.makeDirectories path = (.ok (), m') ∧ DifferAt spot c c' m m' := by
  obtain ⟨hresult, hmade⟩ := h.differAt_makeDirectories path
  rw [hm] at hresult hmade
  exact ⟨(t'.makeDirectories path).2, Prod.ext hresult rfl, hmade⟩

/-! ## Files -/

theorem isFileIn_eq (h : DifferAt spot c c' t t') (dir : String) (name : FileName) :
    t'.isFileIn dir name = t.isFileIn dir name := by
  have hfile {u u' : FileTree} {d d' : FileContent} (h : DifferAt spot d d' u u')
      (hf : u.isFileIn dir name = true) : u'.isFileIn dir name = true := by
    obtain ⟨e, hr⟩ := isFileIn_iff.1 hf
    by_cases hspot : u.locationIn? dir name = some spot
    · cases name with
      | raw name => cases hspot
      | text name =>
        obtain ⟨hs, -⟩ := read_eq_ok_iff.1 hr
        refine isFileIn_iff.2 ⟨d', read_eq_ok_iff.2 ⟨hs, spot, ?_, h.there⟩⟩
        rw [← location?_congr h.sameDirectories]
        exact hspot
    · refine isFileIn_iff.2 ⟨e, (readIn_congr h.sameDirectories (fun loc hl => ?_) e).2 hr⟩
      exact h.get?_eq loc fun he => hspot (he ▸ hl)
  rw [Bool.eq_iff_iff]
  exact ⟨hfile h.symm, hfile h⟩

/-- What is not the file in which the trees differ is read alike. -/
theorem read_iff (h : DifferAt spot c c' t t') {path : String} (hpath : t.location? path ≠ some spot)
    (d : FileContent) : t'.read path = .ok d ↔ t.read path = .ok d :=
  read_congr h.sameDirectories (fun loc hl => h.get?_eq loc fun he => hpath (he ▸ hl)) d

theorem readText_iff (h : DifferAt spot c c' t t') {path : String} (hpath : t.location? path ≠ some spot)
    (text : String) : t'.readText path = .ok text ↔ t.readText path = .ok text := by
  rw [readText_eq_ok_iff, readText_eq_ok_iff, h.read_iff hpath]

/-- The file in which the trees differ is read as each of them has it. -/
theorem readText_of_location? {text text' read : String}
    (h : DifferAt spot (.text text) (.text text') t t') {path : String}
    (hpath : t.location? path = some spot) (hr : t.readText path = .ok read) :
    read = text ∧ t'.readText path = .ok text' := by
  rw [readText_eq_ok_iff, read_eq_ok_iff] at hr ⊢
  obtain ⟨hs, loc, hl, hread⟩ := hr
  rw [hpath] at hl
  cases hl
  rw [h.here] at hread
  cases hread
  exact ⟨rfl, hs, spot, (h.location?_eq path).trans hpath, h.there⟩

theorem exists_write (h : DifferAt spot c c' t t') {path : String} (hpath : t.location? path ≠ some spot)
    {d : FileContent} {m : FileTree} (hw : t.write path d = .ok m) :
    ∃ m', t'.write path d = .ok m' ∧ DifferAt spot c c' m m' := by
  obtain ⟨hs, loc, hl, hd, rfl⟩ := write_eq_ok_iff.1 hw
  have hloc : loc ≠ spot := fun he => hpath (he ▸ hl)
  refine ⟨t'.put loc (.file d), write_eq_ok_iff.2 ⟨hs, loc, (h.location?_eq path).trans hl, ?_, rfl⟩,
    h.put (ne_nil_of_location? hl) hloc _⟩
  rwa [h.get?_eq loc hloc]

theorem exists_copy (h : DifferAt spot c c' t t') {dir destination : String} {name : FileName}
    (hsource : t.locationIn? dir name ≠ some spot) (hdestination : t.location? destination ≠ some spot)
    {m : FileTree} (hcopy : t.copy dir name destination = (.ok (), m)) :
    ∃ m', t'.copy dir name destination = (.ok (), m') ∧ DifferAt spot c c' m m' := by
  obtain ⟨d, hr, hw⟩ := copy_eq_ok_iff.1 hcopy
  obtain ⟨m', hw', hm⟩ := h.exists_write hdestination hw
  have hr' : t'.readIn dir name = .ok d := (readIn_congr h.sameDirectories (fun loc hl =>
    h.get?_eq loc fun he => hsource (he ▸ hl)) d).2 hr
  refine ⟨m', copy_eq_ok_iff.2 ⟨d, hr', ?_⟩, hm⟩
  rwa [copied, h.location?_eq, ← locationIn?_congr h.sameDirectories]

/-- The same files are written to both trees. -/
theorem exists_writeAll : ∀ {ws : List (String × FileContent)} {t t' m : FileTree},
    DifferAt spot c c' t t' → (∀ w ∈ ws, t.location? w.1 ≠ some spot) → t.writeAll ws = .ok m →
      ∃ m', t'.writeAll ws = .ok m' ∧ DifferAt spot c c' m m'
  | [], t, t', m, h, _, hws => by
    cases hws
    exact ⟨t', rfl, h⟩
  | w :: ws, t, t', m, h, hpaths, hws => by
    obtain ⟨hfirst, hrest⟩ := List.forall_mem_cons.1 hpaths
    obtain ⟨n, hw, hws⟩ := writeAll_cons_eq_ok_iff.1 hws
    obtain ⟨n', hw', hn⟩ := h.exists_write hfirst hw
    have hloc := location?_congr (sameDirectories_of_write hw)
    obtain ⟨m', hws', hm⟩ := exists_writeAll hn (fun w' hw' => hloc w'.1 ▸ hrest w' hw') hws
    exact ⟨m', writeAll_cons_eq_ok_iff.2 ⟨n', hw', hws'⟩, hm⟩

/-! ## Files of a directory -/

/-- A directory that does not list the file in which the trees differ lists the same files in both. -/
theorem filesIn_eq (h : DifferAt spot c c' t t') {path dir : String}
    (hspot : t.location? path = some spot)
    (hdir : ∀ name ∈ t.filesIn dir, t.locationIn? dir name ≠ some spot) :
    t'.filesIn dir = t.filesIn dir := by
  by_cases hd : t.isDirectory dir = true
  swap
  · have hd : t.isDirectory dir = false := by simpa using hd
    rw [filesIn_of_not_isDirectory hd, filesIn_of_not_isDirectory (h.isDirectory_eq dir ▸ hd)]
  obtain ⟨loc, hp⟩ := isDirectory_iff.1 hd
  rw [filesIn_of_find hp] at hdir ⊢
  rw [filesIn_of_find (find_directory_mono h.sameDirectories.le hp)]
  simp only [List.mem_filter, List.mem_mergeSort, and_imp] at hdir
  simp only [h.isFileIn_eq]
  -- were the file in the directory, it would be listed
  have hother : ∀ name, spot = loc ++ [name] → t.isFileIn dir (.text name) = false := by
    rintro name rfl
    by_contra hf
    have hf : t.isFileIn dir (.text name) = true := by simpa using hf
    have hl := location?_join_of_isFile hp (isName_of_location? hspot) hf
    exact hdir _ (mem_namesAt_of_get? h.here) hf hl
  refine filter_mergeSort_of_perm ?_
  rw [filter_namesAt_eq hother, filter_namesAt_eq hother, h.surroundings_eq]
  exact (h.listed.filterMap _).append_right _

end DifferAt

end BookCatalog.FileTree
