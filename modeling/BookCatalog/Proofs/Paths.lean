import BookCatalog.FilePath
import BookCatalog.Proofs.Runs

/-!
# The names in a path

A path is read as the names between its slashes. Joining two paths puts their names one after the other
(`names_join`), and a path that is joined to a single name ends with that name. The file name of a path
is its last name, unless that is `.` or `..`.
-/

namespace BookCatalog

open BookCatalog.FilePath in
/-- The path of a name in a directory. There is none if the name is no text. -/
def FileName.pathIn? (directory : String) : FileName → Option String
  | text name => some (join directory name)
  | raw _ => none

namespace FilePath

open BookCatalog.Text

/-- The names between the slashes of a path, `.` and `..` among them. -/
def names (path : String) : List String := (runs (· == '/') path.toList).map String.ofList

/-- A text that can be the name of a file: it is not empty, no directory of every directory, and has no
slash. -/
structure IsName (name : String) : Prop where
  ne_empty : name ≠ ""
  ne_dot : name ≠ "."
  ne_dots : name ≠ ".."
  no_slash : '/' ∉ name.toList

theorem isName_iff {name : String} :
    IsName name ↔ name ≠ "" ∧ name ≠ "." ∧ name ≠ ".." ∧ '/' ∉ name.toList :=
  ⟨fun ⟨h, hd, hdd, hs⟩ => ⟨h, hd, hdd, hs⟩, fun ⟨h, hd, hdd, hs⟩ => ⟨h, hd, hdd, hs⟩⟩

instance (name : String) : Decidable (IsName name) := decidable_of_iff _ isName_iff.symm

/-! ## Names of joined paths -/

theorem names_append_slash (base path : String) :
    names (base ++ "/" ++ path) = names base ++ names path := by
  simp [names, runs_append_cons]

theorem names_of_no_slash {name : String} (hne : name ≠ "") (hs : '/' ∉ name.toList) :
    names name = [name] := by
  have hchars : name.toList ≠ [] := fun he => hne (String.toList_eq_nil_iff.1 he)
  simp [names, runs_of_no_separator (beq_eq_false_of_not_mem hs) hchars]

theorem names_eq_singleton {name : String} (h : IsName name) : names name = [name] :=
  names_of_no_slash h.ne_empty h.no_slash

theorem names_empty : names "" = [] := by simp [names, runs]

/-- A path that does not begin with a slash begins with a name. -/
theorem names_ne_nil {path : String} (hne : path ≠ "") (habs : isAbsolute path = false) :
    names path ≠ [] := by
  cases hp : path.toList with
  | nil => exact absurd (String.toList_eq_nil_iff.1 hp) hne
  | cons c rest =>
    have hc : (c == '/') = false := by simpa [isAbsolute, hp] using habs
    unfold names runs
    rw [hp, List.splitOnP_cons_eq_if_modifyHead, if_neg (by simpa using hc)]
    cases hs : rest.splitOnP (· == '/') with
    | nil => exact absurd hs (List.splitOnP_ne_nil _ rest)
    | cons first more => simp

theorem isName_of_mem_names {path name : String} (h : name ∈ names path) (hd : name ≠ ".")
    (hdd : name ≠ "..") : IsName name := by
  obtain ⟨run, hr, rfl⟩ := List.mem_map.1 h
  refine ⟨?_, hd, hdd, ?_⟩
  · simpa using ne_nil_of_mem_runs hr
  · intro hs
    rw [String.toList_ofList] at hs
    simpa using no_separator_of_mem_runs hr _ hs

/-- A path whose last character is a slash has the names of what stands before it. -/
theorem exists_eq_append_slash {base : String} (h : base.toList.getLast? = some '/') :
    ∃ b, base = b ++ "/" := by
  obtain ⟨cs, hcs⟩ := List.getLast?_eq_some_iff.1 h
  exact ⟨String.ofList cs, String.toList_inj.1 (by simp [hcs])⟩

theorem names_join {base path : String} (h : isAbsolute path = false) :
    names (join base path) = names base ++ names path := by
  unfold join
  by_cases hb : base = ""
  · subst hb; simp [names_empty]
  · simp only [h, hb, Bool.false_or, decide_false, Bool.false_eq_true, if_false]
    split
    · rename_i hs
      obtain ⟨b, rfl⟩ := exists_eq_append_slash hs
      have hbase : names (b ++ "/") = names b := by
        have := names_append_slash b ""
        simpa [names_empty] using this
      rw [hbase, names_append_slash]
    · exact names_append_slash base path

theorem isAbsolute_of_no_slash {name : String} (h : '/' ∉ name.toList) : isAbsolute name = false := by
  unfold isAbsolute
  cases hn : name.toList with
  | nil => rfl
  | cons c rest =>
    have hc : c ≠ '/' := fun he => h (by simp [hn, he])
    simp [hc]

theorem isAbsolute_of_isName {name : String} (h : IsName name) : isAbsolute name = false :=
  isAbsolute_of_no_slash h.no_slash

theorem isAbsolute_append {base : String} (hb : base ≠ "") (path : String) :
    isAbsolute (base ++ path) = isAbsolute base := by
  unfold isAbsolute
  cases hn : base.toList with
  | nil => exact absurd (String.toList_eq_nil_iff.1 hn) hb
  | cons c rest => simp [hn]

/-- A path that is joined to another is a longer text. -/
theorem exists_join_eq_append {base path : String} (h : isAbsolute path = false) (hb : base ≠ "") :
    ∃ rest, join base path = base ++ rest := by
  unfold join
  simp only [h, hb, Bool.false_or, decide_false, Bool.false_eq_true, if_false]
  split
  · exact ⟨path, rfl⟩
  · exact ⟨"/" ++ path, String.append_assoc ..⟩

theorem join_inj {base path path' : String} (h : isAbsolute path = false)
    (h' : isAbsolute path' = false) (heq : join base path = join base path') : path = path' := by
  unfold join at heq
  by_cases hb : base = ""
  · simpa [hb] using heq
  · simp only [h, h', hb, Bool.false_or, decide_false, Bool.false_eq_true, if_false] at heq
    rw [← String.toList_inj] at heq ⊢
    split at heq <;> simpa using heq

/-! ## File names -/

/-- A text that is empty or ends with a slash: what stands before the file name in a path. -/
def EndsDirectory (dir : List Char) : Prop := dir = [] ∨ dir.getLast? = some '/'

/-- A path is cut after its last slash. -/
theorem exists_directory_file (path : String) :
    ∃ dir file : String, path = dir ++ file ∧ EndsDirectory dir.toList ∧ '/' ∉ file.toList := by
  rcases no_separator_or_last (· == '/') path.toList with h | ⟨front, c, file, hc, hpath, hfile⟩
  · exact ⟨"", path, by simp, .inl rfl, fun hs => by simpa using h _ hs⟩
  · obtain rfl : c = '/' := by simpa using hc
    refine ⟨String.ofList (front ++ ['/']), String.ofList file, ?_, .inr (by simp), fun hs => ?_⟩
    · rw [← String.toList_inj]
      simp [hpath]
    · exact absurd (hfile '/' (by simpa using hs)) (by decide)

/-- What stands after the last slash is the last name of a path. -/
theorem getLast?_names {dir file : String} (hdir : EndsDirectory dir.toList) (hfile : '/' ∉ file.toList)
    (hne : file ≠ "") : (names (dir ++ file)).getLast? = some file := by
  have hrun : runs (· == '/') file.toList = [file.toList] :=
    runs_of_no_separator (beq_eq_false_of_not_mem hfile) fun he => hne (String.toList_eq_nil_iff.1 he)
  rcases hdir with hnil | hslash
  · obtain rfl := String.toList_eq_nil_iff.1 hnil
    simp [names, hrun]
  · obtain ⟨front, rfl⟩ := exists_eq_append_slash hslash
    simp [names, runs_append_cons, hrun]

/-- The last name of a path is its file name, unless it stands for a directory. -/
theorem fileName?_eq_some {path name : String} (h : (names path).getLast? = some name)
    (hd : name ≠ ".") (hdd : name ≠ "..") : fileName? path = some name := by
  obtain ⟨before, hb⟩ := List.getLast?_eq_some_iff.1 h
  have hc : components path = before.filter (· != ".") ++ [name] := by
    show (names path).filter (· != ".") = _
    simp [hb, hd]
  simp [fileName?, hc, hdd]

theorem stem?_of_isName {name : String} (h : IsName name) : stem? name = some (splitName name).1 := by
  have hlast : (names name).getLast? = some name := by simp [names_eq_singleton h]
  simp [stem?, fileName?_eq_some hlast h.ne_dot h.ne_dots]

theorem mem_names_of_fileName? {path name : String} (h : fileName? path = some name) :
    name ∈ names path ∧ name ≠ "." ∧ name ≠ ".." := by
  unfold fileName? at h
  split at h
  · rename_i last hlast
    split at h
    · cases h
    · rename_i hdots
      cases h
      obtain ⟨hmem, hdot⟩ := List.mem_filter.1 (List.mem_of_getLast? hlast)
      exact ⟨hmem, by simpa using hdot, hdots⟩
  · cases h

theorem isName_of_fileName? {path name : String} (h : fileName? path = some name) : IsName name :=
  have ⟨hmem, hdot, hdots⟩ := mem_names_of_fileName? h
  isName_of_mem_names hmem hdot hdots

/-- A stem is never empty: a dot at the start of a name belongs to it. -/
theorem stem?_ne_empty (path : String) : stem? path ≠ some "" := by
  intro h
  obtain ⟨name, hname, hstem⟩ := Option.map_eq_some_iff.1 h
  have hne : name ≠ "" := (isName_of_fileName? hname).ne_empty
  unfold splitName at hstem
  split at hstem
  · rename_i before after hsplit
    split at hstem
    · exact hne hstem
    · rename_i hbefore
      simp_all
  · exact hne hstem

/-- A text of at least three characters is a file name unless it has a slash. -/
theorem isName_of_three_le {name : String} (hlength : 3 ≤ name.toList.length) (h : '/' ∉ name.toList) :
    IsName name := by
  refine ⟨?_, ?_, ?_, h⟩ <;> intro he <;> rw [he] at hlength <;> exact absurd hlength (by decide)

/-- A text followed by `.md` is a file name unless it has a slash. -/
theorem isName_append_md {stem : String} (h : '/' ∉ stem.toList) : IsName (stem ++ ".md") := by
  refine isName_of_three_le ?_ (by simpa using h)
  rw [String.toList_append, List.length_append]
  exact Nat.le_add_left 3 _

/-! ## Stems and extensions -/

theorem splitName_of_no_dot {name : String} (h : '.' ∉ name.toList) : splitName name = (name, none) := by
  simp [splitName, splitLast?_eq_none (beq_eq_false_of_not_mem h)]

/-- A name is cut at its last dot. -/
theorem splitLast?_append_dot {ext : String} (h : '.' ∉ ext.toList) (stem : String) :
    splitLast? (· == '.') (stem ++ "." ++ ext).toList = some (stem.toList, ext.toList) := by
  simpa using splitLast?_append_cons (p := (· == '.')) rfl (beq_eq_false_of_not_mem h) stem.toList

/-- A dot at the start cuts nothing. -/
theorem splitName_dot_append {more : String} (h : '.' ∉ more.toList) :
    splitName ("." ++ more) = ("." ++ more, none) := by
  have hsplit : splitLast? (· == '.') ("." ++ more).toList = some ([], more.toList) := by
    simpa using splitLast?_append_dot h ""
  rw [splitName, hsplit]
  rfl

theorem splitName_append_dot {stem ext : String} (hstem : stem ≠ "") (h : '.' ∉ ext.toList) :
    splitName (stem ++ "." ++ ext) = (stem, some ext) := by
  have hne : stem.toList.isEmpty = false := by simpa using hstem
  rw [splitName, splitLast?_append_dot h stem]
  simp only [hne, Bool.false_eq_true, if_false, String.ofList_toList]

/-- A name has no dot, or only one at its start, or a stem before its last dot. -/
theorem name_cases (name : String) :
    '.' ∉ name.toList ∨ (∃ more, '.' ∉ more.toList ∧ name = "." ++ more) ∨
      ∃ stem ext, stem ≠ "" ∧ '.' ∉ ext.toList ∧ name = stem ++ "." ++ ext := by
  rcases no_separator_or_last (· == '.') name.toList with h | ⟨before, dot, after, hdot, hname, hafter⟩
  · exact .inl fun hmem => absurd (h _ hmem) (by decide)
  · obtain rfl : dot = '.' := by simpa using hdot
    have hno : '.' ∉ (String.ofList after).toList := fun hmem =>
      absurd (hafter '.' (by simpa using hmem)) (by decide)
    have heq : name = String.ofList before ++ "." ++ String.ofList after := by
      rw [← String.toList_inj]
      simp [hname]
    by_cases hb : before = []
    · exact .inr (.inl ⟨String.ofList after, hno, by simpa [hb] using heq⟩)
    · exact .inr (.inr ⟨String.ofList before, String.ofList after, by simpa using hb, hno, heq⟩)

theorem isPrefix_splitName (name : String) : (splitName name).1.toList <+: name.toList := by
  unfold splitName
  split
  · rename_i before after hsplit
    obtain ⟨dot, -, hname⟩ := splitLast?_eq_some hsplit
    split
    · exact List.prefix_rfl
    · rw [String.toList_ofList, hname]
      exact List.prefix_append before (dot :: after)
  · exact List.prefix_rfl

theorem no_slash_splitName {name : String} (h : IsName name) : '/' ∉ (splitName name).1.toList :=
  fun hs => h.no_slash ((isPrefix_splitName name).subset hs)

/-- A stem is what one of the names in a path begins with. -/
theorem exists_name_of_stem? {path stem : String} (h : stem? path = some stem) :
    ∃ name ∈ names path, IsName name ∧ stem.toList <+: name.toList := by
  obtain ⟨name, hname, rfl⟩ := Option.map_eq_some_iff.1 h
  exact ⟨name, (mem_names_of_fileName? hname).1, isName_of_fileName? hname, isPrefix_splitName name⟩

theorem no_slash_of_stem? {path stem : String} (h : stem? path = some stem) : '/' ∉ stem.toList := by
  obtain ⟨name, -, hname, hbegins⟩ := exists_name_of_stem? h
  exact fun hslash => hname.no_slash (hbegins.subset hslash)

theorem mem_of_mem_stem? {path stem : String} (h : stem? path = some stem) {c : Char}
    (hc : c ∈ stem.toList) : c ∈ path.toList := by
  obtain ⟨name, hmem, -, hbegins⟩ := exists_name_of_stem? h
  obtain ⟨run, hrun, rfl⟩ := List.mem_map.1 hmem
  have hname : c ∈ run := by simpa using hbegins.subset hc
  exact mem_of_mem_runs hrun c hname

theorem no_slash_of_mem_splitName {name : String} (h : IsName name) :
    ∀ ext ∈ (splitName name).2, '/' ∉ ext.toList := by
  intro ext hext
  unfold splitName at hext
  split at hext
  · rename_i before after hsplit
    obtain ⟨dot, -, hname⟩ := splitLast?_eq_some hsplit
    split at hext
    · cases hext
    · cases hext
      rw [String.toList_ofList]
      exact fun hs => h.no_slash (hname ▸ List.mem_append_right _ (List.mem_cons_of_mem _ hs))
  · cases hext

end FilePath

end BookCatalog
