import BookCatalog.Proofs.Settings.Assignments

/-!
# Settings in layers

What the sources of settings assign: a file gives settings in the tables of their groups, an override gives one
setting by its path. Files are laid over the defaults in order, and overrides over the files, so a setting has
the value of its last override, or else of the last file that gives it, or else its default (`load_layers`).
Where the overrides stand between the files does not matter (`load_congr`).

A file may be named without its extension, so a path at which there is no file is not always a missing file
(`load_file_without_extension`).
-/

namespace BookCatalog

open Settings

namespace Setting

theorem lowerCase_name (k : Setting) : Text.lowerCase k.name = k.name := by
  cases k <;> decide +kernel

theorem ofText?_of_mem_groups {g : String} (hg : g ∈ groups) : KeyPath.ofText? g = some ⟨g, []⟩ := by
  simp only [groups, List.mem_cons, List.not_mem_nil, or_false] at hg
  obtain rfl | rfl := hg <;> decide +kernel

end Setting

namespace Settings

/-! ## What a file assigns -/

/-- The scalar that a text or a truth value of a file is. -/
def scalarOfToml? : Toml.Value → Option Scalar
  | .bool b => some (.bool b)
  | .string s => some (.string s)
  | _ => none

/-- The assignment that a member of the table of a group is: a name of a setting and a value of its type. -/
def assignmentOf? (group : String) (m : String × Toml.Value) : Option Assignment :=
  (Setting.find? group m.1).bind fun k =>
    (scalarOfToml? m.2).bind fun x => if k.accepts x then some (k, x) else none

/-- The assignments that the table of a group is. -/
def groupAssignments? : String × Toml.Value → Option (List Assignment)
  | (group, .table ms) => if group ∈ Setting.groups then ms.mapM (assignmentOf? group) else none
  | _ => none

/-- The assignments of a file that does nothing else. -/
def assignments? (members : List (String × Toml.Value)) : Option (List Assignment) :=
  (members.mapM groupAssignments?).map List.flatten

theorem assignmentOf?_eq_some {g : String} {m : String × Toml.Value} {p : Assignment}
    (h : assignmentOf? g m = some p) :
    p.1.group = g ∧ p.1.name = m.1 ∧ scalarOfToml? m.2 = some p.2 ∧ p.1.accepts p.2 = true := by
  obtain ⟨k, hk, h⟩ := Option.bind_eq_some_iff.1 h
  obtain ⟨x, hx, h⟩ := Option.bind_eq_some_iff.1 h
  obtain ⟨hgroup, hname⟩ := Setting.group_name_of_find? hk
  split at h
  · cases h
    exact ⟨hgroup, hname, hx, ‹_›⟩
  · cases h

theorem groupAssignments?_eq_some {m : String × Toml.Value} {as : List Assignment}
    (h : groupAssignments? m = some as) : m.1 ∈ Setting.groups ∧ ∃ ms, m.2 = .table ms ∧
      List.Forall₂ (fun w p => assignmentOf? m.1 w = some p) ms as := by
  unfold groupAssignments? at h
  split at h
  · split at h
    · exact ⟨‹_›, _, rfl, mapM_eq_some_iff.1 h⟩
    · cases h
  · cases h

theorem assignments?_eq_some {members : List (String × Toml.Value)} {as : List Assignment}
    (h : assignments? members = some as) : ∃ ass, as = ass.flatten ∧
      List.Forall₂ (fun m as => groupAssignments? m = some as) members ass := by
  obtain ⟨ass, hass, rfl⟩ := Option.map_eq_some_iff.1 h
  exact ⟨ass, rfl, mapM_eq_some_iff.1 hass⟩

/-- What is assigned in a table belongs there and is of the right type. -/
theorem group_accepts_of_mem {g : String} {ms : List (String × Toml.Value)} {as : List Assignment}
    (h : List.Forall₂ (fun w p => assignmentOf? g w = some p) ms as) :
    ∀ p ∈ as, p.1.group = g ∧ p.1.accepts p.2 = true := by
  induction h with
  | nil => exact fun p hp => nomatch hp
  | cons hp _ ih =>
    obtain ⟨hgroup, -, -, haccepts⟩ := assignmentOf?_eq_some hp
    exact List.forall_mem_cons.2 ⟨⟨hgroup, haccepts⟩, ih⟩

theorem accepts_of_mem_assignments? {members : List (String × Toml.Value)} {as : List Assignment}
    (h : assignments? members = some as) : ∀ p ∈ as, p.1.accepts p.2 = true := by
  obtain ⟨ass, rfl, hass⟩ := assignments?_eq_some h
  clear h
  induction hass with
  | nil => exact fun p hp => nomatch hp
  | cons hm _ ih =>
    obtain ⟨-, ms, -, hms⟩ := groupAssignments?_eq_some hm
    rw [List.flatten_cons]
    intro p hp
    obtain hp | hp := List.mem_append.1 hp
    · exact (group_accepts_of_mem hms p hp).2
    · exact ih p hp

theorem ofToml_of_scalar {file : String} {v : Toml.Value} {x : Scalar} (h : scalarOfToml? v = some x) :
    Value.ofToml file v = .scalar (some file) x := by
  cases v <;> cases h <;> rfl

theorem ofTomlMembers_eq_map (file : String) (ms : List (String × Toml.Value)) :
    Value.ofTomlMembers file ms = ms.map fun m => (m.1, Value.ofToml file m.2) := by
  induction ms with
  | nil => rfl
  | cons m ms ih => rw [Value.ofTomlMembers, ih, List.map_cons]

section
variable {a : Setting → Scalar} {v t : Value} {g : String} {as : List Assignment}

/-- The members of the table of a group make their assignments. -/
theorem GivesIn.layAllOver (file : String) {ms : List (String × Toml.Value)}
    (hms : List.Forall₂ (fun w p => assignmentOf? g w = some p) ms as) (h : GivesIn g a t) :
    GivesIn g (assignAll a as) (t.layAllOver (Value.ofTomlMembers file ms)) := by
  induction hms generalizing a t with
  | nil => exact h
  | @cons w p ms as hp _ ih =>
    obtain ⟨name, x⟩ := w
    obtain ⟨hgroup, rfl, hscalar, -⟩ := assignmentOf?_eq_some hp
    rw [Value.ofTomlMembers, ofToml_of_scalar hscalar, Value.layAllOver, Setting.lowerCase_name]
    exact ih (h.withMember hgroup _ _)

/-- The table of a group makes its assignments. -/
theorem Gives.exists_putNamed? (file : String) {m : String × Toml.Value}
    (hm : groupAssignments? m = some as) (h : Gives a v) :
    ∃ v', v.putNamed? m.1 (Value.ofToml file m.2) = some v' ∧ Gives (assignAll a as) v' := by
  obtain ⟨g, w⟩ := m
  obtain ⟨hg, ms, rfl, hms⟩ := groupAssignments?_eq_some hm
  obtain ⟨t, ht, hgives⟩ := h.group g hg
  refine ⟨_, ?_, h.withMember (hgives.layAllOver file hms) fun k hk => assignAll_of_ne (fun p hp heq => ?_) a⟩
  · rw [Value.putNamed?, Setting.ofText?_of_mem_groups hg]
    show some (v.layOver g (.table _ _)) = _
    rw [Value.layOver, ht]
    rfl
  · exact hk (heq ▸ (group_accepts_of_mem hms p hp).1)

/-- **A file makes its assignments.** -/
theorem Gives.exists_layFile (file : String) {members : List (String × Toml.Value)}
    (hmembers : assignments? members = some as) (h : Gives a v) :
    ∃ v', layFile v (Value.ofTomlMembers file members) = .ok v' ∧ Gives (assignAll a as) v' := by
  obtain ⟨ass, rfl, hass⟩ := assignments?_eq_some hmembers
  have hsteps : List.Forall₂ (fun m as => ∀ a v, Gives a v → ∃ v',
      (Value.putNamed? v m.1 (Value.ofToml file m.2)) = pure v' ∧ Gives (assignAll a as) v') members ass :=
    hass.imp fun m as hm a v h => h.exists_putNamed? file hm
  obtain ⟨v', hfold, hgives⟩ := exists_foldlM hsteps h
  refine ⟨v', ?_, hgives⟩
  rw [layFile, ofTomlMembers_eq_map, List.foldlM_map, hfold]
  rfl

end

/-! ## What a source assigns -/

namespace Source

/-- Whether a source gives a single setting. -/
def isOverride : Source → Bool
  | .override _ _ => true
  | _ => false

/-- The assignments of the file at a path. -/
def assignmentsAt? (files : FileTree) (path : String) : Option (List Assignment) :=
  (textOf? files path).bind fun text =>
    (Toml.read? (String.ofList (Text.withoutByteOrderMark text.toList))).bind assignments?

/-- The assignments of a source that does nothing else: a file of settings, a file that is not there and need
not be, or a setting with a value of its type. -/
def assignments? (files : FileTree) : Source → Option (List Assignment)
  | .file path => (locate? files path).bind (assignmentsAt? files)
  | .optionalFile path =>
    match locate? files path with
    | some found => assignmentsAt? files found
    | none => some []
  | .override key value =>
    (KeyPath.ofText? key).bind fun path =>
      (Setting.ofPath? path).bind fun k => if k.accepts value then some [(k, value)] else none

end Source

/-- The assignments of sources, in order. -/
def assigned (files : FileTree) (sources : List Source) : List Assignment :=
  sources.flatMap fun src => (src.assignments? files).getD []

/-- The sources that are files. -/
def filesOf (sources : List Source) : List Source := sources.filter fun src => !src.isOverride

/-- The sources that give single settings. -/
def overridesOf (sources : List Source) : List Source := sources.filter Source.isOverride

section
variable {files : FileTree} {sources : List Source} {a : Setting → Scalar} {v : Value} {as : List Assignment}

theorem override_assignments?_eq_some {key : String} {value : Scalar}
    (h : Source.assignments? files (.override key value) = some as) :
    ∃ k : Setting, KeyPath.ofText? key = some k.path ∧ k.accepts value = true ∧ as = [(k, value)] := by
  obtain ⟨path, hpath, hrest⟩ := Option.bind_eq_some_iff.1 h
  obtain ⟨k, hk, hrest⟩ := Option.bind_eq_some_iff.1 hrest
  rw [Setting.path_of_ofPath? hk] at hpath
  split at hrest
  · cases hrest
    exact ⟨k, hpath, ‹_›, rfl⟩
  · cases hrest

theorem accepts_of_mem_source {src : Source} (h : src.assignments? files = some as) :
    ∀ p ∈ as, p.1.accepts p.2 = true := by
  have hfile {path : String} (h : Source.assignmentsAt? files path = some as) :
      ∀ p ∈ as, p.1.accepts p.2 = true := by
    obtain ⟨text, -, h⟩ := Option.bind_eq_some_iff.1 h
    obtain ⟨members, -, h⟩ := Option.bind_eq_some_iff.1 h
    exact accepts_of_mem_assignments? h
  cases src with
  | file path =>
    obtain ⟨found, -, hat⟩ := Option.bind_eq_some_iff.1 h
    exact hfile hat
  | optionalFile path =>
    cases hfound : locate? files path with
    | some found => exact hfile (by simpa only [Source.assignments?, hfound] using h)
    | none =>
      simp only [Source.assignments?, hfound, Option.some.injEq] at h
      exact h ▸ fun p hp => nomatch hp
  | override key value =>
    obtain ⟨k, -, haccepts, rfl⟩ := override_assignments?_eq_some h
    exact List.forall_mem_singleton.2 haccepts

theorem accepts_of_mem_assigned (h : ∀ src ∈ sources, (src.assignments? files).isSome = true) :
    ∀ p ∈ assigned files sources, p.1.accepts p.2 = true := by
  intro p hp
  obtain ⟨src, hsrc, hp⟩ := List.mem_flatMap.1 hp
  obtain ⟨as, has⟩ := Option.isSome_iff_exists.1 (h src hsrc)
  rw [has] at hp
  exact accepts_of_mem_source has p hp

/-- The members of a file of settings. -/
theorem exists_membersOf {path found : String} (required : Bool) (hfound : locate? files path = some found)
    (h : Source.assignmentsAt? files found = some as) : ∃ file members,
      membersOf files path required = .ok (Value.ofTomlMembers file members) ∧
        Settings.assignments? members = some as := by
  obtain ⟨text, htext, h⟩ := Option.bind_eq_some_iff.1 h
  obtain ⟨members, hmembers, h⟩ := Option.bind_eq_some_iff.1 h
  refine ⟨String.intercalate "/" (FilePath.components found), members, ?_, h⟩
  simp only [membersOf, hfound, htext, hmembers]

/-- **A source of files makes its assignments.** -/
theorem Gives.exists_laySource {src : Source} (hsrc : src.isOverride = false)
    (has : src.assignments? files = some as) (h : Gives a v) :
    ∃ v', laySource files v src = .ok v' ∧ Gives (assignAll a as) v' := by
  cases src with
  | file path =>
    obtain ⟨found, hfound, has⟩ := Option.bind_eq_some_iff.1 has
    obtain ⟨file, members, hmembers, has⟩ := exists_membersOf true hfound has
    obtain ⟨v', hv', hgives⟩ := h.exists_layFile file has
    exact ⟨v', by rw [laySource, hmembers]; exact hv', hgives⟩
  | optionalFile path =>
    cases hfound : locate? files path with
    | some found =>
      simp only [Source.assignments?, hfound] at has
      obtain ⟨file, members, hmembers, has⟩ := exists_membersOf false hfound has
      obtain ⟨v', hv', hgives⟩ := h.exists_layFile file has
      exact ⟨v', by rw [laySource, hmembers]; exact hv', hgives⟩
    | none =>
      simp only [Source.assignments?, hfound, Option.some.injEq] at has
      exact ⟨v, by simp only [laySource, membersOf, hfound]; rfl, has ▸ h⟩
  | override key value => cases hsrc

/-- **An override makes its assignment.** -/
theorem Gives.exists_layOverride (h : Gives a v) (p : Assignment) :
    ∃ v', layOverride v p.1.path p.2 = .ok v' ∧ Gives (assignAll a [p]) v' := by
  obtain ⟨k, x⟩ := p
  obtain ⟨t, ht, hgives⟩ := h.group k.group k.group_mem_groups
  refine ⟨v.withMember k.group (t.withMember k.name (.scalar none x)), ?_, ?_⟩
  · simp only [layOverride, Value.put?, Setting.path, Value.putAt?, Value.change?, ht, Option.getD_some,
      Value.layOver, Option.map_some]
  · exact h.withMember (hgives.withMember rfl none x) fun k' hk' =>
      Function.update_of_ne (fun heq : k' = k => hk' (heq ▸ rfl)) _ _

end

/-! ## Loading -/

section
variable {files : FileTree} {sources : List Source}

/-- The single settings that sources give, with the paths to them. -/
def singleSettings (sources : List Source) : Except SettingsError (List (KeyPath × Scalar)) :=
  (·.filterMap id) <$> sources.mapM override?

/-- Files give no single settings. -/
theorem singleSettings_overridesOf (sources : List Source) :
    singleSettings (overridesOf sources) = singleSettings sources := by
  induction sources with
  | nil => rfl
  | cons src rest ih =>
    have hskip (h : override? src = .ok none) :
        singleSettings (src :: rest) = singleSettings rest := by
      rw [singleSettings, singleSettings, List.mapM_cons, h]
      cases rest.mapM override? <;> rfl
    cases src with
    | file path => exact ih.trans (hskip rfl).symm
    | optionalFile path => exact ih.trans (hskip rfl).symm
    | override key value =>
      have hcons (rest : List Source) : singleSettings (.override key value :: rest) =
          override? (.override key value) >>= fun o => (o.toList ++ ·) <$> singleSettings rest := by
        rw [singleSettings, singleSettings, List.mapM_cons]
        cases override? (.override key value) with
        | error e => rfl
        | ok o => cases rest.mapM override? <;> cases o <;> rfl
      show singleSettings (.override key value :: overridesOf rest) = _
      rw [hcons, hcons, ih]

/-- Files are laid over one another as if there were no overrides between them. -/
theorem foldlM_laySource (sources : List Source) (v : Value) :
    sources.foldlM (laySource files) v = (filesOf sources).foldlM (laySource files) v := by
  induction sources generalizing v with
  | nil => rfl
  | cons src rest ih =>
    cases src with
    | override key value => exact ih v
    | file path => exact congrArg (laySource files v (.file path) >>= ·) (funext ih)
    | optionalFile path => exact congrArg (laySource files v (.optionalFile path) >>= ·) (funext ih)

theorem load_eq (sources : List Source) (files : FileTree) : load sources files = (do
    let overrides ← singleSettings (overridesOf sources)
    let v ← (filesOf sources).foldlM (laySource files) (toValue {})
    let v ← overrides.foldlM (fun v (path, value) => layOverride v path value) v
    ofValue v) := by
  rw [singleSettings_overridesOf, ← foldlM_laySource, load, singleSettings, bind_map_left]

/-- **It does not matter where overrides stand between files.** -/
theorem load_congr {sources' : List Source} (hfiles : filesOf sources' = filesOf sources)
    (hoverrides : overridesOf sources' = overridesOf sources) (files : FileTree) :
    load sources' files = load sources files := by
  rw [load_eq, load_eq, hfiles, hoverrides]

/-- Overrides of settings give the paths to them. -/
theorem singleSettings_of_assigned (hsources : ∀ src ∈ sources, src.isOverride = true)
    (h : ∀ src ∈ sources, (src.assignments? files).isSome = true) :
    singleSettings sources = .ok ((assigned files sources).map fun p => (p.1.path, p.2)) := by
  induction sources with
  | nil => rfl
  | cons src rest ih =>
    obtain ⟨hsrc, hrest⟩ := List.forall_mem_cons.1 hsources
    obtain ⟨hsome, hsomes⟩ := List.forall_mem_cons.1 h
    obtain ⟨as, has⟩ := Option.isSome_iff_exists.1 hsome
    cases src with
    | file path => cases hsrc
    | optionalFile path => cases hsrc
    | override key value =>
      obtain ⟨k, hk, -, rfl⟩ := override_assignments?_eq_some has
      have hhead : override? (.override key value) = .ok (some (k.path, value)) := by
        simp only [override?, hk]
      have ih := ih hrest hsomes
      rw [singleSettings] at ih ⊢
      rw [List.mapM_cons, hhead, assigned, List.flatMap_cons, has]
      cases hmap : rest.mapM override? with
      | error e =>
        rw [hmap] at ih
        cases ih
      | ok os =>
        rw [hmap] at ih
        exact congrArg (fun l => Except.ok ((k.path, value) :: l)) (Except.ok.inj ih)

/-- Sources that assign settings are loaded, and every setting has the value that was assigned last, by files
before overrides. -/
theorem exists_load (h : ∀ src ∈ sources, (src.assignments? files).isSome = true) :
    ∃ s, load sources files = .ok s ∧ ∀ k : Setting, k.valueIn s = assignAll (Setting.valueIn {})
      (assigned files (filesOf sources) ++ assigned files (overridesOf sources)) k := by
  have hmem {src : Source} {p : Source → Bool} (hsrc : src ∈ sources.filter p) :
      p src = true ∧ (src.assignments? files).isSome = true :=
    ⟨(List.mem_filter.1 hsrc).2, h src (List.mem_filter.1 hsrc).1⟩
  have hfiles : List.Forall₂ (fun src as => ∀ a v, Gives a v →
      ∃ v', laySource files v src = pure v' ∧ Gives (assignAll a as) v') (filesOf sources)
        ((filesOf sources).map fun src => (src.assignments? files).getD []) := by
    refine List.forall₂_map_right_iff.2 (List.forall₂_same.2 fun src hsrc a v hv => ?_)
    obtain ⟨hfile, hsome⟩ := hmem hsrc
    obtain ⟨as, has⟩ := Option.isSome_iff_exists.1 hsome
    rw [has]
    exact hv.exists_laySource (by simpa using hfile) has
  obtain ⟨v, hv, hgives⟩ := exists_foldlM hfiles gives_defaults
  have hoverrides : List.Forall₂ (fun p as => ∀ a v, Gives a v →
      ∃ v', layOverride v p.1.path p.2 = pure v' ∧ Gives (assignAll a as) v')
        (assigned files (overridesOf sources)) ((assigned files (overridesOf sources)).map fun p => [p]) :=
    List.forall₂_map_right_iff.2 (List.forall₂_same.2 fun p _ a v hv => hv.exists_layOverride p)
  obtain ⟨w, hw, hgives⟩ := exists_foldlM hoverrides hgives
  rw [← List.flatMap_def, ← List.flatMap_def, List.flatMap_singleton', ← assignAll_append] at hgives
  have haccepts : ∀ p ∈ assigned files (filesOf sources) ++ assigned files (overridesOf sources),
      p.1.accepts p.2 = true := by
    intro p hp
    obtain hp | hp := List.mem_append.1 hp
    · exact accepts_of_mem_assigned (fun src hsrc => (hmem hsrc).2) p hp
    · exact accepts_of_mem_assigned (fun src hsrc => (hmem hsrc).2) p hp
  obtain ⟨s, hs, hvalues⟩ := exists_ofValue hgives (accepts_assignAll (Setting.accepts_valueIn {}) haccepts)
  refine ⟨s, ?_, hvalues⟩
  have hsingle : singleSettings (overridesOf sources) = _ :=
    singleSettings_of_assigned (fun src hsrc => (hmem hsrc).1) fun src hsrc => (hmem hsrc).2
  have hlaid : ((assigned files (overridesOf sources)).map fun p => (p.1.path, p.2)).foldlM
      (fun v (path, value) => layOverride v path value) v = .ok w := by
    rw [List.foldlM_map]
    exact hw
  rw [load_eq, hsingle, hv]
  exact (congrArg (· >>= ofValue) hlaid).trans hs

/-- A file that has to be there and is not makes loading fail. -/
theorem exists_error_of_missing {path : String} (hmem : .file path ∈ sources)
    (hmissing : locate? files path = none) : ∃ e, load sources files = .error e := by
  have hlay (v : Value) : laySource files v (.file path) = .error (.fileNotFound path) := by
    simp only [laySource, membersOf, hmissing]
    rfl
  have hfold (v : Value) : ∃ e, sources.foldlM (laySource files) v = .error e := by
    obtain ⟨before, after, rfl⟩ := List.append_of_mem hmem
    rw [List.foldlM_append]
    cases before.foldlM (laySource files) v with
    | error e => exact ⟨e, rfl⟩
    | ok w =>
      have hstep : (Source.file path :: after).foldlM (laySource files) w = .error (.fileNotFound path) := by
        rw [List.foldlM_cons, hlay]
        rfl
      exact ⟨_, hstep⟩
  obtain ⟨e, he⟩ := hfold (toValue {})
  rw [load]
  cases sources.mapM override? with
  | error e => exact ⟨e, rfl⟩
  | ok os => exact ⟨e, by rw [he]; rfl⟩

end

/-! ## The defaults -/

/-- The file of the default settings. -/
def defaultText : String :=
"# Default settings for xbook.
#
# Every key is listed here; user files passed with --config only need the
# keys they change.

[book]
# Package document listing the chapters in reading order.
manifest = \"content.opf\"
# Navigation document the landing page is built from.
nav = \"nav.xhtml\"
# Image directory copied into the catalog's assets.
images_dir = \"_images\"
# Module the catalog documents. Titles the landing page and names the
# symbol graph.
module_name = \"Swift\"

[output]
# Asset directory inside the output directory.
assets_dir = \"Assets\"
# File name of the landing page.
nav_file = \"SwiftBook.md\"
# Write Info.plist and Documentation.symbols.json.
static_files = true
"

/-- A text is read from its characters. -/
theorem read?_ofList (cs : List Char) : Toml.read? (String.ofList cs) = (do
    let tokens ← Toml.tokens? (Text.withoutByteOrderMark cs)
    let lines ← (← Toml.lines? tokens).mapM Toml.Line.ofGroups?
    let r ← lines.foldlM Toml.Reading.step? ⟨[], []⟩
    return Toml.Draft.toValues r.members) := by
  rw [Toml.read?, String.toList_ofList]

/-- The file of the default settings assigns each setting its default. -/
theorem assignments_defaultText :
    (Toml.read? defaultText).bind assignments? = some (Setting.all.map fun k => (k, k.valueIn {})) := by
  -- finding the characters of a long text in its bytes would take long
  rw [defaultText, read?_ofList]
  decide +kernel

/-! ## Layers -/

theorem lastFor_append (k : Setting) (as bs : List Assignment) :
    lastFor k (as ++ bs) = (lastFor k bs).or (lastFor k as) := by
  rw [lastFor, List.reverse_append, List.lookup_append]
  rfl

/-- **Overrides count before files, files before defaults, and of each the last.** From any sequence of sources
that assign settings values of their types, settings are loaded that have, for each setting, the value of the
last override, or else of the last file that assigns it, or else the default. Where the overrides stand between
the files does not matter. The options of a conversion have what the settings have. Without sources the settings
are those of the file of the defaults, and the options those by default. When a file that has to be there is
found neither at its path nor with the extension added, no settings are loaded. -/
theorem load_layers {files : FileTree} {sources : List Source}
    (h : ∀ src ∈ sources, (src.assignments? files).isSome = true) :
    (∃ s, load sources files = .ok s ∧ ∀ k : Setting, k.valueIn s =
      ((lastFor k (assigned files (overridesOf sources))).or
        (lastFor k (assigned files (filesOf sources)))).getD (k.valueIn {})) ∧
    (∀ sources', filesOf sources' = filesOf sources → overridesOf sources' = overridesOf sources →
      load sources' files = load sources files) ∧
    (∀ (s : Settings) (k : Setting), k.valueInOptions s.options = k.valueIn s) ∧
    (load [] files = .ok {} ∧ ({} : Settings).options = {} ∧
      ∃ defaults, (Toml.read? defaultText).bind assignments? = some defaults ∧
        ∀ k : Setting, lastFor k defaults = some (k.valueIn {})) ∧
    ∀ others path, .file path ∈ others → locate? files path = none → ∃ e, load others files = .error e := by
  refine ⟨?_, fun _ hfiles hoverrides => load_congr hfiles hoverrides files, Setting.valueInOptions_options,
    ⟨rfl, rfl, _, assignments_defaultText, fun k => by cases k <;> rfl⟩, fun _ _ => exists_error_of_missing⟩
  obtain ⟨s, hs, hvalues⟩ := exists_load h
  exact ⟨s, hs, fun k => by rw [hvalues, assignAll_apply, lastFor_append]⟩

/-- A file of some settings. -/
def layeredFiles : FileTree := .ofList [
  (["a.toml"], .file (.text "[output]\nassets_dir = 'Resources'\nstatic_files = false\n[book]\nnav = 'a.html'"))]

/-- Overrides around a file, and a file that is not there. -/
def layeredSources : List Source := [.override "book.nav" (.string "b.html"), .file "a.toml",
  .optionalFile "b.toml", .override "Book.Nav" (.string "c.html")]

/-- The table of contents is that of the last override, though a file is laid after the first. What the file
does not name has its default. -/
theorem load_layeredSources : load layeredSources layeredFiles =
    .ok { book := { nav := "c.html" }, output := { assetsDir := "Resources", staticFiles := false } } := by
  have hsome : ∀ src ∈ layeredSources, (src.assignments? layeredFiles).isSome = true := by decide +kernel
  obtain ⟨⟨s, hs, hvalues⟩, -⟩ := load_layers hsome
  have hlast : ∀ k ∈ Setting.all, ((lastFor k (assigned layeredFiles (overridesOf layeredSources))).or
      (lastFor k (assigned layeredFiles (filesOf layeredSources)))).getD (k.valueIn {}) = k.valueIn
        { book := { nav := "c.html" }, output := { assetsDir := "Resources", staticFiles := false } } := by
    decide +kernel
  rw [hs, Setting.eq_of_valueIn fun k => (hvalues k).trans (hlast k k.mem_all)]

/-- **A path at which nothing is may still name a file**: the one with the extension added. -/
theorem load_file_without_extension :
    layeredFiles.isFile "a" = false ∧ layeredFiles.isDirectory "a" = false ∧
      ¬ ∃ e, load [.file "a"] layeredFiles = .error e := by
  have hsome : ∀ src ∈ [Source.file "a"], (src.assignments? layeredFiles).isSome = true := by decide +kernel
  refine ⟨by decide +kernel, by decide +kernel, fun ⟨e, he⟩ => ?_⟩
  obtain ⟨s, hs, -⟩ := exists_load hsome
  rw [hs] at he
  cases he

end Settings

end BookCatalog
