import BookCatalog.CommandLine
import BookCatalog.Proofs.CommandLine.Arguments
import BookCatalog.Proofs.FileWrites
import BookCatalog.Proofs.Transforms

/-!
# Inspections of a page

A run that inspects a page goes through its stages (the settings, the page, the transform) before it changes
anything, and ends in one of three ways (`Ends`): it fails and changes no file, it prints what the transform shows,
or it writes that to the output file. So an output file only redirects what would be printed
(`inspection_only_redirected`), where the transform is the one that is asked for, or else the one that fits the
output file.
-/

namespace BookCatalog.CommandLine

/-! ## The transform that is used -/

/-- Which transform is used, for the name that is asked for and the output file. -/
inductive Uses : Option String → Option String → String → Prop where
  | asked (name : String) (output : Option String) : Uses (some name) output name
  /-- The extension of the output file is claimed by a format that comes with the catalog. -/
  | claimed {file extension : String} {f : Format} : FilePath.extension? file = some extension →
      f ∈ FormatRegistry.builtIn.formats → f.claims extension = true → Uses none (some file) ("ast-" ++ f.name)
  | usual {output : Option String} : (∀ file ∈ output, ∀ extension ∈ FilePath.extension? file,
      ∀ f ∈ FormatRegistry.builtIn.formats, f.claims extension = false) → Uses none output "ast-markdown"

/-- There is one such transform, and it is the one that is run. -/
theorem uses_iff {transform output : Option String} {name : String} :
    Uses transform output name ↔ name = transformName transform output := by
  constructor
  · rintro (_ | ⟨hextension, hf, hclaims⟩ | hunclaimed)
    · rfl
    · have hname := Transform.nameForOutput?_builtIn_eq_some_iff.2 ⟨_, _, hextension, hf, hclaims, rfl⟩
      simp [transformName, hname]
    · cases output with
      | none => rfl
      | some file =>
        have hname := Transform.nameForOutput?_builtIn_eq_none_iff.2 (hunclaimed file rfl)
        simp [transformName, hname, Transform.defaultName]
  · rintro rfl
    cases transform with
    | some name => exact .asked name output
    | none =>
      cases output with
      | none => exact .usual fun file hfile => by cases hfile
      | some file =>
        simp only [transformName, Option.none_or, Option.bind_some]
        cases hname : Transform.nameForOutput? file FormatRegistry.builtIn with
        | none =>
          refine .usual fun _ hfile => ?_
          obtain rfl := Option.some.inj hfile
          exact Transform.nameForOutput?_builtIn_eq_none_iff.1 hname
        | some asked =>
          obtain ⟨extension, f, hextension, hf, hclaims, rfl⟩ :=
            Transform.nameForOutput?_builtIn_eq_some_iff.1 hname
          exact .claimed hextension hf hclaims

/-- The transform that is used is a listed one. -/
theorem mem_available_of_uses {arguments : List String} {r : Request} {path name : String}
    {transform output : Option String} (hr : Request.ofArguments arguments = .ok r)
    (hcommand : r.command = some (.inspect path transform output)) (h : Uses transform output name) :
    name ∈ Transform.available := by
  cases h with
  | asked => exact Request.mem_available_of_command hr hcommand
  | claimed hextension hf hclaims =>
    exact Transform.mem_available_of_nameForOutput? (.refl _)
      (Transform.nameForOutput?_builtIn_eq_some_iff.2 ⟨_, _, hextension, hf, hclaims, rfl⟩)
  | usual => decide

/-! ## The end of a run -/

/-- What is shown of a page under a transform, with the settings that are asked for. -/
def Shows (r : Request) (path name : String) (files : FileTree) (text : String) : Prop :=
  ∃ settings source, Settings.load (sources r) files = .ok settings ∧ files.readText path = .ok source ∧
    Transform.runNamed source name settings.book.moduleName = .ok text

/-- How a run that inspects a page ends. -/
inductive Ends (r : Request) (path : String) (transform output : Option String) (files : FileTree) :
    Outcome × FileTree → Prop where
  /-- Something fails, be it the write itself. -/
  | failed {outcome : Outcome} : outcome.status ≠ 0 → outcome.output = "" →
      Ends r path transform output files (outcome, files)
  | printed {text : String} : output = none → Shows r path (transformName transform output) files text →
      Ends r path transform output files (.success text, files)
  | written {file text : String} {after : FileTree} : output = some file →
      Shows r path (transformName transform output) files text → files.write file (.text text) = .ok after →
      Ends r path transform output files (.success "", after)

section
variable {arguments : List String} {r : Request} {path : String} {transform output : Option String}
  {files : FileTree}

theorem ends_inspect {settings : Settings} (hload : Settings.load (sources r) files = .ok settings) :
    Ends r path transform output files (inspect path transform output settings files) := by
  unfold inspect
  split
  · exact .failed (Nat.succ_ne_zero _) rfl
  · rename_i source hsource
    split
    · split
      · exact .failed (Nat.succ_ne_zero _) rfl
      · exact .failed (Nat.succ_ne_zero _) rfl
    · rename_i text htext
      have hshows : Shows r path (transformName transform output) files text :=
        ⟨settings, source, hload, hsource, htext⟩
      split
      · exact .printed rfl hshows
      · split
        · rename_i after hwrite
          exact .written rfl hshows hwrite
        · exact .failed (Nat.succ_ne_zero _) rfl

theorem ends_run (hr : Request.ofArguments arguments = .ok r)
    (hcommand : r.command = some (.inspect path transform output)) (hlist : r.listTransforms = false)
    (files : FileTree) : Ends r path transform output files (run arguments files) := by
  rw [run, hr]
  simp only [perform, hlist, hcommand, Bool.false_eq_true, if_false]
  split
  · exact .failed (Nat.succ_ne_zero _) rfl
  · exact .failed (Nat.succ_ne_zero _) rfl
  · rename_i settings hload
    exact ends_inspect hload

/-- What is shown is printed when no output file is asked for. -/
theorem run_of_shows {name text : String} (hr : Request.ofArguments arguments = .ok r)
    (hcommand : r.command = some (.inspect path (some name) none)) (hlist : r.listTransforms = false)
    (h : Shows r path name files text) : run arguments files = (.success text, files) := by
  obtain ⟨settings, source, hload, hsource, htext⟩ := h
  have hname : transformName (some name) none = name := rfl
  simp [run, hr, perform, hlist, hload, hcommand, inspect, hsource, hname, htext]

/-- A file has a text, and nothing else is changed. -/
structure OnlyWritten (files : FileTree) (file text : String) (after : FileTree) : Prop where
  read : after.read file = .ok (.text text)
  surroundings_eq : after.toSurroundings = files.toSurroundings
  get? : ∃ loc, files.location? file = some loc ∧
    ∀ other, after.get? other = if other = loc then some (.file (.text text)) else files.get? other

theorem onlyWritten_of_write {file text : String} {after : FileTree}
    (h : files.write file (.text text) = .ok after) : OnlyWritten files file text after := by
  obtain ⟨hs, loc, hloc, -, -⟩ := FileTree.write_eq_ok_iff.1 h
  refine ⟨FileTree.read_of_write h hs rfl, (FileTree.sameDirectories_of_write h).surroundings_eq, loc,
    hloc, fun other => ?_⟩
  simp only [FileTree.get?_write h, hloc, Option.some.injEq, eq_comm]

end

/-- **An inspection changes no file but the output file, which only redirects what is printed.** For arguments
that are accepted and ask for a page: with the status 1 nothing is printed and no file is changed, and with the
status 0 and no output file no file is changed. With the status 0 and an output file nothing is printed, nothing
but this file is changed, and it has the text that every run prints that is asked for the same without the output
file, under the transform that was used. There are arguments that ask for this. -/
theorem inspection_only_redirected {arguments : List String} {r : Request} {path : String}
    {transform output : Option String} (hr : Request.ofArguments arguments = .ok r)
    (hcommand : r.command = some (.inspect path transform output)) (hlist : r.listTransforms = false)
    (files : FileTree) :
    ((run arguments files).1.status = 1 → (run arguments files).1.output = "" ∧ (run arguments files).2 = files) ∧
    ((run arguments files).1.status = 0 → output = none → (run arguments files).2 = files) ∧
    ((run arguments files).1.status = 0 → ∀ file, output = some file →
      (run arguments files).1.output = "" ∧
      ∃ name text, Uses transform output name ∧ OnlyWritten files file text (run arguments files).2 ∧
        (∃ printing, Request.ofArguments printing =
          .ok { r with command := some (.inspect path (some name) none) }) ∧
        ∀ printing, Request.ofArguments printing =
            .ok { r with command := some (.inspect path (some name) none) } →
          run printing files = (.success text, files)) := by
  have hend := ends_run hr hcommand hlist files
  generalize run arguments files = result at hend ⊢
  cases hend with
  | failed hstatus houtput => exact ⟨fun _ => ⟨houtput, rfl⟩, fun h => absurd h hstatus, fun h => absurd h hstatus⟩
  | printed hnone hshows =>
    refine ⟨fun h => absurd h Nat.zero_ne_one, fun _ _ => rfl, fun _ file hfile => ?_⟩
    rw [hnone] at hfile
    cases hfile
  | @written file text after hsome hshows hwrite =>
    refine ⟨fun h => absurd h Nat.zero_ne_one, fun _ hnone => ?_, fun _ file' hfile => ?_⟩
    · rw [hsome] at hnone
      cases hnone
    · obtain rfl : file = file' := Option.some.inj (hsome.symm.trans hfile)
      have huses := uses_iff.2 (Eq.refl (transformName transform output))
      have hprinting := Request.ofArguments_inspection r.config r.moduleName path
        (mem_available_of_uses hr hcommand huses)
      rw [← hlist] at hprinting
      exact ⟨rfl, _, text, huses, onlyWritten_of_write hwrite, ⟨_, hprinting⟩,
        fun printing h => run_of_shows h rfl hlist hshows⟩

/-- A page with one paragraph, and an older file where it is to be written. -/
def smallFiles : FileTree := FileTree.ofList
  [(["a.xhtml"], .file (.text "<div class='body'><p>a</p></div>")), (["a.json"], .file (.text "[]"))]

/-- The page is written in the format of the file, as it is printed in this format. -/
theorem inspection_of_smallFiles :
    (run ["--module-name=Swift", "inspect", "a.xhtml", "-o", "a.json"] smallFiles).1.status = 0 ∧
    Uses none (some "a.json") "ast-json" ∧
    ∃ text, run ["inspect", "--module-name=Swift", "--", "a.xhtml", "ast-json"] smallFiles =
        (.success text, smallFiles) ∧
      OnlyWritten smallFiles "a.json" text
        (run ["--module-name=Swift", "inspect", "a.xhtml", "-o", "a.json"] smallFiles).2 := by
  have hr : Request.ofArguments ["--module-name=Swift", "inspect", "a.xhtml", "-o", "a.json"] =
      .ok ⟨false, none, some "Swift", some (.inspect "a.xhtml" none (some "a.json"))⟩ := rfl
  have hstatus : (run ["--module-name=Swift", "inspect", "a.xhtml", "-o", "a.json"] smallFiles).1.status = 0 := by
    decide +kernel
  obtain ⟨-, -, hwritten⟩ := inspection_only_redirected hr rfl rfl smallFiles
  obtain ⟨-, name, text, huses, honly, -, hprinted⟩ := hwritten hstatus "a.json" rfl
  obtain rfl : name = "ast-json" := uses_iff.1 huses
  exact ⟨hstatus, huses, text, hprinted _ rfl, honly⟩

end BookCatalog.CommandLine
