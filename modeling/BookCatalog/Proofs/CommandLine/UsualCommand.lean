import BookCatalog.CommandLine
import BookCatalog.Proofs.Book.Catalog
import BookCatalog.Proofs.CommandLine.Arguments

/-!
# Arguments without the name of a command

Converting is the usual command: its name may be left out. The arguments are then read once without the name of a
command, which fails, and once more with it. The first reading has to fail in the right way: what the arguments of
`convert` are made of either means the same among the arguments as a whole or is refused there (`Grammar.Agrees`),
and the root of the book is always refused (`Grammar.Reads.readFrom_eq_usage`). There is a second reading when the
first argument has no hyphen in front. So the name may be left out of accepted arguments exactly when no option, nor
anything else with a hyphen, stands next to it (`convert_optional_iff`).
-/

namespace BookCatalog.CommandLine

namespace Grammar

/-- Every option of the first grammar is the same in the second, or is none there. -/
structure Agrees (g g' : Grammar) : Prop where
  long : ∀ name s, g.long? name = some s → g'.long? name = some s ∨ g'.long? name = none
  short : ∀ c s, g.short? c = some s → g'.short? c = some s ∨ g'.short? c = none

section
variable {g g' : Grammar} {given added read : Given} {pending : Option Switch} {plainOnly : Bool}

theorem Agrees.readLong (h : g.Agrees g') {cs : List Char} (hread : g.readLong given cs = .ok (added, pending)) :
    g'.readLong given cs = .ok (added, pending) ∨ g'.readLong given cs = .error .usage := by
  unfold Grammar.readLong at hread ⊢
  simp only at hread ⊢
  split at hread
  · cases hread
  all_goals
    rename_i hs hvalue
    rcases h.long _ _ hs with hsame | hnone
    · rw [hsame, hvalue]
      exact .inl hread
    · rw [hnone]
      exact .inr rfl

theorem Agrees.readShort (h : g.Agrees g') : ∀ {cs : List Char} {given : Given},
    g.readShort given cs = .ok (added, pending) →
      g'.readShort given cs = .ok (added, pending) ∨ g'.readShort given cs = .error .usage
  | [], _, hread => .inl hread
  | c :: rest, given, hread => by
    unfold Grammar.readShort at hread ⊢
    split at hread
    · cases hread
    · rename_i s hs
      rcases h.short _ _ hs with hsame | hnone
      · rw [hsame]
        simp only
        split at hread
        · rename_i htakes
          rw [if_pos htakes]
          exact .inl hread
        · rename_i htakes
          rw [if_neg htakes]
          split at hread
          · exact h.readShort hread
          · cases hread
      · rw [hnone]
        exact .inr rfl

/-- Where no argument without a hyphen may stand, arguments that give one are refused. They may be read otherwise
up to there, but only as they are read by a grammar that knows the same options. -/
theorem Reads.readFrom_eq_usage {arguments : List String} (h : Reads g given pending plainOnly arguments read)
    (hagrees : g.Agrees g') (hplaces : g'.places = []) (hwords : ∀ a ∈ arguments, a ∉ g'.commands)
    (hgiven : given.plain = []) (hread : read.plain ≠ []) :
    g'.readFrom given pending plainOnly arguments = .error .usage := by
  induction h with
  | done => exact absurd hgiven hread
  | value hoption hadd _ ih =>
    obtain ⟨-, rfl⟩ := Given.addValue_eq_ok_iff.1 hadd
    rw [readFrom_value hoption, hadd]
    exact ih (List.forall_mem_cons.1 hwords).2 hgiven hread
  | command => exact absurd hgiven hread
  | plain hwhere _ _ _ =>
    have hword := (List.forall_mem_cons.1 hwords).1
    rw [readFrom_plain (hwhere.imp_right fun hoption => ⟨hoption.1, hword⟩), Given.addPlain, hplaces]
    rfl
  | marked _ ih =>
    rw [readFrom_marked]
    exact ih (List.forall_mem_cons.1 hwords).2 hgiven hread
  | long hcs hstep _ ih =>
    rw [readFrom_long hcs]
    rcases hagrees.readLong hstep with hsame | hrefused
    · rw [hsame]
      exact ih (List.forall_mem_cons.1 hwords).2 ((plain_of_readLong hstep).trans hgiven) hread
    · rw [hrefused]
      rfl
  | short hcs hc hstep _ ih =>
    rw [readFrom_short hcs hc]
    rcases hagrees.readShort hstep with hsame | hrefused
    · rw [hsame]
      exact ih (List.forall_mem_cons.1 hwords).2 ((plain_of_readShort hstep).trans hgiven) hread
    · rw [hrefused]
      rfl

end

/-- What may stand among the arguments of `convert` is the same among the arguments as a whole, or nothing there. -/
theorem convert_agrees_whole : Grammar.convert.Agrees .whole where
  long name s h := by
    obtain rfl : s.longName = name := by simpa using List.find?_some h
    have hmem := List.mem_of_find?_eq_some h
    cases s with
    | version => exact absurd hmem (by decide)
    | _ => decide
  short c s h := by
    have hname : s.shortName? = some c := by simpa using List.find?_some h
    have hmem := List.mem_of_find?_eq_some h
    cases s with
    | version => exact absurd hmem (by decide)
    | output =>
      obtain rfl := Option.some.inj hname
      decide
    | help =>
      obtain rfl := Option.some.inj hname
      decide
    | _ => cases hname

end Grammar

/-! ## The two readings -/

namespace Request

variable {arguments : List String} {r : Request}

theorem ofArguments_convert (arguments : List String) :
    ofArguments ("convert" :: arguments) = ofExplicit ("convert" :: arguments) := by
  have hnamed : mayOmitConvert ("convert" :: arguments) = false := rfl
  unfold ofArguments
  cases ofExplicit ("convert" :: arguments) with
  | ok r => rfl
  | error e => rw [hnamed]; rfl

/-- Accepted arguments of `convert` have a root among them. -/
theorem exists_root_of_accepted (h : ofArguments ("convert" :: arguments) = .ok r) :
    ∃ read, Grammar.convert.read arguments = .ok read ∧ read.plain ≠ [] := by
  rw [ofArguments_convert] at h
  obtain ⟨read, hread, h⟩ := bind_eq_ok_iff.1 (show ofCommand _ "convert" arguments = .ok r from h)
  refine ⟨read, hread, ?_⟩
  rintro hplain
  rw [hplain] at h
  cases h

/-- Accepted arguments of `convert` make no sense among the arguments as a whole. -/
theorem ofExplicit_of_accepted (h : ofArguments ("convert" :: arguments) = .ok r)
    (hwords : ∀ a ∈ arguments, a ∉ Grammar.whole.commands) : ofExplicit arguments = .error .usage := by
  obtain ⟨read, hread, hplain⟩ := exists_root_of_accepted h
  rw [ofExplicit, Grammar.read, (Grammar.reads_of_readFrom hread).readFrom_eq_usage Grammar.convert_agrees_whole rfl
    hwords rfl hplain]
  rfl

end Request

/-- The first argument has a hyphen in front. -/
def BeginsWithHyphen (arguments : List String) : Prop :=
  ∃ first ∈ arguments.head?, first.toList.head? = some '-'

instance (arguments : List String) : Decidable (BeginsWithHyphen arguments) :=
  inferInstanceAs (Decidable (∃ first ∈ arguments.head?, first.toList.head? = some '-'))

section
variable {arguments : List String} {r : Request}

theorem mayOmitConvert_iff (hne : arguments ≠ []) (hwords : ∀ a ∈ arguments, a ∉ Grammar.whole.commands) :
    Request.mayOmitConvert arguments = true ↔ ¬BeginsWithHyphen arguments := by
  obtain ⟨first, rest, rfl⟩ := List.exists_cons_of_ne_nil hne
  have hword := hwords first List.mem_cons_self
  simp [Request.mayOmitConvert, BeginsWithHyphen, hword]

/-- Accepted arguments of `convert` are accepted without its name unless they begin with a hyphen. -/
theorem ofArguments_of_accepted (h : Request.ofArguments ("convert" :: arguments) = .ok r)
    (hwords : ∀ a ∈ arguments, a ∉ Grammar.whole.commands) :
    Request.ofArguments arguments = if BeginsWithHyphen arguments then .error .usage else .ok r := by
  have hne : arguments ≠ [] := by
    rintro rfl
    cases h
  rw [Request.ofArguments, Request.ofExplicit_of_accepted h hwords]
  simp only [mayOmitConvert_iff hne hwords, ite_not, ← Request.ofArguments_convert, h]

end

/-! ## Runs -/

theorem status_convert_ne (root output : String) (settings : Settings) (files : FileTree) :
    (convert root output settings files).1.status ≠ 2 := by
  unfold convert
  split <;> simp [Outcome.success, Outcome.failure, Outcome.crash]

theorem status_inspect_ne (path : String) (transform output : Option String) (settings : Settings)
    (files : FileTree) : (inspect path transform output settings files).1.status ≠ 2 := by
  unfold inspect
  split
  · simp [Outcome.failure]
  · split
    · split <;> simp [Outcome.failure, Outcome.crash]
    · split
      · simp [Outcome.success]
      · split <;> simp [Outcome.success, Outcome.failure]

/-- The status 2 is that of arguments that make no sense. -/
theorem status_perform_ne (r : Request) (files : FileTree) : (perform r files).1.status ≠ 2 := by
  unfold perform
  split
  · simp [Outcome.success]
  · split
    · simp [Outcome.crash]
    · simp [Outcome.failure]
    · split
      · exact status_convert_ne _ _ _ _
      · exact status_inspect_ne _ _ _ _ _
      · simp [Outcome.failure]

/-- **The name of the usual command may be left out exactly where no hyphen follows.** For arguments that are accepted
after `convert` and have no name of a command among them, the program does the same without `convert` when the first
of them has no hyphen in front, whatever the order of the others. When it has one, the arguments make no sense
without `convert`, and no file is changed. -/
theorem convert_optional_iff {arguments : List String} {r : Request}
    (h : Request.ofArguments ("convert" :: arguments) = .ok r)
    (hwords : ∀ a ∈ arguments, a ∉ ["convert", "inspect", "help"]) (files : FileTree) :
    (run arguments files = run ("convert" :: arguments) files ↔ ¬BeginsWithHyphen arguments) ∧
      (BeginsWithHyphen arguments → run arguments files = (refuse .usage, files)) := by
  have hargs := ofArguments_of_accepted h hwords
  have hnamed : run ("convert" :: arguments) files = perform r files := by rw [run, h]
  by_cases hhyphen : BeginsWithHyphen arguments
  · have hrefused : run arguments files = (refuse .usage, files) := by
      rw [run, hargs, if_pos hhyphen]
    refine ⟨⟨fun hsame => ?_, fun hno => absurd hhyphen hno⟩, fun _ => hrefused⟩
    -- nothing that is accepted ends with this status
    have hstatus : (perform r files).1.status = 2 := by rw [← hnamed, ← hsame, hrefused]; rfl
    exact absurd hstatus (status_perform_ne r files)
  · have hsame : run arguments files = run ("convert" :: arguments) files := by
      rw [hnamed, run, hargs, if_neg hhyphen]
    exact ⟨⟨fun _ => hhyphen, fun _ => hsame⟩, fun hyes => absurd hyes hhyphen⟩

/-- The package document of a book with one chapter. -/
def kitPackage : String :=
  "<package><manifest><item id='a' href='a.xhtml'/></manifest><spine><itemref idref='a'/></spine></package>"

/-- A book with one chapter, and settings beside it. -/
def kitFiles : FileTree := FileTree.ofList [
  (["book", "nav.xhtml"], .file (.text "<nav><ol></ol></nav>")),
  (["book", "content.opf"], .file (.text kitPackage)),
  (["book", "a.xhtml"], .file (.text (Book.smallChapter "one"))),
  (["kit.toml"], .file (.text "output.static_files = false"))] []

/-- What the settings and the arguments ask for. -/
def kitSettings : Settings where
  output := { staticFiles := false }

/-- The book and the directories of its catalog. -/
def kitLaid : FileTree := ((Book.setUp "out" kitSettings.options).on kitFiles).2

/-- The book and a catalog that lacks only the chapter. -/
def kitTree : FileTree := ((Book.write "out/SwiftBook.md" "# ``Swift``\n\n## Topics\n").on kitLaid).2

/-- What is made of the book before its chapter is written. -/
def kitPrepared : Book.Prepared where
  chapters := [("out/a.md", "one\n")]
  assetsCopied := 0
  anchorsCollected := 0

/-- The book and its catalog. -/
def kitFinal : FileTree := ((Book.writeTexts kitPrepared.chapters).on kitTree).2

theorem steps_kitFiles :
    ((Book.setUp "out" kitSettings.options).on kitFiles).1 = .ok () ∧
    kitLaid.isDirectory "book/_images" = false ∧
    kitLaid.readText (FilePath.join "book" kitSettings.options.contents) = .ok "<nav><ol></ol></nav>" ∧
    ((Book.write "out/SwiftBook.md" "# ``Swift``\n\n## Topics\n").on kitLaid).1 = .ok () ∧
    ((Book.writeTexts kitPrepared.chapters).on kitTree).1 = .ok () := by
  decide +kernel

theorem run_kitFiles :
    Book.run "book" "out" kitSettings.options kitFiles = (.ok kitPrepared.report, kitFinal) := by
  obtain ⟨himages, -, hlanding⟩ := Book.paths_smallBook
  obtain ⟨hset, hno, hcontents, hwrite, hchapters⟩ := steps_kitFiles
  have hlay : (Book.layOut "book" "out" kitSettings.options).on kitFiles = (.ok 0, kitTree) := by
    have hset : (Book.setUp "out" kitSettings.options).on kitFiles = (.ok (), kitLaid) := by rw [kitLaid, ← hset]
    have hnames : kitLaid.filesIn (FilePath.join "book" kitSettings.options.images) = [] :=
      himages ▸ FileTree.filesIn_of_not_isDirectory hno
    have hwrite : (Book.write (FilePath.join "out" kitSettings.options.landingPage)
        "# ``Swift``\n\n## Topics\n").on kitLaid = (.ok (), kitTree) := by
      rw [show kitSettings.options.landingPage = ({} : BookOptions).landingPage from rfl, hlanding, kitTree, ← hwrite]
    exact Book.on_layOut_of_emptyContents hset hnames rfl hcontents rfl hwrite
  have hspine : (Book.readSpine "book" kitSettings.options).on kitTree = (.ok ["a.xhtml"], kitTree) := by
    have hmanifest : kitTree.readText (FilePath.join "book" kitSettings.options.manifest) = .ok kitPackage ∧
        Spine.ofText kitPackage = .ok ["a.xhtml"] := by decide +kernel
    exact Book.on_readSpine_eq_ok_iff.2 ⟨rfl, _, hmanifest⟩
  have hread : ∀ c ∈ [("a.xhtml", Book.smallChapter "one")],
      kitTree.readText (FilePath.join "book" c.1) = .ok c.2 := by decide +kernel
  refine Book.run_eq_ok_iff.2 ⟨kitPrepared, kitTree, Book.on_prepare_eq_ok_iff.2
    ⟨_, _, hlay, hspine, Book.on_readChapters_eq_ok_iff.2 ⟨rfl, rfl, hread⟩, by decide +kernel⟩, ?_, rfl⟩
  rw [← Book.on_writeTexts_eq_ok_iff, kitFinal, ← hchapters]

/-- The options stand after the root in any order, and the book is converted. -/
theorem convert_optional_kitFiles :
    Request.ofArguments ["convert", "book", "--config=kit.toml", "-oout", "--module-name", "Swift"] =
      .ok ⟨false, some "kit.toml", some "Swift", some (.convert "book" "out")⟩ ∧
    (∀ a ∈ ["book", "--config=kit.toml", "-oout", "--module-name", "Swift"], a ∉ ["convert", "inspect", "help"]) ∧
    run ["convert", "book", "--config=kit.toml", "-oout", "--module-name", "Swift"] kitFiles =
      (.success "", kitFinal) ∧
    run ["book", "--config=kit.toml", "-oout", "--module-name", "Swift"] kitFiles =
      run ["convert", "book", "--config=kit.toml", "-oout", "--module-name", "Swift"] kitFiles := by
  have haccepted : Request.ofArguments ["convert", "book", "--config=kit.toml", "-oout", "--module-name", "Swift"] =
      .ok ⟨false, some "kit.toml", some "Swift", some (.convert "book" "out")⟩ := rfl
  have hwords : ∀ a ∈ ["book", "--config=kit.toml", "-oout", "--module-name", "Swift"],
      a ∉ ["convert", "inspect", "help"] := by decide
  have hload : Settings.load (sources ⟨false, some "kit.toml", some "Swift", some (.convert "book" "out")⟩) kitFiles =
      .ok kitSettings := by decide +kernel
  refine ⟨haccepted, hwords, ?_, (convert_optional_iff haccepted hwords kitFiles).1.2 (by decide)⟩
  rw [run, haccepted]
  simp [perform, hload, convert, run_kitFiles]

/-- An option in front of the root is refused without the name of the command, and taken after it. -/
theorem option_before_root_refused :
    Request.ofArguments ["convert", "--output", "out", "book"] =
      .ok ⟨false, none, none, some (.convert "book" "out")⟩ ∧
    (∀ a ∈ ["--output", "out", "book"], a ∉ ["convert", "inspect", "help"]) ∧
    ∀ files, run ["--output", "out", "book"] files = (refuse .usage, files) ∧
      run ["--output", "out", "book"] files ≠ run ["convert", "--output", "out", "book"] files := by
  have haccepted : Request.ofArguments ["convert", "--output", "out", "book"] =
      .ok ⟨false, none, none, some (.convert "book" "out")⟩ := rfl
  have hrefused : Request.ofArguments ["--output", "out", "book"] = .error .usage := rfl
  refine ⟨haccepted, by decide, fun files => ⟨by rw [run, hrefused], ?_⟩⟩
  rw [run, hrefused, run, haccepted]
  intro hsame
  exact status_perform_ne _ files (congrArg (·.1.status) hsame).symm

end BookCatalog.CommandLine
