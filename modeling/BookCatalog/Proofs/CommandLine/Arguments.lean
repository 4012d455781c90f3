import BookCatalog.CommandLine.Arguments
import BookCatalog.Proofs.Results

/-!
# Accepted arguments

What the arguments give is gathered one argument after the other (`Grammar.Reads`). Every argument without a
hyphen has to be what its place asks for, which each step keeps (`Given.Fits`). So a transform that is asked for by
name is one of those that are listed (`mem_available_of_command`), and conversely every page can be asked for under
every listed transform, whatever the texts of the page's path and of the settings are (`ofArguments_inspection`).
-/

namespace BookCatalog.CommandLine

namespace Switch

/-- The argument that gives an option its value. -/
def assign (s : Switch) (value : String) : String := "--" ++ s.longName ++ "=" ++ value

variable (s : Switch) (value : String)

theorem toList_assign :
    (s.assign value).toList = '-' :: '-' :: (s.longName.toList ++ '=' :: value.toList) := by
  simp [assign, String.toList_append]

theorem not_mem_longName : '=' ∉ s.longName.toList := by
  cases s <;> decide

/-- The equals sign tells such an argument from hyphens alone. -/
theorem assign_ne {hyphens : String} (h : '=' ∉ hyphens.toList) : s.assign value ≠ hyphens := by
  rintro rfl
  simp [toList_assign] at h

end Switch

/-! ## Arguments in their places -/

namespace Given

/-- Every argument without a hyphen is what its place asks for. -/
def Fits (grammar : Grammar) (given : Given) : Prop :=
  ∀ (n : Nat) (argument : String), given.plain[n]? = some argument →
    ∃ wanted, grammar.places[n]? = some wanted ∧ wanted argument = true

variable {grammar : Grammar} {given given' : Given} {s : Switch} {argument : String}

theorem fits_empty : Fits grammar {} := fun n argument h => by simp at h

theorem Fits.of_plain_eq (h : given.Fits grammar) (hplain : given'.plain = given.plain) : given'.Fits grammar := by
  intro n argument hn
  exact h n argument (hplain ▸ hn)

theorem addValue_eq_ok_iff : given.addValue s argument = .ok given' ↔
    given.value? s = none ∧ given' = { given with values := given.values ++ [(s, argument)] } := by
  unfold addValue
  cases given.value? s <;> simp [eq_comm]

theorem plain_of_addFlag (h : given.addFlag s = .ok given') : given'.plain = given.plain := by
  unfold addFlag at h
  split at h
  · cases h
  · cases h
  · split at h
    · cases h
    · cases h
      rfl

theorem Fits.addPlain (h : given.Fits grammar) (hadd : given.addPlain grammar argument = .ok given') :
    given'.Fits grammar := by
  unfold Given.addPlain at hadd
  split at hadd
  · rename_i wanted hwanted
    split at hadd
    · rename_i hfits
      cases hadd
      intro n a hn
      simp only [List.getElem?_append, List.getElem?_singleton] at hn
      split at hn
      · exact h n a hn
      · split at hn
        · rename_i hlast
          -- the new argument stands in the place after those that are given
          obtain rfl : n = given.plain.length := by omega
          cases hn
          exact ⟨wanted, hwanted, hfits⟩
        · cases hn
    · cases hadd
  · cases hadd

end Given

namespace Grammar

variable {grammar : Grammar} {given given' : Given} {pending : Option Switch} {plainOnly : Bool}

theorem map_beside_eq_ok_iff {x : Except Refusal Given} {next : Option Switch} :
    x.map (·, next) = .ok (given', pending) ↔ x = .ok given' ∧ pending = next := by
  cases x <;> simp [Except.map, eq_comm]

theorem plain_of_readLong {cs : List Char} (h : grammar.readLong given cs = .ok (given', pending)) :
    given'.plain = given.plain := by
  unfold readLong at h
  simp only at h
  split at h
  · cases h
  · split at h
    · obtain ⟨-, rfl⟩ := Given.addValue_eq_ok_iff.1 (map_beside_eq_ok_iff.1 h).1
      rfl
    · cases h
  · split at h
    · cases h
      rfl
    · exact Given.plain_of_addFlag (map_beside_eq_ok_iff.1 h).1

theorem plain_of_readShort : ∀ {cs : List Char} {given : Given},
    grammar.readShort given cs = .ok (given', pending) → given'.plain = given.plain
  | [], _, h => by
    cases h
    rfl
  | c :: rest, given, h => by
    unfold readShort at h
    split at h
    · cases h
    · split at h
      · split at h
        · cases h
          rfl
        all_goals
          obtain ⟨-, rfl⟩ := Given.addValue_eq_ok_iff.1 (map_beside_eq_ok_iff.1 h).1
          rfl
      · split at h
        · rename_i flagged hflag
          rw [plain_of_readShort h, Given.plain_of_addFlag hflag]
        · cases h

/-! ## Readings -/

/-- An argument that is taken for options is two hyphens alone, or begins with two hyphens, or with one. -/
theorem option_cases {argument : String} (h : looksLikeOption argument = true) :
    argument = "--" ∨ (∃ c cs, argument.toList = '-' :: '-' :: c :: cs) ∨
      ∃ c cs, argument.toList = '-' :: c :: cs ∧ c ≠ '-' := by
  rw [looksLikeOption, Bool.and_eq_true, decide_eq_true_iff, decide_eq_true_iff] at h
  obtain ⟨hhead, hne⟩ := h
  obtain ⟨cs, hcs⟩ := List.head?_eq_some_iff.1 hhead
  cases cs with
  | nil => exact absurd (String.toList_inj.1 hcs) hne
  | cons d rest =>
    by_cases hd : d = '-'
    · subst hd
      cases rest with
      | nil => exact .inl (String.toList_inj.1 hcs)
      | cons c more => exact .inr (.inl ⟨c, more, hcs⟩)
    · exact .inr (.inr ⟨d, rest, hcs, hd⟩)

theorem looksLikeOption_of_toList {argument : String} {c : Char} {cs : List Char}
    (h : argument.toList = '-' :: c :: cs) : looksLikeOption argument = true := by
  have hne : argument ≠ "-" := by
    rintro rfl
    cases h
  simp [looksLikeOption, h, hne]

variable {s : Switch} {argument : String} {rest : List String} {c : Char} {cs : List Char}

theorem readFrom_value (h : looksLikeOption argument = false) :
    grammar.readFrom given (some s) plainOnly (argument :: rest) =
      given.addValue s argument >>= fun given => grammar.readFrom given none false rest := by
  rw [readFrom]
  simp only [h, Bool.false_eq_true, if_false]
  cases given.addValue s argument <;> rfl

theorem readFrom_plain (h : plainOnly = true ∨ looksLikeOption argument = false ∧ argument ∉ grammar.commands) :
    grammar.readFrom given none plainOnly (argument :: rest) =
      given.addPlain grammar argument >>= fun given => grammar.readFrom given none plainOnly rest := by
  have hplain : (plainOnly || !looksLikeOption argument) = true := by
    rcases h with rfl | ⟨h, -⟩ <;> simp [*]
  have hcommand : ¬(!plainOnly && decide (argument ∈ grammar.commands)) = true := by
    rcases h with rfl | ⟨-, h⟩ <;> simp [*]
  rw [readFrom]
  simp only [hplain, if_true, hcommand]
  cases given.addPlain grammar argument <;> rfl

/-- What follows two hyphens alone is taken as it is. -/
theorem readFrom_marked (given : Given) (plain : List String) :
    grammar.readFrom given none false ("--" :: plain) = grammar.readFrom given none true plain := by
  have hoption : looksLikeOption "--" = true := by decide
  rw [readFrom]
  simp [hoption]

theorem readFrom_long (h : argument.toList = '-' :: '-' :: c :: cs) :
    grammar.readFrom given none false (argument :: rest) =
      grammar.readLong given (c :: cs) >>= fun next => grammar.readFrom next.1 next.2 false rest := by
  have hne : argument ≠ "--" := by
    rintro rfl
    cases h
  rw [readFrom]
  simp only [looksLikeOption_of_toList h, Bool.not_true, Bool.or_self, Bool.false_eq_true, if_false, hne, h]
  cases grammar.readLong given (c :: cs) <;> rfl

theorem readFrom_short (h : argument.toList = '-' :: c :: cs) (hc : c ≠ '-') :
    grammar.readFrom given none false (argument :: rest) =
      grammar.readShort given (c :: cs) >>= fun next => grammar.readFrom next.1 next.2 false rest := by
  have hne : argument ≠ "--" := by
    rintro rfl
    cases h
    exact hc rfl
  rw [readFrom]
  -- so the argument is none that begins with two hyphens
  have hlong : ∀ tail, '-' :: c :: cs = '-' :: '-' :: tail → False := by
    intro tail htail
    cases htail
    exact hc rfl
  simp only [looksLikeOption_of_toList h, Bool.not_true, Bool.or_self, Bool.false_eq_true, if_false, hne, h]
  rw [List.drop_succ_cons, List.drop_zero]
  cases grammar.readShort given (c :: cs) <;> rfl

/-- How arguments are read, one after the other. -/
inductive Reads (grammar : Grammar) : Given → Option Switch → Bool → List String → Given → Prop where
  | done {given : Given} {plainOnly : Bool} : Reads grammar given none plainOnly [] given
  /-- The value of an option. -/
  | value {given added read : Given} {s : Switch} {plainOnly : Bool} {argument : String} {rest : List String} :
      looksLikeOption argument = false → given.addValue s argument = .ok added →
      Reads grammar added none false rest read → Reads grammar given (some s) plainOnly (argument :: rest) read
  | command {given : Given} {argument : String} {rest : List String} :
      looksLikeOption argument = false → argument ∈ grammar.commands →
      Reads grammar given none false (argument :: rest) { given with command := some (argument, rest) }
  | plain {given added read : Given} {plainOnly : Bool} {argument : String} {rest : List String} :
      plainOnly = true ∨ looksLikeOption argument = false ∧ argument ∉ grammar.commands →
      given.addPlain grammar argument = .ok added → Reads grammar added none plainOnly rest read →
      Reads grammar given none plainOnly (argument :: rest) read
  /-- Two hyphens alone. -/
  | marked {given read : Given} {rest : List String} :
      Reads grammar given none true rest read → Reads grammar given none false ("--" :: rest) read
  | long {given added read : Given} {pending : Option Switch} {argument : String} {rest : List String}
      {c : Char} {cs : List Char} :
      argument.toList = '-' :: '-' :: c :: cs → grammar.readLong given (c :: cs) = .ok (added, pending) →
      Reads grammar added pending false rest read → Reads grammar given none false (argument :: rest) read
  | short {given added read : Given} {pending : Option Switch} {argument : String} {rest : List String}
      {c : Char} {cs : List Char} :
      argument.toList = '-' :: c :: cs → c ≠ '-' → grammar.readShort given (c :: cs) = .ok (added, pending) →
      Reads grammar added pending false rest read → Reads grammar given none false (argument :: rest) read

theorem reads_of_readFrom : ∀ {arguments : List String} {given read : Given} {pending : Option Switch}
    {plainOnly : Bool}, grammar.readFrom given pending plainOnly arguments = .ok read →
      Reads grammar given pending plainOnly arguments read
  | [], given, read, pending, plainOnly, h => by
    cases pending with
    | none =>
      obtain rfl := Except.ok.inj h
      exact .done
    | some s => cases h
  | argument :: rest, given, read, some s, plainOnly, h => by
    cases hoption : looksLikeOption argument with
    | true =>
      rw [readFrom] at h
      simp only [hoption, if_true] at h
      cases h
    | false =>
      rw [readFrom_value hoption] at h
      obtain ⟨added, hadd, hrest⟩ := bind_eq_ok_iff.1 h
      exact .value hoption hadd (reads_of_readFrom hrest)
  | argument :: rest, given, read, none, plainOnly, h => by
    have hplain (hwhere : plainOnly = true ∨ looksLikeOption argument = false ∧ argument ∉ grammar.commands) :
        Reads grammar given none plainOnly (argument :: rest) read := by
      rw [readFrom_plain hwhere] at h
      obtain ⟨added, hadd, hrest⟩ := bind_eq_ok_iff.1 h
      exact .plain hwhere hadd (reads_of_readFrom hrest)
    cases plainOnly with
    | true => exact hplain (.inl rfl)
    | false =>
      cases hoption : looksLikeOption argument with
      | false =>
        by_cases hcommand : argument ∈ grammar.commands
        · rw [readFrom] at h
          simp only [hoption, Bool.not_false, Bool.or_true, if_true, hcommand, decide_true, Bool.and_true] at h
          obtain rfl := Except.ok.inj h
          exact .command hoption hcommand
        · exact hplain (.inr ⟨hoption, hcommand⟩)
      | true =>
        rcases option_cases hoption with rfl | ⟨c, cs, hcs⟩ | ⟨c, cs, hcs, hc⟩
        · rw [readFrom_marked] at h
          exact .marked (reads_of_readFrom h)
        · rw [readFrom_long hcs] at h
          obtain ⟨⟨added, pending⟩, hread, hrest⟩ := bind_eq_ok_iff.1 h
          exact .long hcs hread (reads_of_readFrom hrest)
        · rw [readFrom_short hcs hc] at h
          obtain ⟨⟨added, pending⟩, hread, hrest⟩ := bind_eq_ok_iff.1 h
          exact .short hcs hc hread (reads_of_readFrom hrest)

/-- **Reading keeps every argument in its place**, one argument after the other. -/
theorem Reads.fits {arguments : List String} {read : Given}
    (h : Reads grammar given pending plainOnly arguments read) (hfits : given.Fits grammar) :
    read.Fits grammar := by
  induction h with
  | done => exact hfits
  | value _ hadd _ ih =>
    obtain ⟨-, rfl⟩ := Given.addValue_eq_ok_iff.1 hadd
    exact ih (hfits.of_plain_eq rfl)
  | command => exact hfits.of_plain_eq rfl
  | plain _ hadd _ ih => exact ih (hfits.addPlain hadd)
  | marked _ ih => exact ih hfits
  | long _ hread _ ih => exact ih (hfits.of_plain_eq (plain_of_readLong hread))
  | short _ _ hread _ ih => exact ih (hfits.of_plain_eq (plain_of_readShort hread))

theorem fits_of_read {arguments : List String} (h : grammar.read arguments = .ok given) : given.Fits grammar :=
  (reads_of_readFrom h).fits Given.fits_empty

/-! ## Options with their values -/

theorem looksLikeOption_assign (s : Switch) (value : String) : looksLikeOption (s.assign value) = true := by
  rw [looksLikeOption, s.toList_assign, Bool.and_eq_true, decide_eq_true_iff, decide_eq_true_iff]
  exact ⟨rfl, s.assign_ne value (by decide)⟩

/-- A value after an equals sign is the value of the option in front of it. -/
theorem readFrom_assign {s : Switch} (hs : grammar.long? s.longName = some s) (htakes : s.takesValue = true)
    (hnew : given.value? s = none) (value : String) (rest : List String) :
    grammar.readFrom given none false (s.assign value :: rest) =
      grammar.readFrom { given with values := given.values ++ [(s, value)] } none false rest := by
  have hcut : Text.splitFirst? (· == '=') (s.longName.toList ++ '=' :: value.toList) =
      some (s.longName.toList, value.toList) :=
    Text.splitFirst?_append_cons (by decide) _ (Text.beq_eq_false_of_not_mem s.not_mem_longName)
  have hlong : grammar.readLong given (s.longName.toList ++ '=' :: value.toList) =
      .ok ({ given with values := given.values ++ [(s, value)] }, none) := by
    simp [readLong, hcut, hs, htakes, Given.addValue, hnew, Except.map]
  have hne : s.assign value ≠ "--" := s.assign_ne value (by decide)
  rw [readFrom]
  simp [looksLikeOption_assign, hne, s.toList_assign, hlong]

/-- Values of different options are all taken. -/
theorem readFrom_assignments (rest : List String) : ∀ {values : List (Switch × String)} {given : Given},
    (∀ v ∈ values, grammar.long? v.1.longName = some v.1 ∧ v.1.takesValue = true) →
    ((given.values ++ values).map Prod.fst).Nodup →
    grammar.readFrom given none false (values.map (fun v => v.1.assign v.2) ++ rest) =
      grammar.readFrom { given with values := given.values ++ values } none false rest
  | [], given, _, _ => by simp
  | (s, value) :: values, given, hswitches, hnodup => by
    obtain ⟨⟨hs, htakes⟩, hrest⟩ := List.forall_mem_cons.1 hswitches
    have hnew : given.value? s = none := by
      refine List.lookup_eq_none_iff.2 fun v hv => bne_iff_ne.2 ?_
      rw [List.map_append, List.nodup_append] at hnodup
      rintro rfl
      exact hnodup.2.2 _ (List.mem_map_of_mem hv) _ (List.mem_map_of_mem List.mem_cons_self) rfl
    have hmore : (((given.values ++ [(s, value)]) ++ values).map Prod.fst).Nodup := by
      simpa using hnodup
    rw [List.map_cons, List.cons_append, readFrom_assign hs htakes hnew, readFrom_assignments rest hrest hmore,
      List.append_assoc, List.singleton_append]

end Grammar

/-! ## Accepted requests -/

namespace Request

variable {arguments : List String} {r : Request}

theorem mem_available_of_ofCommand {whole : Given} {command path t : String} {output : Option String}
    (h : ofCommand whole command arguments = .ok r) (hr : r.command = some (.inspect path (some t) output)) :
    t ∈ Transform.available := by
  unfold ofCommand at h
  split at h
  · obtain ⟨given, -, h⟩ := bind_eq_ok_iff.1 h
    split at h
    · cases h
      cases hr
    · cases h
  · obtain ⟨given, hread, h⟩ := bind_eq_ok_iff.1 h
    split at h
    · rename_i path' rest hplain
      cases h
      simp only [ofGiven, Option.some.injEq, Command.inspect.injEq] at hr
      have hgiven : given.plain[1]? = some t := by
        rw [hplain, List.getElem?_cons_succ, ← List.head?_eq_getElem?]
        exact hr.2.1
      obtain ⟨wanted, hwanted, ht⟩ := Grammar.fits_of_read hread 1 t hgiven
      cases hwanted
      exact List.contains_iff_mem.1 ht
    · cases h
  · cases h

theorem mem_available_of_ofExplicit {path t : String} {output : Option String}
    (h : ofExplicit arguments = .ok r) (hr : r.command = some (.inspect path (some t) output)) :
    t ∈ Transform.available := by
  obtain ⟨given, -, h⟩ := bind_eq_ok_iff.1 h
  split at h
  · exact mem_available_of_ofCommand h hr
  · split at h
    · cases h
    · cases h
      cases hr

/-- **A transform that is asked for by name is a listed one.** -/
theorem mem_available_of_command {path t : String} {output : Option String}
    (h : ofArguments arguments = .ok r) (hr : r.command = some (.inspect path (some t) output)) :
    t ∈ Transform.available := by
  unfold ofArguments at h
  split at h
  · rename_i hexplicit
    cases h
    exact mem_available_of_ofExplicit hexplicit hr
  · split at h
    · exact mem_available_of_ofExplicit h hr
    · cases h

/-- The values that settings and the name of a module are asked for with. -/
def settingValues (config moduleName : Option String) : List (Switch × String) :=
  config.toList.map (.config, ·) ++ moduleName.toList.map (.moduleName, ·)

/-- Arguments that ask for a page to be shown under a transform. -/
def inspection (config moduleName : Option String) (path transform : String) : List String :=
  "inspect" :: ((settingValues config moduleName).map (fun v => v.1.assign v.2) ++ ["--", path, transform])

theorem read_inspection (config moduleName : Option String) (path : String) {transform : String}
    (h : transform ∈ Transform.available) :
    Grammar.inspect.read ((settingValues config moduleName).map (fun v => v.1.assign v.2) ++
        ["--", path, transform]) =
      .ok { values := settingValues config moduleName, plain := [path, transform] } := by
  have hswitches : ∀ v ∈ settingValues config moduleName,
      Grammar.inspect.long? v.1.longName = some v.1 ∧ v.1.takesValue = true := by
    have hcases : ∀ v ∈ settingValues config moduleName, v.1 = .config ∨ v.1 = .moduleName := by
      simp [settingValues, or_imp, forall_and]
    intro v hv
    rcases hcases v hv with h | h <;> rw [h] <;> decide
  have hnodup : ((([] : List (Switch × String)) ++ settingValues config moduleName).map Prod.fst).Nodup := by
    cases config <;> cases moduleName <;> simp [settingValues]
  rw [Grammar.read, Grammar.readFrom_assignments _ hswitches hnodup, Grammar.readFrom_marked]
  simp [Grammar.readFrom, Given.addPlain, Grammar.inspect, h]

/-- **Every page can be asked for under every listed transform**, with any settings. -/
theorem ofArguments_inspection (config moduleName : Option String) (path : String) {transform : String}
    (h : transform ∈ Transform.available) :
    ofArguments (inspection config moduleName path transform) =
      .ok ⟨false, config, moduleName, some (.inspect path (some transform) none)⟩ := by
  have hwhole : Grammar.whole.read (inspection config moduleName path transform) =
      .ok { command := some ("inspect", (inspection config moduleName path transform).tail) } := rfl
  have hexplicit : ofExplicit (inspection config moduleName path transform) =
      .ok ⟨false, config, moduleName, some (.inspect path (some transform) none)⟩ := by
    rw [ofExplicit, hwhole]
    show ofCommand _ "inspect" _ = _
    simp only [ofCommand, inspection, List.tail_cons, read_inspection config moduleName path h]
    cases config <;> cases moduleName <;> rfl
  rw [ofArguments, hexplicit]

end Request

end BookCatalog.CommandLine
