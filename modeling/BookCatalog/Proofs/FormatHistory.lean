import BookCatalog.Format
import BookCatalog.Proofs.ByteOrder
import Mathlib.Data.List.Nodup

/-!
# The history of a format registry

A registry is known from the formats that have been registered in it, one after the other. Under every name
it holds the one that came last, and every registration keeps that (`HoldsLatest.register`). So whatever a
registry is asked for, it answers from the last formats of their names (`registerAll_answers`): a format that
has been replaced is neither found nor detected, in whatever order the formats of the registry are gone
through.
-/

namespace BookCatalog.FormatRegistry

/-! ## The formats of a registry -/

section
variable {r : FormatRegistry} {f g : Format} {name : String}

theorem get?_eq_some_iff : r.get? name = some f ↔ f ∈ r.formats ∧ f.name = name := by
  refine ⟨fun h => ⟨List.mem_of_find?_eq_some h, by simpa using List.find?_some h⟩, ?_⟩
  rintro ⟨hmem, rfl⟩
  cases hfound : r.get? f.name with
  | none => simpa using List.find?_eq_none.1 hfound f hmem
  | some g =>
    have hname : g.name = f.name := by simpa using List.find?_some hfound
    rw [List.inj_on_of_nodup_map r.distinct (List.mem_of_find?_eq_some hfound) hmem hname]

theorem mem_formats_iff : f ∈ r.formats ↔ r.get? f.name = some f := by simp [get?_eq_some_iff]

theorem mem_formats_register_iff :
    g ∈ (r.register f).formats ↔ g = f ∨ g ∈ r.formats ∧ g.name ≠ f.name := by
  simp [register, replaceIn]

theorem get?_register (r : FormatRegistry) (f : Format) (name : String) :
    (r.register f).get? name = if f.name = name then some f else r.get? name := by
  refine Option.ext fun g => ?_
  rw [get?_eq_some_iff, mem_formats_register_iff]
  by_cases h : f.name = name
  · rw [if_pos h, Option.some_inj]
    constructor
    · rintro ⟨rfl | ⟨-, hne⟩, hname⟩
      · rfl
      · exact absurd (hname.trans h.symm) hne
    · rintro rfl
      exact ⟨.inl rfl, h⟩
  · rw [if_neg h, get?_eq_some_iff]
    constructor
    · rintro ⟨rfl | ⟨hmem, -⟩, hname⟩
      · exact absurd hname h
      · exact ⟨hmem, hname⟩
    · rintro ⟨hmem, hname⟩
      exact ⟨.inr ⟨hmem, fun hf => h (hf.symm.trans hname)⟩, hname⟩

end

/-! ## The last format of every name -/

/-- The registry after some registrations. -/
def registerAll (r : FormatRegistry) (formats : List Format) : FormatRegistry := formats.foldl register r

/-- The last of some formats that has a name. -/
def latest? (name : String) (history : List Format) : Option Format :=
  history.reverse.find? (·.name = name)

/-- A format that is the last one of its name. -/
def IsHeld (f : Format) (history : List Format) : Prop := latest? f.name history = some f

/-- A registry that holds the last format of every name. -/
def HoldsLatest (r : FormatRegistry) (history : List Format) : Prop :=
  ∀ name, r.get? name = latest? name history

theorem latest?_concat (name : String) (history : List Format) (f : Format) :
    latest? name (history ++ [f]) = if f.name = name then some f else latest? name history := by
  unfold latest?
  rw [List.reverse_append, List.reverse_singleton, List.singleton_append, List.find?_cons]
  by_cases h : f.name = name <;> simp [h]

theorem mem_of_latest?_eq_some {name : String} {history : List Format} {f : Format}
    (h : latest? name history = some f) : f ∈ history ∧ f.name = name :=
  ⟨List.mem_reverse.1 (List.mem_of_find?_eq_some h), by simpa using List.find?_some h⟩

theorem isSome_latest?_iff {name : String} {history : List Format} :
    (latest? name history).isSome ↔ name ∈ history.map Format.name := by simp [latest?]

/-- **A registration keeps the last format of every name.** -/
theorem HoldsLatest.register {r : FormatRegistry} {history : List Format} (h : r.HoldsLatest history)
    (f : Format) : (r.register f).HoldsLatest (history ++ [f]) := by
  intro name
  rw [get?_register, latest?_concat, h name]

/-- Registrations keep the last format of every name. -/
theorem HoldsLatest.registerAll {r : FormatRegistry} : ∀ {formats history : List Format},
    r.HoldsLatest history → (r.registerAll formats).HoldsLatest (history ++ formats)
  | [], history, h => by rwa [List.append_nil]
  | f :: rest, history, h => by
    have hrest : ((r.register f).registerAll rest).HoldsLatest (history ++ [f] ++ rest) :=
      (h.register f).registerAll
    rwa [List.append_assoc] at hrest

theorem holdsLatest_empty : empty.HoldsLatest [] := fun _ => rfl

theorem holdsLatest_builtIn : builtIn.HoldsLatest [.markdown, .json] :=
  (holdsLatest_empty.register .markdown).register .json

/-! ## Names -/

theorem has_iff {r : FormatRegistry} {name : String} : r.has name = true ↔ name ∈ r.names := by
  rw [has, Option.isSome_iff_exists, names, List.mem_mergeSort, List.mem_map]
  exact exists_congr fun f => get?_eq_some_iff

theorem pairwise_names (r : FormatRegistry) : r.names.Pairwise (· < ·) := by
  have hsorted : r.names.Pairwise (· ≤ ·) := by
    refine (List.pairwise_mergeSort ?_ ?_ _).imp of_decide_eq_true
    · intro a b c hab hbc
      simp only [decide_eq_true_eq] at hab hbc ⊢
      exact String.le_trans hab hbc
    · intro a b
      simpa using String.le_total a b
  have hdistinct : r.names.Nodup := (List.mergeSort_perm _ _).nodup_iff.2 r.distinct
  refine (hsorted.and hdistinct).imp fun {a b} ⟨hle, hne⟩ => ?_
  exact String.not_le.1 fun hge => hne (String.le_antisymm hle hge)

/-! ## Detection -/

/-- How the name of a file tells a format, when the formats of a registry are gone through in the order of
`entries` and have been registered in the order of `history`. -/
structure Detects (entries history : List Format) : Prop where
  of_eq_some : ∀ {fileName name}, detectAmong entries fileName = some name →
    ∃ extension f, FilePath.extension? fileName = some extension ∧ latest? name history = some f ∧
      f.claims extension = true
  without_extension : ∀ {fileName}, FilePath.extension? fileName = none →
    detectAmong entries fileName = none
  unclaimed : ∀ {fileName extension}, FilePath.extension? fileName = some extension →
    (∀ f, IsHeld f history → f.claims extension = false) → detectAmong entries fileName = none
  sole : ∀ {fileName extension f}, FilePath.extension? fileName = some extension → IsHeld f history →
    f.claims extension = true → (∀ g, IsHeld g history → g.claims extension = true → g = f) →
      detectAmong entries fileName = some f.name
  replaced : ∀ {fileName extension}, FilePath.extension? fileName = some extension →
    (∀ f ∈ history, f.claims extension = true → ¬IsHeld f history) →
      detectAmong entries fileName = none

section
variable {entries history : List Format} {fileName extension : String}

theorem detectAmong_of_extension (h : FilePath.extension? fileName = some extension) :
    detectAmong entries fileName = (entries.find? (·.claims extension)).map Format.name := by
  unfold detectAmong
  rw [h, Option.bind_eq_bind, Option.bind_some]
  cases entries.find? (·.claims extension) <;> rfl

theorem claims_of_find? {f : Format} (h : entries.find? (·.claims extension) = some f) :
    f ∈ entries ∧ f.claims extension = true :=
  ⟨List.mem_of_find?_eq_some h, by simpa using List.find?_some h⟩

theorem detectAmong_eq_none (h : FilePath.extension? fileName = some extension)
    (hclaims : ∀ f ∈ entries, f.claims extension = false) : detectAmong entries fileName = none := by
  rw [detectAmong_of_extension h, Option.map_eq_none_iff, List.find?_eq_none]
  exact fun f hf => by simp [hclaims f hf]

/-- Formats among which there are those that are held, and no others, are told by what these claim. -/
theorem detects_of_mem_iff (h : ∀ f, f ∈ entries ↔ IsHeld f history) : Detects entries history where
  of_eq_some {fileName name} hsome := by
    cases hextension : FilePath.extension? fileName with
    | none => simp [detectAmong, hextension] at hsome
    | some extension =>
      rw [detectAmong_of_extension hextension] at hsome
      obtain ⟨f, hf, rfl⟩ := Option.map_eq_some_iff.1 hsome
      obtain ⟨hmem, hclaims⟩ := claims_of_find? hf
      exact ⟨extension, f, rfl, (h f).1 hmem, hclaims⟩
  without_extension hnone := by simp [detectAmong, hnone]
  unclaimed hextension hclaims := detectAmong_eq_none hextension fun f hf => hclaims f ((h f).1 hf)
  sole {fileName extension f} hextension hheld hclaims hsole := by
    rw [detectAmong_of_extension hextension]
    cases hfound : entries.find? (·.claims extension) with
    | none => exact absurd hclaims (List.find?_eq_none.1 hfound f ((h f).2 hheld))
    | some g =>
      obtain ⟨hmem, hg⟩ := claims_of_find? hfound
      rw [hsole g ((h g).1 hmem) hg, Option.map_some]
  replaced {fileName extension} hextension hreplaced := by
    refine detectAmong_eq_none hextension fun f hf => Bool.eq_false_iff.2 fun hclaims => ?_
    have hheld := (h f).1 hf
    exact hreplaced f (mem_of_latest?_eq_some hheld).1 hclaims hheld

end

/-! ## Answers -/

/-- What a registry answers after the registrations of `history`. -/
structure Answers (r : FormatRegistry) (history : List Format) : Prop where
  increasing : r.names.Pairwise fun a b => Text.Utf8.encode a.toList < Text.Utf8.encode b.toList
  has_iff : ∀ name, r.has name = true ↔ name ∈ r.names
  mem_names_iff : ∀ name, name ∈ r.names ↔ name ∈ history.map Format.name
  get_eq : ∀ name, r.get name = (latest? name history).elim (.error (.notFound name)) .ok
  render_eq : ∀ d name, r.render d name = (latest? name history).elim (.error (.notFound name)) (·.render d)
  detects : ∀ entries, entries.Perm r.formats → Detects entries history

theorem HoldsLatest.get_eq {r : FormatRegistry} {history : List Format} (h : r.HoldsLatest history)
    (name : String) : r.get name = (latest? name history).elim (.error (.notFound name)) .ok := by
  rw [get, h name]
  cases latest? name history <;> rfl

/-- A registry that holds the last formats of their names answers from them. -/
theorem HoldsLatest.answers {r : FormatRegistry} {history : List Format} (h : r.HoldsLatest history) :
    r.Answers history where
  increasing := r.pairwise_names.imp fun hlt => Text.Utf8.encode_lt_encode_iff.2 hlt
  has_iff _ := FormatRegistry.has_iff
  mem_names_iff name := by rw [← FormatRegistry.has_iff, has, h name, isSome_latest?_iff]
  get_eq := h.get_eq
  render_eq d name := by
    rw [render, h.get_eq]
    cases latest? name history <;> rfl
  detects entries hperm := detects_of_mem_iff fun f => by
    rw [hperm.mem_iff, mem_formats_iff, h, IsHeld]

/-- **A registry answers from the formats that were registered last under their names**, whether it was
empty or held the formats that come with the catalog when the registrations began. -/
theorem registerAll_answers (formats : List Format) :
    (empty.registerAll formats).Answers formats ∧
      (builtIn.registerAll formats).Answers ([.markdown, .json] ++ formats) :=
  ⟨holdsLatest_empty.registerAll.answers, holdsLatest_builtIn.registerAll.answers⟩

/-- Markdown that claims no extension takes the place of the one that claims `md`. -/
example : (builtIn.registerAll [{ name := "markdown", render := fun _ => .ok "" }]).detect "a.md" = none := by
  decide

end BookCatalog.FormatRegistry
