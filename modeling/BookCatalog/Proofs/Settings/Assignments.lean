import Mathlib.Logic.Function.Basic
import Mathlib.Tactic.SplitIfs
import BookCatalog.Proofs.Results
import BookCatalog.Settings

/-!
# Settings one by one

The seven settings, each with the group and the name under which a table gives it, and what it means to give
one of them a value. A table of values gives settings (`Gives`) when it has a group for each of them and a
scalar in it. Laying a scalar over one setting changes what is given for that setting and for no other
(`Gives.lay`), and from a table that gives settings of the right types just these settings are read
(`exists_ofValue`).
-/

namespace BookCatalog

/-- A setting. -/
inductive Setting where
  | manifest
  | nav
  | imagesDir
  | moduleName
  | assetsDir
  | navFile
  | staticFiles
  deriving DecidableEq, Repr

namespace Setting

open Settings

/-- The table that a setting belongs to. -/
def group : Setting → String
  | .manifest | .nav | .imagesDir | .moduleName => "book"
  | .assetsDir | .navFile | .staticFiles => "output"

/-- The name of a setting in its table. -/
def name : Setting → String
  | .manifest => "manifest"
  | .nav => "nav"
  | .imagesDir => "images_dir"
  | .moduleName => "module_name"
  | .assetsDir => "assets_dir"
  | .navFile => "nav_file"
  | .staticFiles => "static_files"

/-- All settings. -/
def all : List Setting := [.manifest, .nav, .imagesDir, .moduleName, .assetsDir, .navFile, .staticFiles]

/-- The names of the tables. -/
def groups : List String := ["book", "output"]

/-- The setting of a name in a table. -/
def find? (group name : String) : Option Setting := all.find? fun k => k.group = group && k.name = name

/-- The path to a setting. -/
def path (k : Setting) : KeyPath := ⟨k.group, [.member k.name]⟩

/-- The setting to which a path leads. -/
def ofPath? : KeyPath → Option Setting
  | ⟨group, [.member name]⟩ => find? group name
  | _ => none

/-- Whether a setting is of the type of a scalar. -/
def accepts : Setting → Scalar → Bool
  | .staticFiles, .bool _ => true
  | .staticFiles, _ => false
  | _, .string _ => true
  | _, _ => false

/-- What settings have for a setting. -/
def valueIn (s : Settings) : Setting → Scalar
  | .manifest => .string s.book.manifest
  | .nav => .string s.book.nav
  | .imagesDir => .string s.book.imagesDir
  | .moduleName => .string s.book.moduleName
  | .assetsDir => .string s.output.assetsDir
  | .navFile => .string s.output.navFile
  | .staticFiles => .bool s.output.staticFiles

/-- What the options of a conversion have for a setting. -/
def valueInOptions (o : BookOptions) : Setting → Scalar
  | .manifest => .string o.manifest
  | .nav => .string o.contents
  | .imagesDir => .string o.images
  | .moduleName => .string o.moduleName
  | .assetsDir => .string o.assets
  | .navFile => .string o.landingPage
  | .staticFiles => .bool o.writeStaticFiles

theorem valueInOptions_options (s : Settings) (k : Setting) : k.valueInOptions s.options = k.valueIn s := by
  cases k <;> rfl

/-- Settings that have the same for each setting are the same. -/
theorem eq_of_valueIn {s s' : Settings} (h : ∀ k : Setting, k.valueIn s = k.valueIn s') : s = s' := by
  obtain ⟨⟨_, _, _, _⟩, ⟨_, _, _⟩⟩ := s
  obtain ⟨⟨_, _, _, _⟩, ⟨_, _, _⟩⟩ := s'
  cases h .manifest
  cases h .nav
  cases h .imagesDir
  cases h .moduleName
  cases h .assetsDir
  cases h .navFile
  cases h .staticFiles
  rfl

theorem accepts_valueIn (s : Settings) (k : Setting) : k.accepts (k.valueIn s) = true := by
  cases k <;> rfl

theorem mem_all (k : Setting) : k ∈ all := by
  cases k <;> decide

theorem group_mem_groups (k : Setting) : k.group ∈ groups := by
  cases k <;> decide

theorem eq_of_group_of_name {k k' : Setting} (hgroup : k.group = k'.group) (hname : k.name = k'.name) :
    k = k' := by
  cases k <;> cases k' <;> simp [group, name] at hgroup hname ⊢

theorem group_name_of_find? {group name : String} {k : Setting} (h : find? group name = some k) :
    k.group = group ∧ k.name = name := by
  simpa using List.find?_some h

theorem path_of_ofPath? {p : KeyPath} {k : Setting} (h : ofPath? p = some k) : p = k.path := by
  unfold ofPath? at h
  split at h
  · obtain ⟨hgroup, hname⟩ := group_name_of_find? h
    rw [path, hgroup, hname]
  · cases h

theorem exists_string_of_accepts {k : Setting} {x : Scalar} (h : k.accepts x = true)
    (hk : k ≠ .staticFiles) : ∃ s, x = .string s := by
  cases k <;> cases x <;> simp_all [accepts]

theorem exists_bool_of_accepts {x : Scalar} (h : staticFiles.accepts x = true) : ∃ b, x = .bool b := by
  cases x <;> simp_all [accepts]

end Setting

namespace Settings

/-! ## Assigning -/

/-- A setting and a value for it. -/
abbrev Assignment := Setting × Scalar

/-- The value of the last assignment to a setting. -/
def lastFor (k : Setting) (as : List Assignment) : Option Scalar := as.reverse.lookup k

/-- Values of settings after assignments. -/
def assignAll (a : Setting → Scalar) (as : List Assignment) : Setting → Scalar :=
  as.foldl (fun a p => Function.update a p.1 p.2) a

@[simp] theorem assignAll_nil (a : Setting → Scalar) : assignAll a [] = a := rfl

@[simp] theorem assignAll_cons (a : Setting → Scalar) (p : Assignment) (as : List Assignment) :
    assignAll a (p :: as) = assignAll (Function.update a p.1 p.2) as := rfl

theorem assignAll_append (a : Setting → Scalar) (as bs : List Assignment) :
    assignAll a (as ++ bs) = assignAll (assignAll a as) bs := List.foldl_append

theorem lookup_cons_eq_ite {α β : Type} [DecidableEq α] (a k : α) (b : β) (l : List (α × β)) :
    ((a, b) :: l).lookup k = if k = a then some b else l.lookup k := by
  by_cases h : k = a
  · simp [h]
  · rw [List.lookup_cons, beq_eq_false_iff_ne.2 h, if_neg h]

theorem lastFor_cons (k : Setting) (p : Assignment) (as : List Assignment) :
    lastFor k (p :: as) = (lastFor k as).or (if k = p.1 then some p.2 else none) := by
  rw [lastFor, lastFor, List.reverse_cons, List.lookup_append, lookup_cons_eq_ite, List.lookup_nil]

/-- The last assignment counts. -/
theorem assignAll_apply (a : Setting → Scalar) (as : List Assignment) (k : Setting) :
    assignAll a as k = (lastFor k as).getD (a k) := by
  induction as generalizing a with
  | nil => rfl
  | cons p as ih =>
    rw [assignAll_cons, ih, lastFor_cons]
    by_cases h : k = p.1
    · subst h
      cases lastFor p.1 as <;> simp
    · simp [h]

theorem accepts_assignAll {a : Setting → Scalar} {as : List Assignment}
    (ha : ∀ k : Setting, k.accepts (a k) = true) (has : ∀ p ∈ as, p.1.accepts p.2 = true)
    (k : Setting) : k.accepts (assignAll a as k) = true := by
  induction as generalizing a with
  | nil => exact ha k
  | cons p as ih =>
    obtain ⟨hp, has⟩ := List.forall_mem_cons.1 has
    refine ih (fun k' => ?_) has
    by_cases h : k' = p.1
    · subst h
      simpa using hp
    · simpa [Function.update_of_ne h] using ha k'

theorem assignAll_of_ne {as : List Assignment} {k : Setting} (h : ∀ p ∈ as, k ≠ p.1) (a : Setting → Scalar) :
    assignAll a as k = a k := by
  induction as generalizing a with
  | nil => rfl
  | cons p as ih =>
    obtain ⟨hp, has⟩ := List.forall_mem_cons.1 h
    rw [assignAll_cons, ih has, Function.update_of_ne hp]

/-- Steps that each make some assignments make all of them. -/
theorem exists_foldlM {m : Type → Type} [Monad m] [LawfulMonad m] {α β : Type}
    {P : (Setting → Scalar) → β → Prop} {f : β → α → m β} {xs : List α} {ass : List (List Assignment)}
    (h : List.Forall₂ (fun x as => ∀ a v, P a v → ∃ v', f v x = pure v' ∧ P (assignAll a as) v') xs ass)
    {a : Setting → Scalar} {v : β} (hv : P a v) :
    ∃ v', xs.foldlM f v = pure v' ∧ P (assignAll a ass.flatten) v' := by
  induction h generalizing a v with
  | nil => exact ⟨v, rfl, hv⟩
  | cons hx _ ih =>
    obtain ⟨v₁, hstep, hv₁⟩ := hx a v hv
    obtain ⟨v₂, hrest, hv₂⟩ := ih hv₁
    refine ⟨v₂, ?_, ?_⟩
    · rw [List.foldlM_cons, hstep, pure_bind, hrest]
    · rw [List.flatten_cons, assignAll_append]
      exact hv₂

/-! ## Tables -/

/-- A value with members. -/
def Value.IsTable (v : Value) : Prop := ∃ o ms, v = .table o ms

theorem Value.isTable_withMember (target : Value) (name : String) (v : Value) :
    (target.withMember name v).IsTable := by
  cases target <;> exact ⟨_, _, rfl⟩

theorem lookup_putMember (name other : String) (v : Value) (ms : List (String × Value)) :
    (Value.putMember name v ms).lookup other = if other = name then some v else ms.lookup other := by
  induction ms with
  | nil => exact lookup_cons_eq_ite name other v []
  | cons m ms ih =>
    obtain ⟨n, old⟩ := m
    rw [Value.putMember, lookup_cons_eq_ite]
    by_cases hn : n = name
    · rw [if_pos hn, lookup_cons_eq_ite, hn]
      split_ifs <;> rfl
    · rw [if_neg hn, lookup_cons_eq_ite, ih]
      by_cases h : other = n
      · simp [h, hn]
      · simp [h]

theorem Value.member?_withMember {target : Value} (h : target.IsTable) (name other : String) (v : Value) :
    (target.withMember name v).member? other = if other = name then some v else target.member? other := by
  obtain ⟨o, ms, rfl⟩ := h
  exact lookup_putMember name other v ms

/-- A table that gives the settings of a group. -/
structure GivesIn (group : String) (a : Setting → Scalar) (v : Value) : Prop where
  isTable : v.IsTable
  scalar : ∀ k : Setting, k.group = group → ∃ o, v.member? k.name = some (.scalar o (a k))

/-- A table that gives all settings. -/
structure Gives (a : Setting → Scalar) (v : Value) : Prop where
  isTable : v.IsTable
  group : ∀ g ∈ Setting.groups, ∃ t, v.member? g = some t ∧ GivesIn g a t

section
variable {a a' : Setting → Scalar} {v t : Value} {g : String}

/-- A setting of a group is given a value. -/
theorem GivesIn.withMember (h : GivesIn g a t) {k : Setting} (hk : k.group = g) (o : Option String)
    (x : Scalar) : GivesIn g (Function.update a k x) (t.withMember k.name (.scalar o x)) := by
  refine ⟨t.isTable_withMember _ _, fun k' hk' => ?_⟩
  rw [Value.member?_withMember h.isTable]
  by_cases hname : k'.name = k.name
  · obtain rfl := Setting.eq_of_group_of_name (hk'.trans hk.symm) hname
    exact ⟨o, by simp⟩
  · have hne : k' ≠ k := fun heq => hname (heq ▸ rfl)
    rw [if_neg hname, Function.update_of_ne hne]
    exact h.scalar k' hk'

theorem GivesIn.congr (h : GivesIn g a t) (heq : ∀ k : Setting, k.group = g → a' k = a k) :
    GivesIn g a' t := by
  refine ⟨h.isTable, fun k hk => ?_⟩
  rw [heq k hk]
  exact h.scalar k hk

/-- The table of a group is replaced. -/
theorem Gives.withMember (h : Gives a v) (ht : GivesIn g a' t)
    (heq : ∀ k : Setting, k.group ≠ g → a' k = a k) : Gives a' (v.withMember g t) := by
  refine ⟨v.isTable_withMember _ _, fun g' hg' => ?_⟩
  rw [Value.member?_withMember h.isTable]
  by_cases hname : g' = g
  · exact ⟨t, if_pos hname, hname ▸ ht⟩
  · obtain ⟨t', ht', hgives⟩ := h.group g' hg'
    rw [if_neg hname]
    exact ⟨t', ht', hgives.congr fun k hk => heq k fun hkg => hname (hk.symm.trans hkg)⟩

end

/-! ## Reading -/

/-- A setting that is a text. -/
theorem GivesIn.string {a : Setting → Scalar} {t : Value} {g : String} (h : GivesIn g a t)
    (ha : ∀ k : Setting, k.accepts (a k) = true) (k : Setting) (hk : k.group = g) (hne : k ≠ .staticFiles) :
    ∃ o s, t.member? k.name = some (.scalar o (.string s)) ∧ .string s = a k := by
  obtain ⟨o, ho⟩ := h.scalar k hk
  obtain ⟨s, hs⟩ := Setting.exists_string_of_accepts (ha k) hne
  exact ⟨o, s, hs ▸ ho, hs.symm⟩

theorem exists_readBook {a : Setting → Scalar} {t : Value} (h : GivesIn "book" a t)
    (ha : ∀ k : Setting, k.accepts (a k) = true) : ∃ b : BookSettings, readBook "book" t = .ok b ∧
      .string b.manifest = a .manifest ∧ .string b.nav = a .nav ∧ .string b.imagesDir = a .imagesDir ∧
      .string b.moduleName = a .moduleName := by
  obtain ⟨_, manifest, hmanifest, h1⟩ := h.string ha .manifest rfl (by decide)
  obtain ⟨_, nav, hnav, h2⟩ := h.string ha .nav rfl (by decide)
  obtain ⟨_, images, himages, h3⟩ := h.string ha .imagesDir rfl (by decide)
  obtain ⟨_, title, htitle, h4⟩ := h.string ha .moduleName rfl (by decide)
  refine ⟨⟨manifest, nav, images, title⟩, ?_, h1, h2, h3, h4⟩
  obtain ⟨o, ms, rfl⟩ := h.isTable
  simp only [Setting.name] at hmanifest hnav himages htitle
  simp [readBook, Value.group, Sought.read?, hmanifest, hnav, himages, htitle, Value.asText, require,
    Except.map, bind, Except.bind, pure, Except.pure]

theorem exists_readOutput {a : Setting → Scalar} {t : Value} (h : GivesIn "output" a t)
    (ha : ∀ k : Setting, k.accepts (a k) = true) : ∃ b : OutputSettings, readOutput "output" t = .ok b ∧
      .string b.assetsDir = a .assetsDir ∧ .string b.navFile = a .navFile ∧
      .bool b.staticFiles = a .staticFiles := by
  obtain ⟨_, assets, hassets, h1⟩ := h.string ha .assetsDir rfl (by decide)
  obtain ⟨_, nav, hnav, h2⟩ := h.string ha .navFile rfl (by decide)
  obtain ⟨_, hstatic⟩ := h.scalar .staticFiles rfl
  obtain ⟨static, h3⟩ := Setting.exists_bool_of_accepts (ha .staticFiles)
  refine ⟨⟨assets, nav, static⟩, ?_, h1, h2, h3.symm⟩
  obtain ⟨o, ms, rfl⟩ := h.isTable
  rw [h3] at hstatic
  simp only [Setting.name] at hassets hnav hstatic
  simp [readOutput, Value.group, Sought.read?, hassets, hnav, hstatic, Value.asText, Value.asBool, require,
    Except.map, bind, Except.bind, pure, Except.pure]

/-- **The settings that a table gives are read from it**, if they are of the right types. -/
theorem exists_ofValue {a : Setting → Scalar} {v : Value} (h : Gives a v)
    (ha : ∀ k : Setting, k.accepts (a k) = true) : ∃ s, ofValue v = .ok s ∧ ∀ k : Setting, k.valueIn s = a k := by
  obtain ⟨book, hbook, hgivesBook⟩ := h.group "book" (by decide)
  obtain ⟨output, houtput, hgivesOutput⟩ := h.group "output" (by decide)
  obtain ⟨b, hb, h1, h2, h3, h4⟩ := exists_readBook hgivesBook ha
  obtain ⟨o, ho, h5, h6, h7⟩ := exists_readOutput hgivesOutput ha
  refine ⟨⟨b, o⟩, ?_, fun k => ?_⟩
  · simp [ofValue, hbook, houtput, hb, ho, require, Functor.map, Except.map, bind, Except.bind, pure,
      Except.pure]
  · cases k
    exacts [h1, h2, h3, h4, h5, h6, h7]

/-- The defaults are given from the start. -/
theorem gives_defaults : Gives (Setting.valueIn {}) (toValue {}) := by
  refine ⟨⟨_, _, rfl⟩, fun g hg => ?_⟩
  simp only [Setting.groups, List.mem_cons, List.not_mem_nil, or_false] at hg
  obtain rfl | rfl := hg
  · refine ⟨_, rfl, ⟨_, _, rfl⟩, fun k hk => ?_⟩
    cases k <;> first | exact ⟨none, rfl⟩ | simp [Setting.group] at hk
  · refine ⟨_, rfl, ⟨_, _, rfl⟩, fun k hk => ?_⟩
    cases k <;> first | exact ⟨none, rfl⟩ | simp [Setting.group] at hk

end Settings

end BookCatalog
