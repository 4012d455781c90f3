import BookCatalog.Proofs.FileWrites

/-!
# Making directories

A request for a directory makes the directories that are missing on its path and nothing else
(`addsDirectories_makeDirectories`), whether it succeeds or not. When it succeeds the path leads to a
directory (`isDirectory_makeDirectories`). Once directories have been made on some paths, writes to paths of
one kind leave everything else as it was (`ConfinedTo.write`).
-/

namespace BookCatalog.FileTree

/-- The paths that lead to a path: the path itself and what is left when names are taken off its end. -/
inductive OnPath (path : String) : String → Prop where
  | self : OnPath path path
  | parent {q : String} : OnPath path q → OnPath path (FilePath.parent q)

/-- One tree has the entries of another and, beside them, only directories on some paths. -/
structure AddsDirectories (paths : List String) (t t' : FileTree) : Prop where
  surroundings_eq : t'.toSurroundings = t.toSurroundings
  get?_eq_or : ∀ loc, t'.get? loc = t.get? loc ∨
    t.get? loc = none ∧ t'.get? loc = some .directory ∧
      ∃ path ∈ paths, ∃ q, OnPath path q ∧ t'.location? q = some loc

namespace AddsDirectories

variable {paths paths' : List String} {t t' t'' : FileTree}

theorem refl (paths : List String) (t : FileTree) : AddsDirectories paths t t := ⟨rfl, fun _ => .inl rfl⟩

theorem le (h : AddsDirectories paths t t') : DirectoriesIn t t' :=
  ⟨h.surroundings_eq, fun loc hd => by
    obtain heq | ⟨hnone, -⟩ := h.get?_eq_or loc
    · rw [heq, hd]
    · rw [hnone] at hd; cases hd⟩

theorem mono (h : AddsDirectories paths t t') (hsub : paths ⊆ paths') :
    AddsDirectories paths' t t' :=
  ⟨h.surroundings_eq, fun loc => by
    obtain heq | ⟨hnone, hd, path, hp, hq⟩ := h.get?_eq_or loc
    · exact .inl heq
    · exact .inr ⟨hnone, hd, path, hsub hp, hq⟩⟩

theorem trans (h : AddsDirectories paths t t') (h' : AddsDirectories paths t' t'') :
    AddsDirectories paths t t'' :=
  ⟨h'.surroundings_eq.trans h.surroundings_eq, fun loc => by
    obtain heq' | ⟨hnone', hd', hpath'⟩ := h'.get?_eq_or loc
    · obtain heq | ⟨hnone, hd, path, hp, q, hq, hl⟩ := h.get?_eq_or loc
      · exact .inl (heq'.trans heq)
      · exact .inr ⟨hnone, heq'.trans hd, path, hp, q, hq, location?_mono h'.le hl⟩
    · obtain heq | ⟨-, hd, -⟩ := h.get?_eq_or loc
      · exact .inr ⟨heq ▸ hnone', hd', hpath'⟩
      · rw [hnone'] at hd; cases hd⟩

end AddsDirectories

variable {t t' : FileTree}

/-- A new directory is at the location of its path, and nothing else changes. -/
theorem location?_of_makeDirectory {path : String} (h : t.makeDirectory path = .ok t') :
    t'.toSurroundings = t.toSurroundings ∧ ∃ loc, t'.location? path = some loc ∧ t.get? loc = none ∧
      ∀ loc', t'.get? loc' = if loc' = loc then some .directory else t.get? loc' := by
  obtain ⟨loc, hl, hnone, rfl⟩ := makeDirectory_eq_ok_iff.1 h
  have hget := get?_put (ne_nil_of_location? hl) t .directory
  have hle : DirectoriesIn t (t.put loc .directory) := ⟨rfl, fun loc' hd => by
    rw [hget]; split
    · rfl
    · exact hd⟩
  exact ⟨rfl, loc, location?_mono hle hl, hnone, hget⟩

theorem addsDirectories_makeDirectory {path q : String} (hq : OnPath path q)
    (h : t.makeDirectory q = .ok t') : AddsDirectories [path] t t' := by
  obtain ⟨haround, loc, hl, hnone, hget⟩ := location?_of_makeDirectory h
  refine ⟨haround, fun loc' => ?_⟩
  rw [hget]
  by_cases heq : loc' = loc
  · subst heq
    exact .inr ⟨hnone, by simp, path, List.mem_singleton_self path, q, hq, hl⟩
  · exact .inl (by rw [if_neg heq])

theorem isDirectory_makeDirectory {path : String} (h : t.makeDirectory path = .ok t') :
    t'.isDirectory path = true := by
  obtain ⟨-, loc, hl, -, hget⟩ := location?_of_makeDirectory h
  refine isDirectory_iff.2 ⟨loc, ?_⟩
  rw [find_eq_of_location? hl, targetAt, hget, if_pos rfl]

/-- What a request for the directory at `q`, on the way to `path`, does to a tree. -/
structure MakesWay (path q : String) (t : FileTree) (result : Except FileError Unit × FileTree) :
    Prop where
  adds : AddsDirectories [path] t result.2
  arrives : result.1 = .ok () → q = "" ∨ result.2.isDirectory q = true

theorem makesWay_of_error {path q : String} (t : FileTree) (e : FileError) :
    MakesWay path q t (if t.isDirectory q then .ok () else .error e, t) := by
  refine ⟨.refl _ t, fun h => .inr ?_⟩
  split at h
  · assumption
  · cases h

theorem makesWay_of_ok {path q : String} (hq : OnPath path q) (h : t.makeDirectory q = .ok t') :
    MakesWay path q t (.ok (), t') :=
  ⟨addsDirectories_makeDirectory hq h, fun _ => .inr (isDirectory_makeDirectory h)⟩

theorem MakesWay.after {path q : String} {result : Except FileError Unit × FileTree}
    (h : MakesWay path q t' result) (hadds : AddsDirectories [path] t t') : MakesWay path q t result :=
  ⟨hadds.trans h.adds, h.arrives⟩

theorem makesWay_makeDirectoriesFrom {path : String} : ∀ (depth : Nat) {q : String} (t : FileTree),
    OnPath path q → MakesWay path q t (t.makeDirectoriesFrom depth q)
  | depth, q, t, hq => by
    unfold makeDirectoriesFrom
    by_cases hempty : q = ""
    · rw [if_pos hempty]
      exact ⟨.refl _ t, fun _ => .inl hempty⟩
    rw [if_neg hempty]
    split
    · rename_i t' h
      exact makesWay_of_ok hq h
    rename_i e h
    split
    · exact makesWay_of_error t e
    -- something that leads to `q` is missing
    cases depth with
    | zero => exact ⟨.refl _ t, fun h => by cases h⟩
    | succ depth =>
      have hway := makesWay_makeDirectoriesFrom depth t hq.parent
      cases hp : t.makeDirectoriesFrom depth (FilePath.parent q) with
      | mk result t' =>
        rw [hp] at hway
        cases result with
        | error e' =>
          simp only [hp]
          exact ⟨hway.adds, fun h => by cases h⟩
        | ok _ =>
          simp only [hp]
          split
          · rename_i t'' h'
            exact (makesWay_of_ok hq h').after hway.adds
          · rename_i e' h'
            exact (makesWay_of_error t' e').after hway.adds

/-- Making the directory at a path adds directories on the path alone. -/
theorem addsDirectories_makeDirectories (path : String) (t : FileTree) :
    AddsDirectories [path] t (t.makeDirectories path).2 :=
  (makesWay_makeDirectoriesFrom _ t .self).adds

/-- Where a directory has been made there is one. The empty path needs none. -/
theorem isDirectory_makeDirectories {path : String} (h : t.makeDirectories path = (.ok (), t')) :
    path = "" ∨ t'.isDirectory path = true := by
  have hway := makesWay_makeDirectoriesFrom (FilePath.components path).length t (OnPath.self : OnPath path path)
  rw [show t.makeDirectoriesFrom (FilePath.components path).length path = (.ok (), t') from h] at hway
  exact hway.arrives rfl

/-! ## Changes at some paths -/

/-- One tree is another but for directories that were missing on some paths, and for files at paths of one
kind. -/
structure ConfinedTo (paths : List String) (IsChanged : String → Prop) (t t' : FileTree) : Prop where
  surroundings_eq : t'.toSurroundings = t.toSurroundings
  get?_eq_or : ∀ loc, t'.get? loc = t.get? loc ∨
    (t.get? loc = none ∧ t'.get? loc = some .directory ∧
      ∃ path ∈ paths, ∃ q, OnPath path q ∧ t'.location? q = some loc) ∨
    ∃ path c, IsChanged path ∧ t'.location? path = some loc ∧ t'.get? loc = some (.file c)

theorem AddsDirectories.confinedTo {paths : List String} (h : AddsDirectories paths t t')
    (IsChanged : String → Prop) : ConfinedTo paths IsChanged t t' :=
  ⟨h.surroundings_eq, fun loc => (h.get?_eq_or loc).imp_right .inl⟩

/-- A write to a path of the kind changes nothing else. -/
theorem ConfinedTo.write {paths : List String} {IsChanged : String → Prop} {t'' : FileTree}
    {path : String} {c : FileContent} (h : ConfinedTo paths IsChanged t t') (hpath : IsChanged path)
    (hw : t'.write path c = .ok t'') : ConfinedTo paths IsChanged t t'' := by
  have hsame := sameDirectories_of_write hw
  refine ⟨hsame.surroundings_eq.trans h.surroundings_eq, fun loc => ?_⟩
  simp only [get?_write hw, ← location?_congr hsame]
  split
  · rename_i hl
    exact .inr (.inr ⟨path, c, hpath, hl, rfl⟩)
  · exact h.get?_eq_or loc

end BookCatalog.FileTree
