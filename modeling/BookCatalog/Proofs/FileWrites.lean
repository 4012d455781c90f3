import BookCatalog.Proofs.FileTree

/-!
# Writes one after the other

A list of writes leaves every directory where it is and gives every file the content of the last write
that reached it (`get?_writeAll`). A copy is a write of what is read (`copy_eq_ok_iff`), or nothing at
all (`eq_of_copy_error`), and the files of a directory are the same after a write that reaches none of
them (`files_of_write`).
-/

namespace BookCatalog.FileTree

open BookCatalog.FilePath

variable {t t' : FileTree}

/-! ## One write -/

theorem sameDirectories_put {loc : Location} (hne : loc ≠ []) (hd : t.get? loc ≠ some .directory)
    (c : FileContent) : SameDirectories t (t.put loc (.file c)) where
  surroundings_eq := rfl
  directory_iff loc' := by
    rw [get?_put hne]
    split
    · rename_i h; subst h; simp [hd]
    · rfl

theorem sameDirectories_of_write {path : String} {c : FileContent} (h : t.write path c = .ok t') :
    SameDirectories t t' := by
  obtain ⟨-, loc, hl, hd, rfl⟩ := write_eq_ok_iff.1 h
  exact sameDirectories_put (ne_nil_of_location? hl) hd c

theorem get?_write {path : String} {c : FileContent} (h : t.write path c = .ok t') (loc : Location) :
    t'.get? loc = if t.location? path = some loc then some (.file c) else t.get? loc := by
  obtain ⟨-, loc', hl, -, rfl⟩ := write_eq_ok_iff.1 h
  rw [get?_put (ne_nil_of_location? hl), hl]
  simp [eq_comm]

/-- What a write does not reach is read as before. -/
theorem readIn_of_write_ne {path : String} {c : FileContent} (h : t.write path c = .ok t')
    {directory : String} {name : FileName}
    (hne : ∀ loc, t.locationIn? directory name = some loc → t.location? path ≠ some loc)
    (c' : FileContent) : t'.readIn directory name = .ok c' ↔ t.readIn directory name = .ok c' := by
  refine readIn_congr (sameDirectories_of_write h) (fun loc hl => ?_) c'
  rw [get?_write h, if_neg (hne loc hl)]

/-- What was written is read. -/
theorem read_of_write {path : String} {c : FileContent} (h : t.write path c = .ok t')
    {path' : String} (hs : endsInSlash path' = false) (heq : t.location? path' = t.location? path) :
    t'.read path' = .ok c := by
  obtain ⟨-, loc, hl, -, -⟩ := write_eq_ok_iff.1 h
  rw [read_eq_ok_iff, ← location?_congr (sameDirectories_of_write h)]
  exact ⟨hs, loc, heq.trans hl, by rw [get?_write h, if_pos hl]⟩

/-- A file of a directory is read after a write as it was, or as it was written. -/
theorem readIn_of_write {path directory : String} {name : FileName} {c c' : FileContent}
    (h : t.write path c = .ok t') (hr : t.readIn directory name = .ok c') :
    t'.readIn directory name =
      .ok (if t.locationIn? directory name = t.location? path then c else c') := by
  split
  · rename_i heq
    cases name with
    | text name => exact read_of_write h (read_eq_ok_iff.1 hr).1 heq
    | raw name =>
      -- what is written is at the location of a text
      obtain ⟨-, loc, hl, -⟩ := write_eq_ok_iff.1 h
      rw [hl] at heq
      cases heq
  · rename_i hne
    exact (readIn_of_write_ne h (fun loc hl hd => hne (hl.trans hd.symm)) c').2 hr

/-- A path that was written to can be written to again, and the later write is the one that counts. -/
theorem write_of_write {path : String} {c : FileContent} (h : t.write path c = .ok t')
    (c' : FileContent) : t'.write path c' = t.write path c' := by
  obtain ⟨hs, loc, hl, hd, rfl⟩ := write_eq_ok_iff.1 h
  have hne := ne_nil_of_location? hl
  have hl' : (t.put loc (.file c)).location? path = some loc :=
    (location?_congr (sameDirectories_put hne hd c) path).symm.trans hl
  calc (t.put loc (.file c)).write path c'
      = .ok ((t.put loc (.file c)).put loc (.file c')) :=
        write_eq_ok_iff.2 ⟨hs, loc, hl', by simp [get?_put hne], rfl⟩
    _ = .ok (t.put loc (.file c')) := by rw [put_put]
    _ = t.write path c' := (write_eq_ok_iff.2 ⟨hs, loc, hl, hd, rfl⟩).symm

/-! ## A copy -/

section
variable {directory destination : String} {name : FileName}

/-- The content that a copy leaves at its destination. A file that is copied onto itself is emptied. -/
def copied (t : FileTree) (directory : String) (name : FileName) (destination : String)
    (c : FileContent) : FileContent :=
  if t.locationIn? directory name = t.location? destination then .text "" else c

theorem readIn_of_emptied {c : FileContent} {emptied : FileTree} (hr : t.readIn directory name = .ok c)
    (hw : t.write destination (.text "") = .ok emptied) :
    emptied.readIn directory name = .ok (t.copied directory name destination c) := readIn_of_write hw hr

theorem copy_eq_of_readIn {c : FileContent} {emptied : FileTree} (hr : t.readIn directory name = .ok c)
    (hw : t.write destination (.text "") = .ok emptied) :
    ∃ t', t.write destination (t.copied directory name destination c) = .ok t' ∧
      t.copy directory name destination = (.ok (), t') := by
  obtain ⟨hs, loc, hl, hd, -⟩ := write_eq_ok_iff.1 hw
  have hw' : t.write destination (t.copied directory name destination c) =
      .ok (t.put loc (.file (t.copied directory name destination c))) :=
    write_eq_ok_iff.2 ⟨hs, loc, hl, hd, rfl⟩
  refine ⟨_, hw', ?_⟩
  unfold copy
  simp only [hr, hw, readIn_of_emptied hr hw, write_of_write hw, hw']

/-- A copy that succeeds has read a file and emptied another. -/
theorem exists_of_copy_ok (h : t.copy directory name destination = (.ok (), t')) :
    ∃ c emptied, t.readIn directory name = .ok c ∧ t.write destination (.text "") = .ok emptied := by
  unfold copy at h
  split at h
  · cases h
  · cases h
  · rename_i c emptied hr hw
    exact ⟨c, emptied, hr, hw⟩

/-- A copy writes what it reads. -/
theorem copy_eq_ok_iff : t.copy directory name destination = (.ok (), t') ↔
    ∃ c, t.readIn directory name = .ok c ∧
      t.write destination (t.copied directory name destination c) = .ok t' := by
  constructor
  · intro h
    obtain ⟨c, emptied, hr, hw⟩ := exists_of_copy_ok h
    obtain ⟨t'', hw', hc⟩ := copy_eq_of_readIn hr hw
    rw [hc] at h
    cases h
    exact ⟨c, hr, hw'⟩
  · rintro ⟨c, hr, hw⟩
    obtain ⟨hs, loc, hl, hd, rfl⟩ := write_eq_ok_iff.1 hw
    obtain ⟨t'', hw', hc⟩ := copy_eq_of_readIn hr (write_eq_ok_iff.2 ⟨hs, loc, hl, hd, rfl⟩)
    rw [hw] at hw'
    cases hw'
    exact hc

/-- A copy that fails changes nothing. -/
theorem eq_of_copy_error {e : FileError} (h : t.copy directory name destination = (.error e, t')) :
    t' = t := by
  cases hr : t.readIn directory name with
  | error e' => simp only [copy, hr] at h; cases h; rfl
  | ok c =>
    cases hw : t.write destination (.text "") with
    | error e' => simp only [copy, hr, hw] at h; cases h; rfl
    | ok emptied =>
      obtain ⟨t'', -, hc⟩ := copy_eq_of_readIn hr hw
      rw [hc] at h
      cases h

end

/-! ## Many writes -/

/-- The tree after some writes, made in order. -/
def writeAll (t : FileTree) (ws : List (String × FileContent)) : Except FileError FileTree :=
  ws.foldlM (fun t w => t.write w.1 w.2) t

@[simp] theorem writeAll_nil : t.writeAll [] = .ok t := rfl

theorem writeAll_cons_eq_ok_iff {w : String × FileContent} {ws : List (String × FileContent)} :
    t.writeAll (w :: ws) = .ok t' ↔ ∃ m, t.write w.1 w.2 = .ok m ∧ m.writeAll ws = .ok t' := by
  unfold writeAll
  rw [List.foldlM_cons, bind_eq_ok_iff]

theorem writeAll_append_eq_ok_iff {ws ws' : List (String × FileContent)} :
    t.writeAll (ws ++ ws') = .ok t' ↔ ∃ m, t.writeAll ws = .ok m ∧ m.writeAll ws' = .ok t' := by
  unfold writeAll
  rw [List.foldlM_append, bind_eq_ok_iff]

theorem writeAll_singleton {w : String × FileContent} : t.writeAll [w] = t.write w.1 w.2 := by
  simp [writeAll]

theorem sameDirectories_of_writeAll : ∀ {ws : List (String × FileContent)} {t : FileTree},
    t.writeAll ws = .ok t' → SameDirectories t t'
  | [], _, h => by cases h; exact .refl _
  | w :: ws, t, h => by
    obtain ⟨m, hw, h⟩ := writeAll_cons_eq_ok_iff.1 h
    exact (sameDirectories_of_write hw).trans (sameDirectories_of_writeAll h)

/-- The last of some writes that reaches a location. -/
def lastWrite? (t : FileTree) (ws : List (String × FileContent)) (loc : Location) :
    Option (String × FileContent) :=
  ws.reverse.find? fun w => t.location? w.1 = some loc

theorem mem_of_lastWrite?_eq_some {ws : List (String × FileContent)} {w : String × FileContent}
    {loc : Location} (h : t.lastWrite? ws loc = some w) : w ∈ ws ∧ t.location? w.1 = some loc :=
  ⟨List.mem_reverse.1 (List.mem_of_find?_eq_some h), by simpa using List.find?_some h⟩

theorem lastWrite?_eq_none_iff {ws : List (String × FileContent)} {loc : Location} :
    t.lastWrite? ws loc = none ↔ ∀ w ∈ ws, t.location? w.1 ≠ some loc := by
  simp [lastWrite?]

theorem lastWrite?_eq_some_iff {ws : List (String × FileContent)} {w : String × FileContent} {loc : Location} :
    t.lastWrite? ws loc = some w ↔ t.location? w.1 = some loc ∧ ∃ before after,
      ws = before ++ w :: after ∧ ∀ later ∈ after, t.location? later.1 ≠ some loc := by
  unfold lastWrite?
  rw [List.find?_eq_some_iff_append]
  simp only [decide_eq_true_eq, Bool.not_eq_true', decide_eq_false_iff_not]
  refine and_congr_right fun _ => ?_
  constructor
  · rintro ⟨after, before, hws, hafter⟩
    refine ⟨before.reverse, after.reverse, ?_, fun later hlater => hafter later (List.mem_reverse.1 hlater)⟩
    rw [← List.reverse_reverse ws, hws]
    simp
  · rintro ⟨before, after, rfl, hafter⟩
    exact ⟨after.reverse, before.reverse, by simp, fun later hlater => hafter later (List.mem_reverse.1 hlater)⟩

/-- The only write that reaches a location is the last one. -/
theorem lastWrite?_eq_some {ws : List (String × FileContent)} {w : String × FileContent} {loc : Location}
    (hw : w ∈ ws) (hl : t.location? w.1 = some loc)
    (honly : ∀ w' ∈ ws, t.location? w'.1 = some loc → w' = w) : t.lastWrite? ws loc = some w := by
  cases hlast : t.lastWrite? ws loc with
  | none => exact absurd hl (lastWrite?_eq_none_iff.1 hlast w hw)
  | some w' =>
    obtain ⟨hw', hl'⟩ := mem_of_lastWrite?_eq_some hlast
    rw [honly w' hw' hl']

/-- After some writes a location holds what the last write to it put there, or what it held before. -/
theorem get?_writeAll : ∀ {ws : List (String × FileContent)} {t : FileTree},
    t.writeAll ws = .ok t' → ∀ loc, t'.get? loc = ((t.lastWrite? ws loc).map fun w => Entry.file w.2).or (t.get? loc)
  | [], t, h, loc => by cases h; rfl
  | w :: ws, t, h, loc => by
    obtain ⟨m, hw, h⟩ := writeAll_cons_eq_ok_iff.1 h
    have ih := get?_writeAll h loc
    have hm : m.lastWrite? ws loc = t.lastWrite? ws loc := by
      simp only [lastWrite?, location?_congr (sameDirectories_of_write hw)]
    rw [ih, hm, get?_write hw]
    simp only [lastWrite?, List.reverse_cons, List.find?_append]
    cases ws.reverse.find? fun w => t.location? w.1 = some loc with
    | some last => rfl
    | none => by_cases hl : t.location? w.1 = some loc <;> simp [hl]

theorem get?_of_writeAll_ne {ws : List (String × FileContent)} (h : t.writeAll ws = .ok t')
    {loc : Location} (hne : ∀ w ∈ ws, t.location? w.1 ≠ some loc) : t'.get? loc = t.get? loc := by
  rw [get?_writeAll h, lastWrite?_eq_none_iff.2 hne]
  rfl

/-- What no write reaches is read as before. -/
theorem read_of_writeAll_ne {ws : List (String × FileContent)} (h : t.writeAll ws = .ok t')
    {path : String} (hne : ∀ w ∈ ws, ∀ loc, t.location? path = some loc → t.location? w.1 ≠ some loc)
    (c : FileContent) : t'.read path = .ok c ↔ t.read path = .ok c :=
  read_congr (sameDirectories_of_writeAll h)
    (fun loc hl => get?_of_writeAll_ne h fun w hw => hne w hw loc hl) c

theorem readIn_of_writeAll_ne {ws : List (String × FileContent)} (h : t.writeAll ws = .ok t')
    {directory : String} {name : FileName}
    (hne : ∀ w ∈ ws, ∀ loc, t.locationIn? directory name = some loc → t.location? w.1 ≠ some loc)
    (c : FileContent) : t'.readIn directory name = .ok c ↔ t.readIn directory name = .ok c :=
  readIn_congr (sameDirectories_of_writeAll h)
    (fun loc hl => get?_of_writeAll_ne h fun w hw => hne w hw loc hl) c

theorem exists_location?_of_mem_writeAll : ∀ {ws : List (String × FileContent)} {t : FileTree},
    t.writeAll ws = .ok t' → ∀ w ∈ ws, endsInSlash w.1 = false ∧ ∃ loc, t.location? w.1 = some loc
  | [], _, _, w, hw => by cases hw
  | first :: rest, t, h, w, hw => by
    obtain ⟨m, hfirst, h⟩ := writeAll_cons_eq_ok_iff.1 h
    rcases List.mem_cons.1 hw with rfl | hw
    · obtain ⟨hs, loc, hl, -⟩ := write_eq_ok_iff.1 hfirst
      exact ⟨hs, loc, hl⟩
    · rw [location?_congr (sameDirectories_of_write hfirst)]
      exact exists_location?_of_mem_writeAll h w hw

/-- At a path that is written to is read in the end what the last write to its location put there. -/
theorem exists_last_of_mem_writeAll {ws : List (String × FileContent)} (h : t.writeAll ws = .ok t')
    {path : String} {c : FileContent} (hw : (path, c) ∈ ws) :
    ∃ before path' c' after, ws = before ++ (path', c') :: after ∧ t.location? path' = t.location? path ∧
      (∀ later ∈ after, t.location? later.1 ≠ t.location? path) ∧ t'.read path = .ok c' := by
  obtain ⟨hs, loc, hl⟩ := exists_location?_of_mem_writeAll h _ hw
  dsimp only at hs hl
  cases hlast : t.lastWrite? ws loc with
  | none => exact absurd hl (lastWrite?_eq_none_iff.1 hlast _ hw)
  | some last =>
    obtain ⟨hl', before, after, hws, hafter⟩ := lastWrite?_eq_some_iff.1 hlast
    refine ⟨before, last.1, last.2, after, hws, hl'.trans hl.symm, by rwa [hl], ?_⟩
    rw [read_eq_ok_iff, ← location?_congr (sameDirectories_of_writeAll h)]
    exact ⟨hs, loc, hl, by rw [get?_writeAll h, hlast]; rfl⟩

/-- Where something is put is read in the end the last of what is put there. -/
theorem exists_last_of_mem_put {α : Type} {place : α → String} {held : List (α × FileContent)}
    (h : t.writeAll (held.map fun i => (place i.1, i.2)) = .ok t') {i : α × FileContent} (hi : i ∈ held) :
    ∃ before last after, held = before ++ last :: after ∧
      t.location? (place last.1) = t.location? (place i.1) ∧
      (∀ later ∈ after, t.location? (place later.1) ≠ t.location? (place i.1)) ∧
      t'.read (place i.1) = .ok last.2 := by
  have hw : (place i.1, i.2) ∈ held.map fun i => (place i.1, i.2) := List.mem_map_of_mem hi
  obtain ⟨_, path, c, _, hsplit, hl, hafter, hread⟩ := exists_last_of_mem_writeAll h hw
  obtain ⟨before, rest, hheld, -, hrest⟩ := List.map_eq_append_iff.1 hsplit
  obtain ⟨last, after, rfl, hlast, rfl⟩ := List.map_eq_cons_iff.1 hrest
  cases hlast
  exact ⟨before, last, after, hheld, hl, fun later hlater => hafter _ (List.mem_map_of_mem hlater), hread⟩

/-- What is written is read in the end if no other write reaches it. -/
theorem read_of_mem_writeAll {ws : List (String × FileContent)} (h : t.writeAll ws = .ok t')
    {w : String × FileContent} (hw : w ∈ ws)
    (honly : ∀ w' ∈ ws, t.location? w'.1 = t.location? w.1 → w' = w) : t'.read w.1 = .ok w.2 := by
  obtain ⟨before, path, c, after, hws, hl, -, hread⟩ := exists_last_of_mem_writeAll h hw
  have hlast : (path, c) = w := honly (path, c) (by simp [hws]) hl
  rwa [← hlast] at hread ⊢

/-! ## Writes in another order -/

theorem exists_write_iff {path : String} {c : FileContent} :
    (∃ m, t.write path c = .ok m) ↔ endsInSlash path = false ∧
      ∃ loc, t.location? path = some loc ∧ t.get? loc ≠ some .directory := by
  simp only [write_eq_ok_iff]
  constructor
  · rintro ⟨m, hs, loc, hl, hd, -⟩
    exact ⟨hs, loc, hl, hd⟩
  · rintro ⟨hs, loc, hl, hd⟩
    exact ⟨_, hs, loc, hl, hd, rfl⟩

theorem exists_write_congr (h : SameDirectories t t') (path : String) (c : FileContent) :
    (∃ m, t'.write path c = .ok m) ↔ ∃ m, t.write path c = .ok m := by
  simp only [exists_write_iff, location?_congr h, ne_eq, h.directory_iff _]

/-- Files can be written one after the other when each of them can be written. -/
theorem exists_writeAll_iff : ∀ {ws : List (String × FileContent)} {t : FileTree},
    (∃ m, t.writeAll ws = .ok m) ↔ ∀ w ∈ ws, ∃ m, t.write w.1 w.2 = .ok m
  | [], t => by simp
  | w :: ws, t => by
    simp only [writeAll_cons_eq_ok_iff, List.forall_mem_cons]
    constructor
    · rintro ⟨m, n, hw, hws⟩
      refine ⟨⟨n, hw⟩, fun w' hw' => ?_⟩
      rw [← exists_write_congr (sameDirectories_of_write hw)]
      exact exists_writeAll_iff.1 ⟨m, hws⟩ w' hw'
    · rintro ⟨⟨n, hw⟩, hrest⟩
      obtain ⟨m, hws⟩ := exists_writeAll_iff.2 fun w' hw' =>
        (exists_write_congr (sameDirectories_of_write hw) w'.1 w'.2).2 (hrest w' hw')
      exact ⟨m, n, hw, hws⟩

/-- Writes to different files may change places. -/
theorem exists_writeAll_of_perm {ws ws' : List (String × FileContent)} (hperm : ws'.Perm ws)
    (h : t.writeAll ws = .ok t') (honly : ∀ w ∈ ws, ∀ w' ∈ ws, ∀ loc,
      t.location? w.1 = some loc → t.location? w'.1 = some loc → w = w') :
    ∃ m, t.writeAll ws' = .ok m ∧ ∀ loc, m.get? loc = t'.get? loc := by
  obtain ⟨m, hm⟩ : ∃ m, t.writeAll ws' = .ok m := exists_writeAll_iff.2 fun w hw =>
    exists_writeAll_iff.1 ⟨t', h⟩ w (hperm.mem_iff.1 hw)
  refine ⟨m, hm, fun loc => ?_⟩
  -- at most one of the files that are written is there, whatever the order
  have hlast : t.lastWrite? ws' loc = t.lastWrite? ws loc := by
    cases hlast : t.lastWrite? ws loc with
    | none =>
      rw [lastWrite?_eq_none_iff] at hlast ⊢
      exact fun w hw => hlast w (hperm.mem_iff.1 hw)
    | some w =>
      obtain ⟨hw, hl⟩ := mem_of_lastWrite?_eq_some hlast
      exact lastWrite?_eq_some (hperm.mem_iff.2 hw) hl fun w' hw' hl' =>
        honly w' (hperm.mem_iff.1 hw') w hw loc hl' hl
  rw [get?_writeAll hm, get?_writeAll h, hlast]

end BookCatalog.FileTree
