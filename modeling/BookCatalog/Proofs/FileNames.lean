import BookCatalog.Proofs.Directories
import BookCatalog.Proofs.FileListing

/-!
# Names in a tree of files

In a file system everything stands under a file name, a text that is not empty, has no slash and does not
stand for a directory (`WellNamed`). Requests keep it so: a path puts nothing under a name of another
kind (`wellNamed_of_write`, `wellNamed_of_addsDirectories`). What a directory lists is therefore a file
name, and a path that ends in a text without a slash can be written to only when that text is one
(`isName_of_write_join`).
-/

namespace BookCatalog

open BookCatalog.FilePath

namespace FileTree

variable {t t' : FileTree}

/-- Everything in a tree stands under a file name. -/
def WellNamed (t : FileTree) : Prop := ∀ dir name, t.get? (dir ++ [name]) ≠ none → IsName name

theorem get?_concat (t : FileTree) (dir : Location) (name : String) :
    t.get? (dir ++ [name]) = t.entries.lookup (dir ++ [name]) := if_neg (by simp)

theorem get?_concat_eq_none_iff {dir : Location} {name : String} :
    t.get? (dir ++ [name]) = none ↔ ∀ e ∈ t.entries, e.1 ≠ dir ++ [name] := by
  simp only [get?_concat, List.lookup_eq_none_iff, bne_iff_ne, ne_eq]
  exact forall₂_congr fun e _ => not_congr eq_comm

theorem mem_namesAt_of_get? {dir : Location} {name : String} {e : Entry}
    (h : t.get? (dir ++ [name]) = some e) : .text name ∈ t.namesAt dir := by
  rw [text_mem_namesAt_iff]
  by_contra hnone
  push Not at hnone
  rw [get?_concat_eq_none_iff.2 hnone] at h
  cases h

/-- A tree is well named when the last names of its entries are file names. -/
theorem wellNamed_iff : t.WellNamed ↔ ∀ e ∈ t.entries, ∀ name ∈ e.1.getLast?, IsName name := by
  unfold WellNamed
  simp only [ne_eq, get?_concat_eq_none_iff, List.getLast?_eq_some_iff, Option.mem_def]
  constructor
  · rintro h e he name ⟨dir, hdir⟩
    exact h dir name fun hne => hne e he hdir
  · intro h dir name hne
    push Not at hne
    obtain ⟨e, he, hdir⟩ := hne
    exact h e he name ⟨dir, hdir⟩

instance (t : FileTree) : Decidable t.WellNamed := decidable_of_iff _ wellNamed_iff.symm

/-- What a directory lists are file names. -/
theorem isName_of_mem_filesIn (h : t.WellNamed) {dir : String} {name : FileName}
    (hn : name ∈ t.filesIn dir) : name.IsName := by
  obtain ⟨loc, -, hname, -⟩ := mem_filesIn_iff.1 hn
  cases name with
  | raw name => trivial
  | text name =>
    obtain ⟨e, he, hloc⟩ := text_mem_namesAt_iff.1 hname
    exact wellNamed_iff.1 h e he name (by simp [hloc])

/-! ## Requests keep names -/

theorem wellNamed_of_addsDirectories {paths : List String} (h : AddsDirectories paths t t')
    (hnamed : t.WellNamed) : t'.WellNamed := by
  intro dir name hsome
  obtain heq | ⟨-, -, _, -, _, -, hl⟩ := h.get?_eq_or (dir ++ [name])
  · exact hnamed dir name (heq ▸ hsome)
  · exact isName_of_location? hl

theorem wellNamed_of_write {path : String} {c : FileContent} (h : t.write path c = .ok t')
    (hnamed : t.WellNamed) : t'.WellNamed := by
  intro dir name hsome
  rw [get?_write h] at hsome
  split at hsome
  · rename_i hl
    exact isName_of_location? hl
  · exact hnamed dir name hsome

theorem wellNamed_of_writeAll : ∀ {ws : List (String × FileContent)} {t : FileTree},
    t.writeAll ws = .ok t' → t.WellNamed → t'.WellNamed
  | [], _, h, hnamed => by
    cases h
    exact hnamed
  | w :: ws, t, h, hnamed => by
    obtain ⟨m, hw, hws⟩ := writeAll_cons_eq_ok_iff.1 h
    exact wellNamed_of_writeAll hws (wellNamed_of_write hw hnamed)

/-- A path that ends with a text without a slash can be written to only if the text is a file name. -/
theorem isName_of_write_join {base name : String} {c : FileContent} (hs : '/' ∉ name.toList)
    (h : t.write (join base name) c = .ok t') : IsName name := by
  obtain ⟨hend, loc, hl, -⟩ := write_eq_ok_iff.1 h
  obtain ⟨hp, front, last, dir, hnames, ⟨hd, hdd⟩, -⟩ := location?_eq_some_iff.1 hl
  have hne : name ≠ "" := fun he => by
    rw [he] at hp hend
    rw [endsInSlash_join_empty hp.ne_empty] at hend
    cases hend
  rw [names_join (isAbsolute_of_no_slash hs), names_of_no_slash hne hs] at hnames
  obtain ⟨-, hlast⟩ := List.append_inj' hnames rfl
  cases hlast
  exact ⟨hne, hd, hdd, hs⟩

end FileTree

end BookCatalog
