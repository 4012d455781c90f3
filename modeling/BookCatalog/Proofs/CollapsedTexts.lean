import BookCatalog.Proofs.Blanks

/-!
# Collapsed texts

Collapsing the blanks of a text keeps its words, which are the maximal runs without a blank, and whether it
begins and ends with a blank. It keeps nothing else: the collapsed text is the words with one space between
two of them, and one at each edge where the text has a blank (`collapse_eq_of_cutInto`). So texts are collapsed
to the same exactly when they have the same words and the same edges (`collapseBlanks_canonical`), and it makes
no difference whether the parts of a text are collapsed before the whole.
-/

namespace BookCatalog.Text

/-! ## Edges of a text -/

/-- Whether a text begins with a blank. -/
def beginsBlank (cs : List Char) : Bool := cs.head?.any isBlank

/-- Whether the last character of a text is blank; of no text, whether the one in front of it is. -/
def blankAfter (before : Bool) (cs : List Char) : Bool := (cs.getLast?.map isBlank).getD before

/-- Whether a text ends with a blank. -/
def endsBlank (cs : List Char) : Bool := blankAfter false cs

variable {cs ds : List Char} {words : List (List Char)} {before after b : Bool}

@[simp] theorem beginsBlank_nil : beginsBlank [] = false := rfl

@[simp] theorem beginsBlank_cons (c : Char) (rest : List Char) : beginsBlank (c :: rest) = isBlank c := by
  rw [beginsBlank, List.head?_cons, Option.any_some]

@[simp] theorem blankAfter_cons (before : Bool) (c : Char) (rest : List Char) :
    blankAfter before (c :: rest) = blankAfter (isBlank c) rest := by
  rw [blankAfter, blankAfter, List.getLast?_cons]
  cases rest.getLast? <;> rfl

theorem blankAfter_append (before : Bool) (cs ds : List Char) :
    blankAfter before (cs ++ ds) = blankAfter (blankAfter before cs) ds := by
  induction cs generalizing before with
  | nil => rfl
  | cons c rest ih => rw [List.cons_append, blankAfter_cons, blankAfter_cons, ih]

theorem blankAfter_of_forall (h : ∀ c ∈ cs, isBlank c = b) (hne : cs ≠ []) : blankAfter before cs = b := by
  rw [blankAfter, List.getLast?_eq_some_getLast hne, Option.map_some, Option.getD_some]
  exact h _ (List.getLast_mem hne)

theorem beginsBlank_of_head (h : ∀ c ∈ cs.head?, isBlank c = b) (hne : cs ≠ []) : beginsBlank cs = b := by
  obtain ⟨c, rest, rfl⟩ := List.exists_cons_of_ne_nil hne
  exact h c rfl

theorem beginsBlank_append (cs ds : List Char) :
    beginsBlank (cs ++ ds) = if cs = [] then beginsBlank ds else beginsBlank cs := by
  cases cs <;> simp

/-! ## Collapsing in parts -/

theorem collapseFrom_append (after : Bool) (cs ds : List Char) :
    collapseFrom after (cs ++ ds) = collapseFrom after cs ++ collapseFrom (blankAfter after cs) ds := by
  induction cs generalizing after with
  | nil => rfl
  | cons c rest ih =>
    cases hc : isBlank c with
    | true =>
      rw [List.cons_append, collapseFrom_blank hc, collapseFrom_blank hc, blankAfter_cons, hc, ih]
      split <;> rfl
    | false =>
      rw [List.cons_append, collapseFrom_ink hc, collapseFrom_ink hc, blankAfter_cons, hc, ih, List.cons_append]

theorem collapseFrom_of_ink (h : ∀ c ∈ cs, isBlank c = false) : collapseFrom after cs = cs := by
  induction cs generalizing after with
  | nil => rfl
  | cons c rest ih =>
    obtain ⟨hc, hrest⟩ := List.forall_mem_cons.1 h
    rw [collapseFrom_ink hc, ih hrest]

/-- One space at an edge that has a blank. -/
def edge (blank : Bool) : List Char := if blank then [' '] else []

theorem collapseFrom_true_of_blanks (h : ∀ c ∈ cs, isBlank c = true) : collapseFrom true cs = [] := by
  induction cs with
  | nil => rfl
  | cons c rest ih =>
    obtain ⟨hc, hrest⟩ := List.forall_mem_cons.1 h
    rw [collapseFrom_blank hc, if_pos rfl, ih hrest]

theorem collapse_of_blanks (h : ∀ c ∈ cs, isBlank c = true) : collapse cs = edge (beginsBlank cs) := by
  cases cs with
  | nil => rfl
  | cons c rest =>
    obtain ⟨hc, hrest⟩ := List.forall_mem_cons.1 h
    rw [collapse, collapseFrom_blank hc, if_neg Bool.false_ne_true, collapseFrom_true_of_blanks hrest,
      beginsBlank_cons, hc]
    rfl

/-! ## What a collapsed text is made of -/

/-- A collapsed text is the words of the text, one space between two of them, and one at each edge that has
a blank. Where there is no word the edges are one. -/
theorem collapse_eq_of_cutInto (h : CutInto isBlank cs words) :
    collapse cs = edge (beginsBlank cs) ++ [' '].intercalate words ++ edge (endsBlank cs && !words.isEmpty) := by
  induction h with
  | gap hgap => simp [collapse_of_blanks hgap, edge]
  | @run gap run rest more hgap hne hrun hend hrest ih =>
    have hword (before : Bool) : blankAfter before run = false := blankAfter_of_forall hrun hne
    have hbegin : beginsBlank (gap ++ run ++ rest) = beginsBlank gap := by
      rw [List.append_assoc, beginsBlank_append, beginsBlank_append, if_neg hne]
      split
      · rename_i hnil
        rw [hnil, beginsBlank_of_head (fun c hc => hrun c (List.mem_of_head? hc)) hne, beginsBlank_nil]
      · rfl
    have hfinish : endsBlank (gap ++ run ++ rest) = endsBlank rest := by
      rw [endsBlank, blankAfter_append, blankAfter_append, hword, endsBlank]
    have hparts : collapse (gap ++ run ++ rest) = edge (beginsBlank gap) ++ run ++ collapse rest := by
      rw [← collapse_of_blanks hgap, collapse, collapseFrom_append, collapseFrom_append, collapseFrom_of_ink hrun,
        blankAfter_append, hword, collapse, collapse]
    rw [hparts, ih, hbegin, hfinish]
    -- what stands between this word and the end is blank, or it leads to the next word
    cases hrest with
    | gap hblanks =>
      have hsame : beginsBlank rest = endsBlank rest := by
        cases rest with
        | nil => rfl
        | cons c after =>
          rw [endsBlank, blankAfter_of_forall hblanks (List.cons_ne_nil c after), beginsBlank_cons]
          exact hblanks c List.mem_cons_self
      simp [hsame, edge]
    | @run gap' next rest' more' hgap' hne' hrun' hend' hrest' =>
      have hblank : beginsBlank (gap' ++ next ++ rest') = true := beginsBlank_of_head hend (by simp [hne'])
      rw [hblank, List.intercalate_cons_cons]
      simp [edge]

/-! ## What a collapsed text keeps -/

theorem beginsBlank_collapse (cs : List Char) : beginsBlank (collapse cs) = beginsBlank cs := by
  cases cs with
  | nil => rfl
  | cons c rest =>
    cases hc : isBlank c with
    | true => rw [collapse, collapseFrom_blank hc, beginsBlank_cons, hc]; rfl
    | false => rw [collapse, collapseFrom_ink hc, beginsBlank_cons, beginsBlank_cons]

/-- A blank that is not written has one in front of it. -/
theorem blankAfter_collapseFrom (h : after = true → before = true) (cs : List Char) :
    blankAfter before (collapseFrom after cs) = blankAfter before cs := by
  induction cs generalizing before after with
  | nil => rfl
  | cons c rest ih =>
    cases hc : isBlank c with
    | true =>
      have hrest : blankAfter true (collapseFrom true rest) = blankAfter true rest := ih fun _ => rfl
      rw [collapseFrom_blank hc, blankAfter_cons, hc, ← hrest]
      split
      · rw [h ‹_›]
      · rw [blankAfter_cons]
        rfl
    | false => rw [collapseFrom_ink hc, blankAfter_cons, blankAfter_cons, hc, ih id]

theorem endsBlank_collapse (cs : List Char) : endsBlank (collapse cs) = endsBlank cs :=
  blankAfter_collapseFrom (by simp) cs

theorem runs_collapse (cs : List Char) : runs isBlank (collapse cs) = runs isBlank cs := by
  simpa [collapse] using (runs_collapseFrom (p := isBlank) (fun _ h => h) [] cs []).1

theorem collapse_eq_nil_iff : collapse cs = [] ↔ cs = [] := by
  cases cs with
  | nil => simp [collapse]
  | cons c rest =>
    cases hc : isBlank c with
    | true => simp [collapse, collapseFrom_blank hc]
    | false => simp [collapse, collapseFrom_ink hc]

/-- Two texts that have the same words, one after the other, and a blank at the same edges. -/
structure SameWordsAndEdges (cs ds : List Char) : Prop where
  words : ∃ words, CutInto isBlank cs words ∧ CutInto isBlank ds words
  begins : beginsBlank cs = beginsBlank ds
  ends : endsBlank cs = endsBlank ds

theorem exists_cutInto_of_runs_eq (h : runs isBlank cs = runs isBlank ds) :
    ∃ words, CutInto isBlank cs words ∧ CutInto isBlank ds words :=
  ⟨runs isBlank cs, cutInto_iff.2 rfl, cutInto_iff.2 h⟩

/-- Texts are collapsed to the same exactly when they have the same words and the same edges. -/
theorem collapse_eq_collapse_iff : collapse cs = collapse ds ↔ SameWordsAndEdges cs ds := by
  constructor
  · intro h
    refine ⟨exists_cutInto_of_runs_eq ?_, ?_, ?_⟩
    · rw [← runs_collapse cs, h, runs_collapse]
    · rw [← beginsBlank_collapse cs, h, beginsBlank_collapse]
    · rw [← endsBlank_collapse cs, h, endsBlank_collapse]
  · rintro ⟨⟨words, hcs, hds⟩, hbegins, hends⟩
    rw [collapse_eq_of_cutInto hcs, collapse_eq_of_cutInto hds, hbegins, hends]

theorem sameWordsAndEdges_collapse (cs : List Char) : SameWordsAndEdges (collapse cs) cs :=
  ⟨exists_cutInto_of_runs_eq (runs_collapse cs), beginsBlank_collapse cs, endsBlank_collapse cs⟩

theorem sameWordsAndEdges_append_collapse (cs ds : List Char) :
    SameWordsAndEdges (collapse cs ++ collapse ds) (cs ++ ds) where
  words := by
    refine exists_cutInto_of_runs_eq ?_
    have hfirst := (runs_collapseFrom (p := isBlank) (fun _ h => h) (collapse ds) cs []).1
    have hsecond := (runs_collapseFrom (p := isBlank) (fun _ h => h) [] ds cs).1
    simp only [List.nil_append, List.append_nil] at hfirst hsecond
    exact hfirst.trans hsecond
  begins := by
    simp only [beginsBlank_append, collapse_eq_nil_iff, beginsBlank_collapse]
  ends := by
    rw [endsBlank, blankAfter_append, endsBlank, blankAfter_append]
    exact (blankAfter_collapseFrom (by simp) ds).trans (congrArg (blankAfter · ds) (endsBlank_collapse cs))

theorem not_two_spaces_isInfix_collapse (cs : List Char) : ¬[' ', ' '] <:+: collapse cs := by
  intro h
  have hchain := (isChain_collapseFrom cs).1
  have hapart : Apart ' ' ' ' := List.isChain_pair.1 <| hchain.infix h
  have hspace : isBlank ' ' = true := by decide
  simp [Apart, hspace] at hapart

/-- **Collapsing blanks is a canonical form.** Two texts are collapsed to the same exactly when they have the same
words, which are the maximal runs without a blank, and agree on whether they begin and on whether they end with a
blank. The only blanks of a collapsed text are single spaces, it is not changed by collapsing it again, and a text
may be collapsed in two parts before it is collapsed as a whole. -/
theorem collapseBlanks_canonical (s t : String) :
    (collapseBlanks s = collapseBlanks t ↔ SameWordsAndEdges s.toList t.toList) ∧
      (∀ c ∈ (collapseBlanks s).toList, isBlank c = true → c = ' ') ∧
      ¬[' ', ' '] <:+: (collapseBlanks s).toList ∧
      collapseBlanks (collapseBlanks s) = collapseBlanks s ∧
      collapseBlanks (s ++ t) = collapseBlanks (collapseBlanks s ++ collapseBlanks t) := by
  refine ⟨?_, fun c hc => eq_space_of_mem_collapseBlanks hc, ?_, ?_, ?_⟩
  · rw [collapseBlanks, collapseBlanks, String.ofList_inj, collapse_eq_collapse_iff]
  · rw [collapseBlanks, String.toList_ofList]
    exact not_two_spaces_isInfix_collapse s.toList
  · simp only [collapseBlanks, String.toList_ofList, String.ofList_inj]
    exact collapse_eq_collapse_iff.2 (sameWordsAndEdges_collapse s.toList)
  · simp only [collapseBlanks, String.toList_append, String.toList_ofList, String.ofList_inj]
    exact (collapse_eq_collapse_iff.2 (sameWordsAndEdges_append_collapse s.toList t.toList)).symm

example : collapseBlanks "  a \n\t b " = " a b " := by decide +kernel

end BookCatalog.Text
