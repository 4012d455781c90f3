import BookCatalog.TableOfContents
import BookCatalog.Proofs.Results
import BookCatalog.Proofs.TreeEquality
import Mathlib.Data.List.Sort

/-!
# What the table of contents says

The parts of a book are the items of one list, read with their names and with the links to their chapters:
nothing is left out and nothing is put in another order (`CarriesOver`). The landing page keeps all of it: the
parts and the name of the module can be told from the page (`landingPage_injective`).

The list is the first one that was made inside an element of navigation. That is the first one of the page as
long as none was made before it (`FirstListMadeFirst`). In a page that was repaired it may be another one: a list
that is written in a table, outside its cells, is moved in front of the table and so in front of the lists in its
cells, but those were made before it (`moved_list_missed`).
-/

namespace BookCatalog.TableOfContents

open BookCatalog.Html

/-! ## Parts and their entries -/

/-- A position is the first one, of those that are searched, at which a list of parts stands. -/
def IsFirstList (searched : List Position) (list : Position) : Prop :=
  ∃ before after, searched = before ++ list :: after ∧ isContentsList list = true ∧
    ∀ p ∈ before, isContentsList p = false

namespace IsFirstList

variable {searched : List Position} {list list' : Position}

theorem isContentsList (h : IsFirstList searched list) : isContentsList list = true := by
  obtain ⟨-, -, -, hlist, -⟩ := h
  exact hlist

theorem find?_eq (h : IsFirstList searched list) : searched.find? TableOfContents.isContentsList = some list := by
  obtain ⟨before, after, rfl, hlist, hbefore⟩ := h
  exact List.find?_eq_some_iff_append.2 ⟨hlist, before, after, rfl, fun p hp => by simp [hbefore p hp]⟩

end IsFirstList

/-- The links to the chapters of a part, in order: they stand directly in the items that stand directly in the
lists that stand directly in the item of the part. -/
def chapterLinks (item : Element) : List Element :=
  (item.childrenNamed "ol").flatMap fun list =>
    (list.childrenNamed "li").flatMap fun chapter => chapter.childrenNamed "a"

/-- What a link to a chapter stands for. -/
structure IsEntry (link : Element) (entry : ContentsEntry) : Prop where
  name : entry.name = link.ownText
  target : entry.target = targetOf ((link.attr? "href").getD "")

/-- What an item of the list of parts stands for: it is named by the first link directly in it. -/
structure IsPart (item : Element) (part : ContentsPart) : Prop where
  name : ∃ link more, item.childrenNamed "a" = link :: more ∧ part.name = link.text
  entries : List.Forall₂ IsEntry (chapterLinks item) part.entries

theorem isEntry_iff {link : Element} {entry : ContentsEntry} : IsEntry link entry ↔ entryOf link = entry := by
  obtain ⟨name, target⟩ := entry
  simp only [entryOf, ContentsEntry.mk.injEq]
  exact ⟨fun h => ⟨h.name.symm, h.target.symm⟩, fun h => ⟨h.1.symm, h.2.symm⟩⟩

theorem forall₂_isEntry_iff : ∀ {links : List Element} {entries : List ContentsEntry},
    List.Forall₂ IsEntry links entries ↔ links.map entryOf = entries
  | [], entries => by cases entries <;> simp
  | link :: links, [] => by simp
  | link :: links, entry :: entries => by
    rw [List.forall₂_cons, isEntry_iff, forall₂_isEntry_iff, List.map_cons, List.cons.injEq]

theorem entriesOf_eq (item : Element) : entriesOf item = (chapterLinks item).map entryOf := by
  rw [entriesOf, chapterLinks, List.flatMap_assoc]

theorem partOf_eq_ok_iff {item : Element} {part : ContentsPart} : partOf item = .ok part ↔ IsPart item part := by
  have hpart : IsPart item part ↔ (∃ link more, item.childrenNamed "a" = link :: more ∧ part.name = link.text) ∧
      entriesOf item = part.entries := by
    rw [entriesOf_eq, ← forall₂_isEntry_iff]
    exact ⟨fun h => ⟨h.name, h.entries⟩, fun h => ⟨h.1, h.2⟩⟩
  obtain ⟨name, entries⟩ := part
  rw [hpart]
  unfold partOf
  cases item.childrenNamed "a" <;> simp [eq_comm]

theorem exists_isPart_iff {item : Element} : (∃ part, IsPart item part) ↔ ∃ link ∈ item.childElements, link.name = "a" := by
  have hnamed : (∃ link ∈ item.childElements, link.name = "a") ↔ item.childrenNamed "a" ≠ [] := by
    simp [Element.childrenNamed]
  rw [hnamed]
  simp only [← partOf_eq_ok_iff]
  unfold partOf
  cases item.childrenNamed "a" <;> simp

/-! ## The list of the parts -/

/-- The parts in the first list among the elements that are searched. -/
def partsAmong (searched : List Position) : Except ConversionError (List ContentsPart) :=
  match searched.find? isContentsList with
  | some list => (list.element.childrenNamed "li").mapM partOf
  | none => .error (.missing .contentsList)

theorem partsOf_eq (page : Page) : partsOf page = partsAmong page.made := by
  unfold partsOf contentsList? partsAmong
  cases page.made.find? isContentsList <;> rfl

theorem find?_eq_some_iff_isFirstList {searched : List Position} {list : Position} :
    searched.find? isContentsList = some list ↔ IsFirstList searched list := by
  refine ⟨fun h => ?_, IsFirstList.find?_eq⟩
  obtain ⟨hlist, before, after, hsearched, hbefore⟩ := List.find?_eq_some_iff_append.1 h
  exact ⟨before, after, hsearched, hlist, fun p hp => by simpa using hbefore p hp⟩

theorem mapM_partOf_eq_ok_iff {items : List Element} {ps : List ContentsPart} :
    items.mapM partOf = .ok ps ↔ List.Forall₂ IsPart items ps := by
  rw [mapM_eq_ok_iff]
  simp only [partOf_eq_ok_iff]

theorem partsAmong_eq_ok_iff {searched : List Position} {ps : List ContentsPart} :
    partsAmong searched = .ok ps ↔
      ∃ list, IsFirstList searched list ∧ List.Forall₂ IsPart (list.element.childrenNamed "li") ps := by
  simp only [← find?_eq_some_iff_isFirstList, ← mapM_partOf_eq_ok_iff]
  unfold partsAmong
  cases searched.find? isContentsList <;> simp

/-- Every item of a list stands for a part exactly when every item has a link directly in it. -/
theorem exists_partsAmong_iff {searched : List Position} :
    (∃ ps, partsAmong searched = .ok ps) ↔
      ∃ list, IsFirstList searched list ∧
        ∀ item ∈ list.element.childrenNamed "li", ∃ link ∈ item.childElements, link.name = "a" := by
  simp only [← exists_isPart_iff, ← partOf_eq_ok_iff, ← exists_mapM_eq_ok_iff, ← find?_eq_some_iff_isFirstList]
  unfold partsAmong
  cases searched.find? isContentsList <;> simp

/-- What is read is the list that comes first among the elements that are searched: it is read if every item
has a link, and then item by item. -/
structure CarriesOver (searched : List Position) (result : Except ConversionError (List ContentsPart)) : Prop where
  succeeds_iff : (∃ ps, result = .ok ps) ↔ ∃ list, IsFirstList searched list ∧
    ∀ item ∈ list.element.childrenNamed "li", ∃ link ∈ item.childElements, link.name = "a"
  part_by_part : ∀ ps, result = .ok ps →
    ∃ list, IsFirstList searched list ∧ List.Forall₂ IsPart (list.element.childrenNamed "li") ps

theorem carriesOver_iff {searched : List Position} {result : Except ConversionError (List ContentsPart)} :
    CarriesOver searched result ↔ result.toOption = (partsAmong searched).toOption := by
  have hresult : CarriesOver searched result ↔ ((∃ ps, result = .ok ps) ↔ ∃ ps, partsAmong searched = .ok ps) ∧
      ∀ ps, result = .ok ps → partsAmong searched = .ok ps :=
    ⟨fun h => ⟨h.succeeds_iff.trans exists_partsAmong_iff.symm,
        fun ps hps => partsAmong_eq_ok_iff.2 (h.part_by_part ps hps)⟩,
      fun h => ⟨h.1.trans exists_partsAmong_iff, fun ps hps => partsAmong_eq_ok_iff.1 (h.2 ps hps)⟩⟩
  rw [hresult]
  cases result <;> cases partsAmong searched <;> simp [Except.toOption, eq_comm]

/-! ## The landing page -/

theorem entryItem_injective : Function.Injective entryItem := by
  rintro ⟨name, target⟩ ⟨name', target'⟩ h
  simp only [entryItem, List.cons.injEq, Block.paragraph.injEq, Inline.link.injEq, String.append_right_inj,
    Inline.text.injEq, and_true] at h
  rw [h.1, h.2]

theorem partBlocks_append_injective {p p' : ContentsPart} {rest rest' : List Block}
    (h : partBlocks p ++ rest = partBlocks p' ++ rest') : p = p' ∧ rest = rest' := by
  obtain ⟨name, entries⟩ := p
  obtain ⟨name', entries'⟩ := p'
  simp only [partBlocks, List.cons_append, List.nil_append, List.cons.injEq, Block.heading.injEq,
    Block.list.injEq, Inline.text.injEq, true_and, and_true] at h
  obtain ⟨rfl, hentries, hrest⟩ := h
  rw [List.map_injective_iff.2 entryItem_injective hentries]
  exact ⟨rfl, hrest⟩

/-- A part begins with a heading, so the parts can be told from their blocks one by one. -/
theorem flatMap_partBlocks_injective : ∀ {parts parts' : List ContentsPart},
    parts.flatMap partBlocks = parts'.flatMap partBlocks → parts = parts'
  | [], [], _ => rfl
  | [], p :: rest, h => by simp [partBlocks] at h
  | p :: rest, [], h => by simp [partBlocks] at h
  | p :: rest, p' :: rest', h => by
    rw [List.flatMap_cons, List.flatMap_cons] at h
    obtain ⟨rfl, hrest⟩ := partBlocks_append_injective h
    rw [flatMap_partBlocks_injective hrest]

theorem landingPage_injective {parts parts' : List ContentsPart} {moduleName moduleName' : String}
    (h : landingPage parts moduleName = landingPage parts' moduleName') :
    parts = parts' ∧ moduleName = moduleName' := by
  simp only [landingPage, Document.mk.injEq, List.cons.injEq, Block.heading.injEq, Inline.symbolLink.injEq,
    true_and, and_true] at h
  exact ⟨flatMap_partBlocks_injective h.2, h.1⟩

/-! ## The order in which the elements were made -/

/-- The elements of the trees in a store with their numbers: those of the page, and those below an element that
was taken out of it. The number of an element tells when it was made. -/
def numberedElements (s : Store) : List (NodeId × Position) := s.roots.flatMap (Page.numbered s)

theorem made_ofText (source : String) : (Page.ofText source).made =
    ((numberedElements (Store.ofText source)).mergeSort fun a b => a.1 ≤ b.1).map (·.2) := rfl

theorem pairwise_mergeSort_numbers (elements : List (NodeId × Position)) :
    (elements.mergeSort fun a b => a.1 ≤ b.1).Pairwise fun a b => a.1 ≤ b.1 := by
  refine (List.pairwise_mergeSort ?_ ?_ elements).imp of_decide_eq_true
  · intro a b c hab hbc
    simp only [decide_eq_true_eq] at hab hbc ⊢
    exact Nat.le_trans hab hbc
  · intro a b
    simpa using Nat.le_total a.1 b.1

/-- The first list in the order of making has the least number. -/
theorem exists_number_of_isFirstList {source : String} {list : Position}
    (h : IsFirstList (Page.ofText source).made list) :
    ∃ n, (n, list) ∈ numberedElements (Store.ofText source) ∧
      ∀ other ∈ numberedElements (Store.ofText source), isContentsList other.2 = true → n ≤ other.1 := by
  rw [← find?_eq_some_iff_isFirstList, made_ofText, List.find?_map] at h
  obtain ⟨⟨n, list⟩, hfind, rfl⟩ := Option.map_eq_some_iff.1 h
  obtain ⟨-, before, after, hsorted, hbefore⟩ := List.find?_eq_some_iff_append.1 hfind
  have hordered := pairwise_mergeSort_numbers (numberedElements (Store.ofText source))
  rw [hsorted, List.pairwise_append, List.pairwise_cons] at hordered
  have hmem : (n, list) ∈ numberedElements (Store.ofText source) :=
    List.mem_mergeSort.1 (hsorted ▸ List.mem_append_right _ List.mem_cons_self)
  refine ⟨n, hmem, fun other hother hlist => ?_⟩
  have hmem : other ∈ (numberedElements (Store.ofText source)).mergeSort fun a b => a.1 ≤ b.1 :=
    List.mem_mergeSort.2 hother
  rw [hsorted] at hmem
  rcases List.mem_append.1 hmem with hmem | hmem
  · have hnone := hbefore other hmem
    simp [hlist] at hnone
  · rcases List.mem_cons.1 hmem with rfl | hmem
    · exact Nat.le_refl _
    · exact hordered.2.1.1 other hmem

/-! ## From the page to the landing page -/

/-- The elements of a page in document order. -/
def documentOrder (page : Page) : List Position := page.root.positionsFrom [] []

/-- The lists that come first in two orders stand for the same parts, or in neither order is the first list one
that can be read. -/
def FirstListsAlike (searched searched' : List Position) : Prop :=
  ∀ ps, (∃ list, IsFirstList searched list ∧ List.Forall₂ IsPart (list.element.childrenNamed "li") ps) ↔
    ∃ list, IsFirstList searched' list ∧ List.Forall₂ IsPart (list.element.childrenNamed "li") ps

/-- Of all lists of parts that were made the first one in the document was made first: no list behind it was, and
none in what was taken out of the page again. Or there is no list of parts at all. -/
def FirstListMadeFirst (source : String) : Prop :=
  (∃ first ∈ numberedElements (Store.ofText source), IsFirstList (documentOrder (.ofText source)) first.2 ∧
    ∀ other ∈ numberedElements (Store.ofText source), isContentsList other.2 = true →
      first.1 < other.1 ∨ other = first) ∨
  (∀ p ∈ documentOrder (.ofText source), isContentsList p = false) ∧
    ∀ other ∈ numberedElements (Store.ofText source), isContentsList other.2 = false

theorem carriesOver_iff_firstListsAlike {searched searched' : List Position} :
    CarriesOver searched' (partsAmong searched) ↔ FirstListsAlike searched searched' := by
  simp only [carriesOver_iff, FirstListsAlike, ← partsAmong_eq_ok_iff]
  cases partsAmong searched <;> cases partsAmong searched' <;> simp [Except.toOption, eq_comm]

theorem not_isFirstList {searched : List Position} {list : Position} (h : ∀ p ∈ searched, isContentsList p = false) :
    ¬IsFirstList searched list := by
  rw [← find?_eq_some_iff_isFirstList, List.find?_eq_none.2 fun p hp => by simp [h p hp]]
  exact nofun

/-- The list that was made first is the first one of the document, when the first one of the document was made
first. -/
theorem isFirstList_iff_of_firstListMadeFirst {source : String} (h : FirstListMadeFirst source) (list : Position) :
    IsFirstList (Page.ofText source).made list ↔ IsFirstList (documentOrder (.ofText source)) list := by
  rcases h with ⟨first, hfirst, hdocument, hothers⟩ | ⟨hdocument, hmade⟩
  · have hsome : ((Page.ofText source).made.find? isContentsList).isSome :=
      List.find?_isSome.2 ⟨first.2, List.mem_map_of_mem (List.mem_mergeSort.2 hfirst), hdocument.isContentsList⟩
    obtain ⟨made, hfind⟩ := Option.isSome_iff_exists.1 hsome
    have hmade := find?_eq_some_iff_isFirstList.1 hfind
    obtain ⟨n, hn, hleast⟩ := exists_number_of_isFirstList hmade
    have heq : (n, made) = first := by
      refine (hothers _ hn hmade.isContentsList).resolve_left (Nat.not_lt.2 ?_)
      exact hleast first hfirst hdocument.isContentsList
    subst heq
    rw [← find?_eq_some_iff_isFirstList, ← find?_eq_some_iff_isFirstList, hfind, hdocument.find?_eq]
  · refine iff_of_false (not_isFirstList fun p hp => ?_) (not_isFirstList hdocument)
    obtain ⟨other, hother, rfl⟩ := List.mem_map.1 hp
    exact hmade other (List.mem_mergeSort.1 hother)

/-- **The table of contents is carried over whole**, part by part and link by link, from the list that was made
first inside an element of navigation, and the landing page keeps all of it. What is carried over is the table of
contents of the document exactly when that list and the first one in the document stand for the same parts; and so
it is when the first list in the document was made first. -/
theorem contents_carried_over_iff (source : String) :
    CarriesOver (Page.ofText source).made (parts source) ∧
    (CarriesOver (documentOrder (Page.ofText source)) (parts source) ↔
      FirstListsAlike (Page.ofText source).made (documentOrder (Page.ofText source))) ∧
    (FirstListMadeFirst source → CarriesOver (documentOrder (Page.ofText source)) (parts source)) ∧
    ∀ ps ps' moduleName moduleName', landingPage ps moduleName = landingPage ps' moduleName' →
      ps = ps' ∧ moduleName = moduleName' := by
  have hparts : parts source = partsAmong (Page.ofText source).made := partsOf_eq (.ofText source)
  rw [hparts]
  refine ⟨carriesOver_iff.2 rfl, carriesOver_iff_firstListsAlike, fun h => ?_, fun _ _ _ _ => landingPage_injective⟩
  refine carriesOver_iff_firstListsAlike.2 fun ps => exists_congr fun list => and_congr_left fun _ => ?_
  exact isFirstList_iff_of_firstListMadeFirst h list

instance (searched : List Position) (list : Position) : Decidable (IsFirstList searched list) :=
  decidable_of_iff _ find?_eq_some_iff_isFirstList

instance (source : String) : Decidable (FirstListMadeFirst source) :=
  inferInstanceAs (Decidable (_ ∨ _))

/-- The text in the table is moved in front of it, but no list is. -/
example : FirstListMadeFirst
    "<nav><table><tr><td><ol><li><a>In</a></li></ol></td></tr>x</table><ol><li><a>Out</a></li></ol></nav>" := by
  decide +kernel

/-! ## A page that was repaired -/

/-- The elements of the trees in a store, in the order of their numbers. -/
def elementsInOrder (s : Store) : List (NodeId × Position) :=
  (numberedElements s).insertionSort fun a b => a.1 ≤ b.1

/-- Elements with different numbers can be put in order one by one. -/
theorem made_eq {text : String} (h : (elementsInOrder (Store.ofText text)).Pairwise fun a b => a.1 < b.1) :
    (Page.ofText text).made = (elementsInOrder (Store.ofText text)).map (·.2) := by
  have hperm : ((numberedElements (Store.ofText text)).mergeSort fun a b => a.1 ≤ b.1).Perm
      (elementsInOrder (Store.ofText text)) :=
    (List.mergeSort_perm _ _).trans (List.perm_insertionSort _ _).symm
  rw [made_ofText]
  refine congrArg _ (hperm.eq_of_pairwise (fun a b ha hb hab hba => ?_) (pairwise_mergeSort_numbers _)
    (h.imp Nat.le_of_lt))
  -- two elements with one number would stand beside each other
  refine List.inj_on_of_nodup_map ?_ (hperm.mem_iff.1 ha) hb (Nat.le_antisymm hab hba)
  exact (List.pairwise_map.2 h).imp Nat.ne_of_lt

/-- A list in a cell of a table, and after the row a list that is moved in front of the table. -/
def movedList : String :=
  "<nav><table><tr><td><ol><li><a>In</a></li></ol></td></tr><ol><li><a>Out</a></li></ol></table></nav>"

theorem read_movedList :
    (elementsInOrder (Store.ofText movedList)).Pairwise (fun a b => a.1 < b.1) ∧
      (partsAmong ((elementsInOrder (Store.ofText movedList)).map (·.2))).toOption = some [⟨"In", []⟩] ∧
      (partsAmong (documentOrder (Page.ofText movedList))).toOption = some [⟨"Out", []⟩] := by
  decide +kernel

/-- The first list of the document is the one that was moved, but the list in the cell was made before it. -/
theorem moved_list_missed :
    parts movedList = .ok [⟨"In", []⟩] ∧
      ¬CarriesOver (documentOrder (Page.ofText movedList)) (parts movedList) := by
  obtain ⟨horder, hmade, hdocument⟩ := read_movedList
  rw [← made_eq horder] at hmade
  have hparts : parts movedList = .ok [⟨"In", []⟩] := (partsOf_eq _).trans (eq_ok_of_toOption hmade)
  refine ⟨hparts, fun h => ?_⟩
  rw [carriesOver_iff, hparts, hdocument] at h
  exact absurd h (by decide)

end BookCatalog.TableOfContents
