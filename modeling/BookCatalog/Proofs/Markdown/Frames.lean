import BookCatalog.Proofs.Markdown.Blocks
import BookCatalog.Proofs.MarkupParts
import Mathlib.Data.List.Infix
import Mathlib.Data.Nat.Digits.Defs

/-!
# The place of the pen

The pen comes back from a block to the margin, the lists and the cell that it had before (`returns_writeChunk`):
exactly, as long as no ordered list has so many items that their markers grow wider on the way, since what an item
takes back from the margin is the width of the next marker. So long as the lists are short there is always as much on
the margin as is taken off it (`holdsMargin_of_shortLists`), and at the top a list of 99 items is too long
(`not_holdsMargin_of_long`). As the model takes off what there is, a pen that is at the top comes back to it from every
block (`AtTop.writeChunks`).
-/

namespace BookCatalog.Markdown

/-! ## What holds of a block and the blocks in it -/

mutual

/-- A property of a block and of all blocks in it. -/
def Chunk.All (P : Chunk → Prop) : Chunk → Prop
  | .list ordered items => P (.list ordered items) ∧ Chunk.AllItems P items
  | .blockQuote children => P (.blockQuote children) ∧ Chunk.AllIn P children
  | .heading level content => P (.heading level content)
  | .paragraph content => P (.paragraph content)
  | .codeBlock info text => P (.codeBlock info text)
  | .htmlBlock text => P (.htmlBlock text)
  | .table t => P (.table t)

/-- A property of some blocks and of all blocks in them. -/
def Chunk.AllIn (P : Chunk → Prop) : List Chunk → Prop
  | [] => True
  | c :: rest => c.All P ∧ Chunk.AllIn P rest

/-- A property of all blocks in some items. -/
def Chunk.AllItems (P : Chunk → Prop) : List (List Chunk) → Prop
  | [] => True
  | item :: rest => Chunk.AllIn P item ∧ Chunk.AllItems P rest

end

theorem Chunk.All.self {P : Chunk → Prop} {c : Chunk} (h : c.All P) : P c := by
  cases c with
  | list | blockQuote => exact h.1
  | _ => exact h

/-- The numbers of an ordered list stay so short that all its markers are equally wide. -/
def Chunk.IsShort : Chunk → Prop
  | .list true items => items.length < 99
  | _ => True

theorem allIn_append_iff {P : Chunk → Prop} {cs ds : List Chunk} :
    Chunk.AllIn P (cs ++ ds) ↔ Chunk.AllIn P cs ∧ Chunk.AllIn P ds := by
  induction cs with
  | nil => simp [Chunk.AllIn]
  | cons c rest ih => simp [Chunk.AllIn, ih, and_assoc]

theorem length_itemsOf (items : List (List Block)) : (itemsOf items).length = items.length := by
  induction items with
  | nil => rfl
  | cons item rest ih => rw [itemsOf, List.length_cons, ih, List.length_cons]

mutual

theorem allIn_chunksOfBlock {P : Chunk → Prop} : ∀ b : Block, (∀ b' ∈ b.parts, ∀ c ∈ chunksOfBlock b', P c) →
    Chunk.AllIn P (chunksOfBlock b)
  | .list ordered items, h => by
    have hown := h _ List.mem_cons_self (.list ordered (itemsOf items)) List.mem_cons_self
    exact ⟨⟨hown, allItems_itemsOf items fun b hb => h b (List.mem_cons_of_mem _ hb)⟩, trivial⟩
  | .blockQuote children, h => by
    have hown := h _ List.mem_cons_self (.blockQuote (chunksOf children)) List.mem_cons_self
    exact ⟨⟨hown, allIn_chunksOf children fun b hb => h b (List.mem_cons_of_mem _ hb)⟩, trivial⟩
  | .heading level content, h => ⟨h _ List.mem_cons_self _ List.mem_cons_self, trivial⟩
  | .paragraph content, h => ⟨h _ List.mem_cons_self _ List.mem_cons_self, trivial⟩
  | .codeBlock language literal, h => ⟨h _ List.mem_cons_self _ List.mem_cons_self, trivial⟩
  | .htmlBlock literal, h => ⟨h _ List.mem_cons_self _ List.mem_cons_self, trivial⟩
  | .table header rows, h => by
    have hown := h _ List.mem_cons_self
    rw [chunksOfBlock] at hown ⊢
    cases htable : tableOf header rows with
    | none => trivial
    | some t => exact ⟨hown (.table t) (by simp [htable]), trivial⟩

/-- What holds of the form of each block of a tree, itself, holds of all blocks in the form of the tree. -/
theorem allIn_chunksOf {P : Chunk → Prop} : ∀ blocks : List Block,
    (∀ b ∈ Block.partsOf blocks, ∀ c ∈ chunksOfBlock b, P c) → Chunk.AllIn P (chunksOf blocks)
  | [], _ => trivial
  | b :: rest, h => by
    rw [Block.partsOf_cons, List.forall_mem_append] at h
    exact allIn_append_iff.2 ⟨allIn_chunksOfBlock b h.1, allIn_chunksOf rest h.2⟩

theorem allItems_itemsOf {P : Chunk → Prop} : ∀ items : List (List Block),
    (∀ b ∈ Block.partsOfItems items, ∀ c ∈ chunksOfBlock b, P c) → Chunk.AllItems P (itemsOf items)
  | [], _ => trivial
  | item :: rest, h => by
    rw [Block.partsOfItems_cons, List.forall_mem_append] at h
    exact ⟨allIn_chunksOf item h.1, allItems_itemsOf rest h.2⟩

end

theorem allIn_isShort {d : Document} (h : ∀ items, .list true items ∈ d.allBlocks → items.length < 99) :
    Chunk.AllIn Chunk.IsShort (chunksOf d.children) := by
  refine allIn_chunksOf d.children fun b hb c hc => ?_
  cases b with
  | list ordered items =>
    obtain rfl := List.mem_singleton.1 hc
    cases ordered with
    | false => trivial
    | true =>
      change (itemsOf items).length < 99
      rw [length_itemsOf]
      exact h items hb
  | table header rows =>
    obtain ⟨t, -, rfl⟩ := List.mem_map.1 hc
    trivial
  | heading | paragraph | blockQuote | codeBlock | htmlBlock =>
    obtain rfl := List.mem_singleton.1 hc
    trivial

/-! ## Markers -/

theorem length_toString_nat (n : Nat) : (toString n).length = (Nat.toDigits 10 n).length := by
  rw [Nat.toString_eq_repr, Nat.repr, String.length_ofList]

theorem length_itemMarker (n : Nat) :
    (itemMarker n).length = (Nat.toDigits 10 n).length + if n < 10 then 3 else 2 := by
  rw [itemMarker, String.length_append, length_toString_nat]
  split <;> rfl

theorem length_itemMarker_le (n : Nat) : (itemMarker n).length ≤ (itemMarker (n + 1)).length := by
  have hlt : n + 1 < 10 ^ (Nat.toDigits 10 (n + 1)).length :=
    (Nat.length_toDigits_le_iff (by decide) Nat.length_toDigits_pos).1 (Nat.le_refl _)
  have hle : (Nat.toDigits 10 n).length ≤ (Nat.toDigits 10 (n + 1)).length :=
    (Nat.length_toDigits_le_iff (by decide) Nat.length_toDigits_pos).2 (Nat.lt_of_succ_lt hlt)
  rw [length_itemMarker, length_itemMarker]
  by_cases hn : n = 9
  · subst hn
    decide
  · split <;> split <;> omega

theorem length_itemMarker_of_lt {n : Nat} (h : n < 100) : (itemMarker n).length = 4 := by
  have hpos : 0 < (Nat.toDigits 10 n).length := Nat.length_toDigits_pos
  have hone : (Nat.toDigits 10 n).length ≤ 1 ↔ n < 10 ^ 1 :=
    Nat.length_toDigits_le_iff (by decide) (by decide)
  have htwo : (Nat.toDigits 10 n).length ≤ 2 ↔ n < 10 ^ 2 :=
    Nat.length_toDigits_le_iff (by decide) (by decide)
  rw [length_itemMarker]
  split <;> omega

/-! ## Where the pen comes back to -/

/-- The pen comes back to the lists and the margin around a block. The margin may have lost some of its end,
unless all lists in the block are `short`. -/
structure Pen.Returns (short : Prop) (p q : Pen) : Prop where
  margin : q.margin <+: p.margin
  margin_eq : short → q.margin = p.margin
  counters : q.counters = p.counters
  inCell : p.inCell = false → q.inCell = false

namespace Pen

variable {short more : Prop} {p q r : Pen}

theorem SameFrame.returns (h : SameFrame p q) : Returns short p q :=
  ⟨h.margin ▸ List.prefix_rfl, fun _ => h.margin, h.counters, h.inCell⟩

theorem Returns.trans (h : Returns short p q) (h' : Returns more q r) : Returns (short ∧ more) p r :=
  ⟨h'.margin.trans h.margin, fun hs => (h'.margin_eq hs.2).trans (h.margin_eq hs.1),
    h'.counters.trans h.counters, fun hcell => h'.inCell (h.inCell hcell)⟩

theorem Returns.imp (h : Returns short p q) (himp : more → short) : Returns more p q :=
  ⟨h.margin, fun hmore => h.margin_eq (himp hmore), h.counters, h.inCell⟩

end Pen

/-- What is taken back is at least what was added. -/
theorem take_isPrefix_of_isPrefix_append {α : Type} {xs around added : List α} {n : Nat}
    (h : xs <+: around ++ added) (hn : added.length ≤ n) : xs.take (xs.length - n) <+: around := by
  refine List.prefix_of_prefix_length_le ((List.take_prefix _ _).trans h) (List.prefix_append _ _) ?_
  have hlength := h.length_le
  rw [List.length_append] at hlength
  rw [List.length_take]
  omega

/-- The pen for the items of a list. -/
def Pen.enterList (ordered : Bool) (p : Pen) : Pen :=
  if ordered then { p with counters := 1 :: p.counters } else p

/-- The pen after the items of a list. -/
def Pen.leaveList (ordered : Bool) (p : Pen) : Pen :=
  if ordered then { p with counters := p.counters.tail } else p

namespace Pen

variable (ordered : Bool) (p : Pen)

@[simp] theorem leaveList_enterList : (p.enterList ordered).leaveList ordered = p := by
  cases ordered <;> rfl

theorem itemNumber_enterList (h : ordered) : (p.enterList ordered).itemNumber = 1 := by
  rw [enterList, if_pos h]
  rfl

@[simp] theorem margin_leaveList : (p.leaveList ordered).margin = p.margin := by
  cases ordered <;> rfl

@[simp] theorem reversed_leaveList : (p.leaveList ordered).reversed = p.reversed := by
  cases ordered <;> rfl

@[simp] theorem inCell_leaveList : (p.leaveList ordered).inCell = p.inCell := by
  cases ordered <;> rfl

theorem counters_leaveList :
    (p.leaveList ordered).counters = if ordered then p.counters.tail else p.counters := by
  cases ordered <;> rfl

end Pen

/-! ## Items -/

section
variable (ordered : Bool) (p : Pen)

theorem margin_openItem :
    (openItem ordered p).margin = p.margin ++ List.replicate (p.nextMarker ordered).length ' ' := by
  rw [← ((Plain.literal (p.nextMarker ordered)).keeps p).margin]
  rfl

theorem counters_openItem : (openItem ordered p).counters =
    if ordered then (p.itemNumber + 1) :: p.counters.tail else p.counters := by
  unfold openItem Pen.itemNumber
  dsimp only
  rw [((Plain.literal (p.nextMarker ordered)).keeps p).counters]

theorem itemNumber_openItem (h : ordered) : (openItem ordered p).itemNumber = p.itemNumber + 1 := by
  rw [Pen.itemNumber, counters_openItem, if_pos h]
  rfl

end

namespace Pen.Returns

variable {ordered : Bool} {short : Prop} {p q : Pen}

theorem itemNumber_eq (h : (openItem ordered p).Returns short q) (hordered : ordered) :
    q.itemNumber = p.itemNumber + 1 := by
  rw [Pen.itemNumber, h.counters]
  exact itemNumber_openItem ordered p hordered

/-- The markers of an item and of the next are equally wide. -/
theorem length_nextMarker (h : (openItem ordered p).Returns short q)
    (hnumber : ordered → p.itemNumber + 1 < 100) :
    (q.nextMarker ordered).length = (p.nextMarker ordered).length := by
  unfold Pen.nextMarker
  split
  · rename_i hordered
    have hlt := hnumber hordered
    rw [h.itemNumber_eq hordered, length_itemMarker_of_lt hlt, length_itemMarker_of_lt (Nat.lt_of_succ_lt hlt)]
  · rfl

end Pen.Returns

/-- An item is written and the pen comes back from it. -/
theorem returns_item (ordered : Bool) {short : Prop} {f : Pen → Pen} (hf : ∀ p : Pen, p.Returns short (f p))
    (p : Pen) :
    (p.leaveList ordered).Returns (short ∧ (ordered → p.itemNumber + 1 < 100))
      ((closeItem ordered (f (openItem ordered p))).leaveList ordered) := by
  have hitem := hf (openItem ordered p)
  have hmargin := hitem.margin
  rw [margin_openItem] at hmargin
  have hwidth : (p.nextMarker ordered).length ≤ ((f (openItem ordered p)).nextMarker ordered).length := by
    unfold Pen.nextMarker
    split
    · rename_i h
      rw [hitem.itemNumber_eq h]
      exact length_itemMarker_le _
    · exact Nat.le_refl _
  refine ⟨?_, fun hshort => ?_, ?_, ?_⟩
  · rw [Pen.margin_leaveList, Pen.margin_leaveList]
    exact take_isPrefix_of_isPrefix_append hmargin (by rwa [List.length_replicate])
  · have hsame := hitem.length_nextMarker hshort.2
    rw [Pen.margin_leaveList, Pen.margin_leaveList, closeItem, Pen.endLine, Pen.outdent]
    dsimp only
    rw [hitem.margin_eq hshort.1, margin_openItem, hsame, List.length_append, List.length_replicate,
      Nat.add_sub_cancel, List.take_left]
  · rw [Pen.counters_leaveList, Pen.counters_leaveList]
    change (if ordered then (f (openItem ordered p)).counters.tail else (f (openItem ordered p)).counters) = _
    rw [hitem.counters, counters_openItem]
    cases ordered <;> rfl
  · rw [Pen.inCell_leaveList, Pen.inCell_leaveList]
    exact fun hcell => hitem.inCell (((Plain.literal _).keeps p).inCell hcell)

theorem itemNumber_closeItem {short : Prop} {f : Pen → Pen} (hf : ∀ p : Pen, p.Returns short (f p)) (p : Pen) :
    (closeItem true (f (openItem true p))).itemNumber = p.itemNumber + 1 := by
  exact (hf (openItem true p)).itemNumber_eq rfl

/-! ## Blocks -/

theorem tight_writeLeaf (first : Bool) (next : Option Chunk) {c : Chunk} (hc : c.isLeaf) {p : Pen}
    (h : p.tight = false) : (writeChunk false first next c p).tight = false := by
  obtain ⟨f, hf, heq⟩ := Plain.exists_leaf false first next hc
  rw [heq, (hf.keeps _).tight, h]
  rfl

theorem returns_writeLeaf (inItem first : Bool) (next : Option Chunk) {c : Chunk} (h : c.isLeaf) (p : Pen)
    {short : Prop} : p.Returns short (writeChunk inItem first next c p) := by
  obtain ⟨f, hf, heq⟩ := Plain.exists_leaf inItem first next h
  have hframe := hf.keeps { p with tight := p.tight || inItem }
  rw [heq]
  exact ⟨hframe.margin.symm ▸ List.prefix_rfl, fun _ => hframe.margin, hframe.counters, hframe.inCell⟩

theorem writeList_eq (inItem first ordered : Bool) (items : List (List Chunk)) (p : Pen) :
    writeChunk inItem first none (.list ordered items) p =
      { (writeItems ordered items (Pen.enterList ordered { p with tight := p.tight || inItem })).leaveList
          ordered with tight := inItem } := by
  rw [writeChunk]
  cases ordered <;> rfl

/-- Begins a quote. -/
def openQuote (p : Pen) : Pen := Pen.indent { p.literal "> " with contentStart := true } "> "

theorem margin_openQuote (p : Pen) : (openQuote p).margin = p.margin ++ ['>', ' '] := by
  rw [← ((Plain.literal "> ").keeps p).margin]
  rfl

theorem writeQuote_eq (inItem first : Bool) (next : Option Chunk) (children : List Chunk) (p : Pen) :
    writeChunk inItem first next (.blockQuote children) p =
      ((writeChunks false true children (openQuote { p with tight := p.tight || inItem })).outdent
        2).endBlock := by
  rw [writeChunk]
  rfl

mutual

/-- **The pen comes back from a block.** -/
theorem returns_writeChunk (inItem first : Bool) (next : Option Chunk) : ∀ (c : Chunk) (p : Pen),
    p.Returns (c.All Chunk.IsShort) (writeChunk inItem first next c p)
  | .list ordered items, p => by
    rw [writeChunk_eq]
    have hlist : p.Returns ((Chunk.list ordered items).All Chunk.IsShort)
        (writeChunk inItem first none (.list ordered items) p) := by
      have hitems := returns_writeItems ordered items
        (Pen.enterList ordered { p with tight := p.tight || inItem })
      rw [Pen.leaveList_enterList] at hitems
      have hshort : (Chunk.list ordered items).All Chunk.IsShort → Chunk.AllItems Chunk.IsShort items ∧
          (ordered → (Pen.enterList ordered { p with tight := p.tight || inItem }).itemNumber +
            items.length < 100) := fun hall => by
        refine ⟨hall.2, fun h => ?_⟩
        subst h
        have hlength : items.length < 99 := hall.1
        rw [Pen.itemNumber_enterList true _ rfl]
        omega
      rw [writeList_eq]
      exact ⟨hitems.margin, fun hall => hitems.margin_eq (hshort hall), hitems.counters, hitems.inCell⟩
    split
    · exact (hlist.trans (plain_closeList.keeps _).returns).imp fun hshort => ⟨hshort, trivial⟩
    · exact hlist
  | .blockQuote children, p => by
    have hchildren := returns_writeChunks false true children (openQuote { p with tight := p.tight || inItem })
    have hframe := (Plain.literal "> ").keeps { p with tight := p.tight || inItem }
    have hmargin := hchildren.margin
    rw [margin_openQuote] at hmargin
    rw [writeQuote_eq]
    refine ⟨take_isPrefix_of_isPrefix_append hmargin (Nat.le_refl 2), fun hall => ?_,
      hchildren.counters.trans hframe.counters, fun hcell => hchildren.inCell (hframe.inCell hcell)⟩
    have heq := hchildren.margin_eq hall.2
    rw [margin_openQuote] at heq
    rw [Pen.endBlock, Pen.outdent]
    dsimp only
    rw [heq, List.length_append]
    exact List.take_left
  | .heading .., p | .paragraph _, p | .codeBlock .., p | .htmlBlock _, p | .table _, p =>
    returns_writeLeaf inItem first next rfl p

theorem returns_writeChunks (inItem first : Bool) : ∀ (cs : List Chunk) (p : Pen),
    p.Returns (Chunk.AllIn Chunk.IsShort cs) (writeChunks inItem first cs p)
  | [], p => (Pen.SameFrame.refl p).returns
  | c :: rest, p => by
    rw [writeChunks]
    exact (returns_writeChunk inItem first rest.head? c p).trans (returns_writeChunks inItem false rest _)

/-- The pen comes back from the items of a list. -/
theorem returns_writeItems (ordered : Bool) : ∀ (items : List (List Chunk)) (p : Pen),
    (p.leaveList ordered).Returns
      (Chunk.AllItems Chunk.IsShort items ∧ (ordered → p.itemNumber + items.length < 100))
      ((writeItems ordered items p).leaveList ordered)
  | [], p => (Pen.SameFrame.refl _).returns
  | item :: rest, p => by
    rw [writeItems]
    have hitem := returns_item ordered (returns_writeChunks true true item) p
    have hrest := returns_writeItems ordered rest
      (closeItem ordered (writeChunks true true item (openItem ordered p)))
    refine (hitem.trans hrest).imp fun ⟨hshort, hcount⟩ => ?_
    rw [List.length_cons] at hcount
    refine ⟨⟨hshort.1, fun h => ?_⟩, hshort.2, fun h => ?_⟩
    · have := hcount h
      omega
    · subst h
      rw [itemNumber_closeItem (returns_writeChunks true true item)]
      have := hcount rfl
      omega

end

/-! ## What is taken off the margin -/

mutual

/-- While the block is written, there is always as much on the margin as is taken off it. -/
def Chunk.HoldsMargin (inItem first : Bool) : Chunk → Pen → Prop
  | .list ordered items, p =>
    Chunk.ItemsHoldMargin ordered items (Pen.enterList ordered { p with tight := p.tight || inItem })
  | .blockQuote children, p =>
    let opened := openQuote { p with tight := p.tight || inItem }
    Chunk.HoldMargin false true children opened ∧ 2 ≤ (writeChunks false true children opened).margin.length
  | .codeBlock info text, p =>
    let before := { p with tight := p.tight || inItem }.endBlock
    isIndented info text (inItem && first) →
      4 ≤ (((before.literal "    ").indent "    ").literal text).margin.length
  | .heading .., _ | .paragraph _, _ | .htmlBlock _, _ | .table _, _ => True

/-- While the blocks are written, there is always as much on the margin as is taken off it. -/
def Chunk.HoldMargin (inItem first : Bool) : List Chunk → Pen → Prop
  | [], _ => True
  | c :: rest, p =>
    c.HoldsMargin inItem first p ∧ Chunk.HoldMargin inItem false rest (writeChunk inItem first rest.head? c p)

/-- While the items are written, there is always as much on the margin as is taken off it. -/
def Chunk.ItemsHoldMargin (ordered : Bool) : List (List Chunk) → Pen → Prop
  | [], _ => True
  | item :: rest, p =>
    let written := writeChunks true true item (openItem ordered p)
    Chunk.HoldMargin true true item (openItem ordered p) ∧
      (written.nextMarker ordered).length ≤ written.margin.length ∧
      Chunk.ItemsHoldMargin ordered rest (closeItem ordered written)

end

mutual

/-- **Short lists never take too much off the margin.** -/
theorem holdsMargin_of_isShort (inItem first : Bool) : ∀ (c : Chunk) (p : Pen), c.All Chunk.IsShort →
    c.HoldsMargin inItem first p
  | .list ordered items, p, h => by
    refine itemsHoldMargin_of_isShort ordered items _ h.2 fun hordered => ?_
    subst hordered
    have hlength : items.length < 99 := h.1
    rw [Pen.itemNumber_enterList true _ rfl]
    omega
  | .blockQuote children, p, h => by
    refine ⟨holdMargin_of_isShort false true children _ h.2, ?_⟩
    rw [(returns_writeChunks false true children _).margin_eq h.2, margin_openQuote, List.length_append]
    exact Nat.le_add_left 2 _
  | .codeBlock info text, p, _ => fun _ => by
    have hmargin (q : Pen) : (((q.literal "    ").indent "    ").literal text).margin =
        (q.literal "    ").margin ++ "    ".toList := ((Plain.literal text).keeps _).margin
    rw [hmargin, List.length_append]
    exact Nat.le_add_left 4 _
  | .heading .., _, _ | .paragraph _, _, _ | .htmlBlock _, _, _ | .table _, _, _ => trivial

theorem holdMargin_of_isShort (inItem first : Bool) : ∀ (cs : List Chunk) (p : Pen),
    Chunk.AllIn Chunk.IsShort cs → Chunk.HoldMargin inItem first cs p
  | [], _, _ => trivial
  | c :: rest, p, h =>
    ⟨holdsMargin_of_isShort inItem first c p h.1, holdMargin_of_isShort inItem false rest _ h.2⟩

theorem itemsHoldMargin_of_isShort (ordered : Bool) : ∀ (items : List (List Chunk)) (p : Pen),
    Chunk.AllItems Chunk.IsShort items → (ordered → p.itemNumber + items.length < 100) →
      Chunk.ItemsHoldMargin ordered items p
  | [], _, _, _ => trivial
  | item :: rest, p, h, hcount => by
    rw [List.length_cons] at hcount
    have hitem := returns_writeChunks true true item (openItem ordered p)
    refine ⟨holdMargin_of_isShort true true item _ h.1, ?_,
      itemsHoldMargin_of_isShort ordered rest _ h.2 fun hordered => ?_⟩
    · rw [hitem.length_nextMarker fun hordered => by have := hcount hordered; omega, hitem.margin_eq h.1,
        margin_openItem, List.length_append, List.length_replicate]
      exact Nat.le_add_left _ _
    · subst hordered
      rw [itemNumber_closeItem (returns_writeChunks true true item)]
      have := hcount rfl
      omega

end

theorem not_itemsHoldMargin : ∀ (items : List (List Chunk)) (p : Pen), p.margin = [] → p.itemNumber < 100 →
    100 ≤ p.itemNumber + items.length → ¬Chunk.ItemsHoldMargin true items p
  | [], _, _, hlt, hle => absurd hle (Nat.not_le.2 hlt)
  | item :: rest, p, hp, hlt, hle => by
    rintro ⟨-, hwidth, hrest⟩
    have hitem := returns_writeChunks true true item (openItem true p)
    have hmargin := hitem.margin.length_le
    rw [margin_openItem, hp, List.nil_append, List.length_replicate] at hmargin
    have hnext : (writeChunks true true item (openItem true p)).nextMarker true = itemMarker (p.itemNumber + 1) :=
      congrArg itemMarker (hitem.itemNumber_eq rfl)
    have hnumber := itemNumber_closeItem (returns_writeChunks true true item) p
    rw [hnext] at hwidth
    by_cases hlast : p.itemNumber = 99
    · -- the next marker is the first with three digits
      have hthis : (p.nextMarker true).length = 4 := length_itemMarker_of_lt hlt
      have hwide : (itemMarker (p.itemNumber + 1)).length = 5 := by
        rw [hlast]
        decide
      omega
    · refine not_itemsHoldMargin rest _ ?_ ?_ ?_ hrest
      · have hle : (p.nextMarker true).length ≤ (itemMarker (p.itemNumber + 1)).length :=
          length_itemMarker_le p.itemNumber
        change List.take _ _ = []
        rw [hnext, Nat.sub_eq_zero_of_le (hmargin.trans hle), List.take_zero]
      · rw [hnumber]
        omega
      · rw [List.length_cons] at hle
        rw [hnumber]
        omega

/-- At the top a list of 99 items takes more off the margin than there is: after its last item it takes back the
width of the marker with the number 100. -/
theorem not_holdsMargin_of_long (inItem first : Bool) {items : List (List Chunk)} (h : 99 ≤ items.length) {p : Pen}
    (hp : p.margin = []) : ¬(Chunk.list true items).HoldsMargin inItem first p := by
  refine not_itemsHoldMargin items _ hp ?_ ?_
  · rw [Pen.itemNumber_enterList true _ rfl]
    decide
  · rw [Pen.itemNumber_enterList true _ rfl]
    omega

/-- The text of the document is written without taking more off the margin than there is on it. -/
def HoldsMargin (d : Document) : Prop := Chunk.HoldMargin false true (chunksOf d.children) {}

theorem holdsMargin_of_shortLists {d : Document}
    (h : ∀ items, .list true items ∈ d.allBlocks → items.length < 99) : HoldsMargin d :=
  holdMargin_of_isShort false true _ _ (allIn_isShort h)

/-! ## At the top -/

mutual

/-- A block that stands in no item leaves the lines after it loose. -/
theorem tight_writeChunk (first : Bool) (next : Option Chunk) : ∀ (c : Chunk) (p : Pen), p.tight = false →
    (writeChunk false first next c p).tight = false
  | .list ordered items, p, _ => by
    rw [writeChunk_eq, writeList_eq]
    split
    · exact (plain_closeList.keeps _).tight
    · rfl
  | .blockQuote children, p, h => by
    rw [writeQuote_eq]
    refine tight_writeChunks true children _ ?_
    have hquote : (openQuote { p with tight := p.tight || false }).tight = (p.tight || false) :=
      ((Plain.literal "> ").keeps _).tight
    rw [hquote, h]
    rfl
  | .heading .., p, h | .paragraph _, p, h | .codeBlock .., p, h | .htmlBlock _, p, h | .table _, p, h =>
    tight_writeLeaf first next rfl h

theorem tight_writeChunks (first : Bool) : ∀ (cs : List Chunk) (p : Pen), p.tight = false →
    (writeChunks false first cs p).tight = false
  | [], _, h => h
  | c :: rest, p, h => by
    rw [writeChunks]
    exact tight_writeChunks false rest _ (tight_writeChunk first rest.head? c p h)

end

/-- The pen stands in no quote, no list and no cell. -/
structure Pen.AtTop (p : Pen) : Prop where
  margin : p.margin = []
  tight : p.tight = false
  counters : p.counters = []
  inCell : p.inCell = false

namespace Pen.AtTop

theorem start : AtTop {} := ⟨rfl, rfl, rfl, rfl⟩

variable {p q : Pen}

theorem of_sameFrame (hp : p.AtTop) (h : p.SameFrame q) : q.AtTop :=
  ⟨h.margin.trans hp.margin, h.tight.trans hp.tight, h.counters.trans hp.counters, h.inCell hp.inCell⟩

theorem writeChunks (hp : p.AtTop) (first : Bool) (cs : List Chunk) : (writeChunks false first cs p).AtTop := by
  have h := returns_writeChunks false first cs p
  exact ⟨List.prefix_nil.1 (hp.margin ▸ h.margin), tight_writeChunks first cs p hp.tight,
    h.counters.trans hp.counters, h.inCell hp.inCell⟩

theorem writeBefore (hp : p.AtTop) (first : Bool) (c : Chunk) (cs : List Chunk) :
    (writeBefore false first c cs p).AtTop := by
  unfold Markdown.writeBefore
  split
  · exact (hp.writeChunks first cs).of_sameFrame (plain_closeList.keeps _)
  · exact hp.writeChunks first cs

end Pen.AtTop

end BookCatalog.Markdown
