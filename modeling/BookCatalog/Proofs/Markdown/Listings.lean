import BookCatalog.Proofs.Chapter.Renderable
import BookCatalog.Proofs.Markdown.Lines

/-!
# Listings

A listing with a language that stands at the top of a document is written between two fences, as it is: each
character of it, at any place in the document and whatever stands around it (`writeListing`). No run in the
listing is as long as its fence. Then the separators are erased from the whole text, and from the listing with it;
so a listing is left as it is exactly when no separator stands in it (`exists_listingPlace`), and a listing about
Markdown loses lines (`separator_in_listing_lost`).
-/

namespace BookCatalog.Markdown

/-! ## Fences -/

/-- A run of a character in a text is no longer than one of the runs that are counted. -/
theorem exists_runLengths_of_isInfix {c : Char} {n : Nat} (hn : n ≠ 0) : ∀ (cs : List Char) (current : Nat),
    List.replicate n c <:+: List.replicate current c ++ cs → ∃ m ∈ runLengths c current cs, n ≤ m
  | [], current, h => by
    have hle : n ≤ current := by simpa using h.length_le
    have hcurrent : current ≠ 0 := by omega
    exact ⟨current, by simp [runLengths, hcurrent], hle⟩
  | d :: rest, current, h => by
    by_cases hd : d = c
    · subst hd
      rw [runLengths, if_pos rfl]
      refine exists_runLengths_of_isInfix hn rest (current + 1) ?_
      rwa [List.replicate_succ', List.append_assoc]
    · have hnot : d ∉ List.replicate n c := fun hmem => hd (List.eq_of_mem_replicate hmem)
      rw [runLengths, if_neg hd]
      rcases isInfix_append_cons_of_not_mem hnot h with h | h
      · have hle : n ≤ current := by simpa using h.length_le
        have hcurrent : current ≠ 0 := by omega
        exact ⟨current, by simp [hcurrent], hle⟩
      · obtain ⟨m, hm, hle⟩ := exists_runLengths_of_isInfix hn rest 0 h
        refine ⟨m, ?_, hle⟩
        split
        · exact hm
        · exact List.mem_cons_of_mem _ hm

/-- The bar around a listing is longer than every run of its mark in the listing. -/
theorem not_codeBar_isInfix (info literal : String) : ¬(codeBar info literal).toList <:+: literal.toList := by
  intro h
  obtain ⟨n, -, hlongest, hbar⟩ := exists_codeBar_eq info literal
  rw [hbar, ← List.replicate_succ'] at h
  obtain ⟨m, hm, hle⟩ := exists_runLengths_of_isInfix (Nat.succ_ne_zero n) literal.toList 0 h
  have hmax : m ≤ longestRun (barMark info) literal.toList :=
    (List.max?_le_iff List.max?_cons').1 (Nat.le_refl _) m (List.mem_cons_of_mem 0 hm)
  omega

/-! ## A listing at the top -/

/-- The lines of a text, the last one ended. -/
def endedLines (s : String) : List Char := if s = "" then [] else (closedLine s).toList

/-- A listing between its fences. -/
def fencedListing (info literal : String) : List Char :=
  (codeBar info literal).toList ++ ' ' :: (closedLine info).toList ++ endedLines literal ++
    (codeBar info literal).toList

theorem closedLine_append (s : String) {t : String} (ht : t ≠ "") : closedLine (s ++ t) = s ++ closedLine t := by
  have hlast : (s ++ t).toList.getLast? = t.toList.getLast? := by
    rw [String.toList_append, List.getLast?_append_of_ne_nil _ (by simpa using ht)]
  rw [closedLine, closedLine, hlast]
  split
  · rfl
  · rw [String.append_assoc]

theorem closedLine_fenceLine {info : String} (hinfo : info ≠ "") (literal : String) :
    (closedLine (fenceLine info literal)).toList =
      (codeBar info literal).toList ++ ' ' :: (closedLine info).toList := by
  rw [fenceLine, if_neg hinfo, closedLine_append _ (by simp), closedLine_append _ hinfo, String.toList_append,
    String.toList_append]
  rfl

/-- The lines of a listing are written as they stand, after the line that opens it. -/
theorem reversed_listing {p : Pen} (hp : p.AtTop) {info : String} (hinfo : info ≠ "") (literal : String) :
    ((p.literal (fenceLine info literal)).endLine.literal literal).endLine.settle.reversed =
      ((codeBar info literal).toList ++ ' ' :: (closedLine info).toList ++ endedLines literal).reverse ++
        p.settle.reversed := by
  have hline : fenceLine info literal ≠ "" := by
    rw [fenceLine, if_neg hinfo]
    simp [hinfo]
  have hopened := hp.reversed_literal hline
  have hended := Pen.reversed_settle_endLine hline (Pen.breaks_literal hline p) hopened
  rw [closedLine_fenceLine hinfo] at hended
  by_cases hliteral : literal = ""
  · rw [hliteral, Pen.literal_empty, Pen.endLine_endLine, ← hliteral, hended, endedLines, if_pos hliteral,
      List.append_nil]
  · have htop := (hp.of_sameFrame ((Plain.literal (fenceLine info literal)).keeps p)).of_sameFrame
      (Plain.endLine.keeps _)
    have hwritten := htop.reversed_literal hliteral
    rw [hended] at hwritten
    rw [Pen.reversed_settle_endLine hliteral (Pen.breaks_literal hliteral _) hwritten, endedLines,
      if_neg hliteral]
    simp

/-- The pen after a listing, the text before its last character left out. -/
def afterListing (info : String) : Pen :=
  { reversed := [barMark info], breaks := 2, lineStart := false, contentStart := false }

/-- **A listing is written as it is**, and the pen after it does not depend on it. -/
theorem writeListing {p : Pen} (hp : p.AtTop) {info : String} (hinfo : info ≠ "") (literal : String)
    (first : Bool) (next : Option Chunk) :
    ∃ base, writeChunk false first next (.codeBlock info literal) p = (afterListing info).onto base ∧
      barMark info :: base = (fencedListing info literal).reverse ++ p.endBlock.settle.reversed := by
  obtain ⟨n, -, -, hbar⟩ := exists_codeBar_eq info literal
  have hne : codeBar info literal ≠ "" := Pen.ne_empty_of_toList_concat hbar
  have hfenced : isIndented info literal false = false := by simp [isIndented, hinfo]
  have hmark : barMark info ≠ '\n' ∧ Pen.isDigit (barMark info) = false := by
    rcases barMark_eq info with h | h <;> rw [h] <;> decide
  have hstart : p.endBlock.AtTop := hp.of_sameFrame (Plain.endBlock.keeps p)
  -- the pen before the bar that closes the listing, and after it
  obtain ⟨q, hq⟩ : ∃ q : Pen, q = ((p.endBlock.literal (fenceLine info literal)).endLine.literal literal).endLine :=
    ⟨_, rfl⟩
  have hqtop : q.AtTop := hq ▸ hstart.of_sameFrame ((Plain.endLine.comp ((Plain.literal literal).comp
    (Plain.endLine.comp (Plain.literal (fenceLine info literal))))).keeps p.endBlock)
  have hwritten : writeChunk false first next (.codeBlock info literal) p =
      (q.literal (codeBar info literal)).endBlock := by
    rw [writeChunk, writeCodeBlock_eq, Bool.false_and, hfenced, hq, Bool.or_false]
    rfl
  have hreversed : (q.literal (codeBar info literal)).reversed =
      (fencedListing info literal).reverse ++ p.endBlock.settle.reversed := by
    rw [hqtop.reversed_literal hne, hq, reversed_listing hstart hinfo, fencedListing]
    simp
  have htop := hqtop.of_sameFrame ((Plain.literal (codeBar info literal)).keeps q)
  obtain ⟨hline, hcontent⟩ := Pen.literal_starts hbar hmark.1 hmark.2 q
  obtain ⟨front, hfront⟩ : ∃ front, fencedListing info literal = front ++ [barMark info] :=
    ⟨_, by rw [fencedListing, hbar, ← List.append_assoc]⟩
  rw [hfront, List.reverse_append, List.reverse_singleton, List.singleton_append, List.cons_append] at hreversed
  refine ⟨front.reverse ++ p.endBlock.settle.reversed, ?_, by rw [hfront]; simp⟩
  rw [hwritten, Pen.endBlock, Pen.breaks_literal hne, htop.margin, htop.tight, htop.counters, htop.inCell, hline,
    hcontent, hreversed]
  rfl

/-! ## Erasing in a listing -/

theorem barMark_not_mem_listSeparator (info : String) : barMark info ∉ listSeparator := by
  rcases barMark_eq info with h | h <;> rw [h] <;> decide

theorem exists_fencedListing_eq (info literal : String) :
    ∃ inner, fencedListing info literal = barMark info :: inner ++ [barMark info] := by
  obtain ⟨n, -, -, hbar⟩ := exists_codeBar_eq info literal
  refine ⟨List.replicate n (barMark info) ++ ' ' :: (closedLine info).toList ++ endedLines literal ++
    List.replicate n (barMark info), ?_⟩
  have hfirst : (codeBar info literal).toList = barMark info :: List.replicate n (barMark info) := by
    rw [hbar, ← List.replicate_succ', List.replicate_succ]
  calc fencedListing info literal
      = (codeBar info literal).toList ++ ' ' :: (closedLine info).toList ++ endedLines literal ++
          (codeBar info literal).toList := rfl
    _ = (barMark info :: List.replicate n (barMark info)) ++ ' ' :: (closedLine info).toList ++
          endedLines literal ++ (List.replicate n (barMark info) ++ [barMark info]) := by
        rw [← hbar, ← hfirst]
    _ = _ := by simp

/-- A separator has no part in the bars around a listing. -/
theorem separator_isInfix_fencedListing_iff (info literal : String) :
    listSeparator <:+: fencedListing info literal ↔
      listSeparator <:+: (closedLine info).toList ++ endedLines literal := by
  have hmark := barMark_not_mem_listSeparator info
  obtain ⟨n, -, -, hbar⟩ := exists_codeBar_eq info literal
  have hmarks : ¬listSeparator <:+: List.replicate n (barMark info) := fun h =>
    hmark (List.eq_of_mem_replicate (h.subset (by decide : '<' ∈ listSeparator)) ▸ by decide)
  constructor
  · intro h
    have hwhole : fencedListing info literal =
        (List.replicate n (barMark info) ++ barMark info :: ' ' :: ((closedLine info).toList ++ endedLines literal)) ++
          barMark info :: List.replicate n (barMark info) := by
      rw [← List.replicate_succ, List.replicate_succ', ← hbar, fencedListing, hbar]
      simp
    rw [hwhole] at h
    have h := (isInfix_append_cons_of_not_mem hmark h).resolve_right hmarks
    have h := (isInfix_append_cons_of_not_mem hmark h).resolve_left hmarks
    refine (List.infix_cons_iff.1 h).resolve_left fun hbegin => ?_
    simp [listSeparator, endOfList] at hbegin
  · intro h
    have hwhole : fencedListing info literal = ((codeBar info literal).toList ++ [' ']) ++
        ((closedLine info).toList ++ endedLines literal) ++ (codeBar info literal).toList := by
      simp [fencedListing]
    exact hwhole ▸ h.trans (List.infix_append _ _ _)

/-- Between `before` and `after` stands a listing that is only kept as far as there are no separators in it. -/
structure ListingPlace (pre post : List Block) (info : String) (before after : List Char) : Prop where
  /-- The listing begins a line. -/
  starts : EndsLine before
  /-- The listing ends a line. -/
  ends : after.head? = some '\n'
  /-- The text, whatever the listing is: separators are erased from all of it. -/
  text : ∀ literal, render? ⟨pre ++ .codeBlock (some info) literal :: post⟩ =
    some (String.ofList (erase listSeparator before ++ erase listSeparator (fencedListing info literal) ++
      erase listSeparator after))
  /-- No line in the listing can be taken for the bar that closes it. -/
  bar : ∀ literal, ¬(codeBar info literal).toList <:+: literal.toList
  /-- The listing is left as it is exactly when no separator stands in its lines. -/
  kept_iff : ∀ literal, erase listSeparator (fencedListing info literal) = fencedListing info literal ↔
    ¬listSeparator <:+: (closedLine info).toList ++ endedLines literal

/-- **Where listings are left as they are.** Between any blocks a listing with a language has one place, which does
not depend on the listing: there it stands between its fences as it is, but for the separators in it. -/
theorem exists_listingPlace (pre post : List Block) (info : String) (hinfo : info ≠ "")
    (hrendered : (render? ⟨pre ++ post⟩).isSome) : ∃ before after, ListingPlace pre post info before after := by
  have hmark := barMark_not_mem_listSeparator info
  have hends : barMark info ≠ '\n' := by rcases barMark_eq info with h | h <;> rw [h] <;> decide
  -- the pen before the listing, and what is written after it
  obtain ⟨p, hp⟩ : ∃ p, p = writeBefore false true (.codeBlock info "") (chunksOf pre) {} := ⟨_, rfl⟩
  have htop : p.AtTop := hp ▸ Pen.AtTop.start.writeBefore true _ _
  obtain ⟨added, hadded, hstart⟩ := exists_writeChunks_eq (q := afterListing info) (c := barMark info)
    Nat.zero_lt_two rfl hends false false (chunksOf post)
  refine ⟨p.endBlock.settle.text, closedText added,
    (Pen.startsLine_settle p.breaks_endBlock_pos).endsLine, head?_closedText hstart, fun literal => ?_,
    not_codeBar_isInfix info, fun literal => ?_⟩
  · have hempty : Chunk.anyEmptyCode (chunksOf pre ++ .codeBlock info literal :: chunksOf post) = false := by
      rw [isSome_render?_iff, chunksOf_append, anyEmptyCode_append, Bool.or_eq_false_iff] at hrendered
      rw [anyEmptyCode_append, hrendered.1, Chunk.anyEmptyCode, hrendered.2]
      rfl
    obtain ⟨base, hwritten, hbase⟩ := writeListing htop hinfo literal (true && (chunksOf pre).isEmpty)
      (chunksOf post).head?
    have htext : (writeChunks false true (chunksOf pre ++ .codeBlock info literal :: chunksOf post) {}).reversed =
        added ++ barMark info :: base := by
      have hbefore : writeBefore false true (.codeBlock info literal) (chunksOf pre) {} = p := hp.symm
      rw [writeChunks_append_cons, hbefore, hwritten,
        (Local.writeChunks false false (chunksOf post)).onto_eq base (afterListing info)
          ⟨barMark info, List.mem_singleton_self _, hends⟩]
      rw [Pen.onto, hadded, List.append_assoc]
      rfl
    obtain ⟨inner, hinner⟩ := exists_fencedListing_eq info literal
    have hrender := renderText_eq hends htext
    rw [hbase, List.reverse_append, List.reverse_reverse] at hrender
    have hchunks : chunksOf (pre ++ .codeBlock (some info) literal :: post) =
        chunksOf pre ++ .codeBlock info literal :: chunksOf post := by
      rw [chunksOf_append]
      rfl
    have hfirst : Apart listSeparator p.endBlock.settle.text (fencedListing info literal) := by
      rw [hinner]
      exact apart_of_not_mem hmark
    have hlast : Apart listSeparator (p.endBlock.settle.text ++ fencedListing info literal) (closedText added) := by
      rw [hinner, ← List.append_assoc]
      exact apart_of_last_not_mem hmark
    rw [render?, hchunks, hempty, hrender, ← Pen.text, erase_append hlast, erase_append hfirst]
    rfl
  · rw [erase_eq_self_iff listSeparator_ne_nil, separator_isInfix_fencedListing_iff]

/-- A list, then the place of a listing, then a line. -/
def listingNeighbours : List Block × List Block :=
  ([.list false [[.paragraph [.text "a"]]]], [.paragraph [.text "b"]])

theorem exists_listingPlace_after_list :
    ("swift" ≠ "" ∧ (render? ⟨listingNeighbours.1 ++ listingNeighbours.2⟩).isSome) ∧
      ∃ before after, ListingPlace listingNeighbours.1 listingNeighbours.2 "swift" before after :=
  have hrendered : (render? ⟨listingNeighbours.1 ++ listingNeighbours.2⟩).isSome := by decide +kernel
  ⟨⟨by decide, hrendered⟩, exists_listingPlace _ _ "swift" (by decide) hrendered⟩

/-- **A listing that loses a line.** A listing about separators is shown without them. -/
theorem separator_in_listing_lost :
    let literal := "<!-- end list -->\n\nx\n"
    let text := "\x60\x60\x60 swift\nx\n\x60\x60\x60\n"
    render? ⟨[.codeBlock (some "swift") literal]⟩ = some text ∧
      ¬fencedListing "swift" literal <:+: text.toList := by
  decide +kernel

end BookCatalog.Markdown
