/-!
# The table of anchors

An anchor table maps the id of a section to the slug of its heading. The entries stand in increasing
order of id. The first slug recorded for an id stays: `insert` and `merge` never replace one.
-/

namespace BookCatalog

/-- Anchors in strictly increasing order of id. -/
structure AnchorTable where
  entries : List (String × String)
  sorted : entries.Pairwise (fun a b => a.1 < b.1)

namespace AnchorTable

/-- The entries with `id` added at its place, unless it is there already. -/
def insertEntry (id slug : String) : List (String × String) → List (String × String)
  | [] => [(id, slug)]
  | (key, value) :: rest =>
    if id < key then (id, slug) :: (key, value) :: rest
    else if id = key then (key, value) :: rest
    else (key, value) :: insertEntry id slug rest

theorem mem_insertEntry {id slug : String} {e : String × String} :
    ∀ {es : List (String × String)}, e ∈ insertEntry id slug es → e = (id, slug) ∨ e ∈ es
  | [], h => by simpa [insertEntry] using h
  | (key, value) :: rest, h => by
    unfold insertEntry at h
    split at h
    · simpa using h
    · split at h
      · exact .inr h
      · rcases List.mem_cons.1 h with h | h
        · simp [h]
        · rcases mem_insertEntry h with h | h
          · exact .inl h
          · simp [h]

theorem pairwise_insertEntry (id slug : String) :
    ∀ {es : List (String × String)}, es.Pairwise (fun a b => a.1 < b.1) →
      (insertEntry id slug es).Pairwise (fun a b => a.1 < b.1)
  | [], _ => by simp [insertEntry]
  | (key, value) :: rest, h => by
    obtain ⟨hk, hr⟩ := List.pairwise_cons.1 h
    unfold insertEntry
    split
    · rename_i hlt
      refine List.pairwise_cons.2 ⟨fun e he => ?_, h⟩
      rcases List.mem_cons.1 he with rfl | he
      · exact hlt
      · exact String.lt_trans hlt (hk e he)
    · split
      · exact h
      · rename_i hlt hne
        refine List.pairwise_cons.2 ⟨fun e he => ?_, pairwise_insertEntry id slug hr⟩
        rcases mem_insertEntry he with rfl | he
        · exact Std.lt_of_le_of_ne (String.not_lt.1 hlt) (fun h => hne h.symm)
        · exact hk e he

/-- No anchors. -/
def empty : AnchorTable := ⟨[], List.Pairwise.nil⟩

instance : EmptyCollection AnchorTable := ⟨empty⟩
instance : Inhabited AnchorTable := ⟨empty⟩

/-- The slug recorded for `id`. -/
def get? (t : AnchorTable) (id : String) : Option String := t.entries.lookup id

/-- Whether `id` is recorded. -/
def contains (t : AnchorTable) (id : String) : Bool := (t.get? id).isSome

/-- The table with `slug` recorded for `id`, unless `id` is recorded already. -/
def insert (t : AnchorTable) (id slug : String) : AnchorTable :=
  ⟨insertEntry id slug t.entries, pairwise_insertEntry id slug t.sorted⟩

/-- Offers a slug for `id`, and tells whether it was recorded. -/
def offer (t : AnchorTable) (id slug : String) : Bool × AnchorTable :=
  (!t.contains id, t.insert id slug)

/-- The table with a list of pairs offered to it, one after the other. -/
def insertAll (t : AnchorTable) (pairs : List (String × String)) : AnchorTable :=
  pairs.foldl (fun t p => t.insert p.1 p.2) t

/-- The table of a list of pairs; of two pairs with one id the first wins. -/
def ofList (pairs : List (String × String)) : AnchorTable := empty.insertAll pairs

/-- Both tables in one; an id that is in both keeps its slug of `t`. -/
def merge (t other : AnchorTable) : AnchorTable := t.insertAll other.entries

/-- How many ids are recorded. -/
def size (t : AnchorTable) : Nat := t.entries.length

/-- Whether no id is recorded. -/
def isEmpty (t : AnchorTable) : Bool := t.entries.isEmpty

end AnchorTable

end BookCatalog
