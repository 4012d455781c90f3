import BookCatalog.AnchorTable
import Mathlib.Data.List.Dedup

/-!
# What an anchor table holds

An anchor table is the function `get?` from ids to slugs. Each operation is described by what it does to
that function: an id that is offered several times keeps the first slug (`get?_insertAll`). The size of
a table is the number of different ids that were offered (`size_eq_length_dedup`).
-/

namespace BookCatalog.AnchorTable

/-! ## Sorted entries -/

theorem lookup_cons_of_ne {key : String} {e : String × String} (h : key ≠ e.1)
    (es : List (String × String)) : (e :: es).lookup key = es.lookup key := by
  have hb : (key == e.1) = false := by simpa using h
  rw [List.lookup_cons, hb]

theorem lookup_eq_none_of_lt {id : String} {es : List (String × String)} (h : ∀ e ∈ es, id < e.1) :
    es.lookup id = none := by
  refine List.lookup_eq_none_iff.2 fun e he => ?_
  have hne : id ≠ e.1 := fun heq => String.lt_irrefl e.1 (heq ▸ h e he)
  simpa using hne

theorem lookup_insertEntry {id slug : String} (key : String) :
    ∀ {es : List (String × String)}, es.Pairwise (fun a b => a.1 < b.1) →
      (insertEntry id slug es).lookup key = (es.lookup key).or (if key = id then some slug else none)
  | [], _ => by
    by_cases h : key = id
    · simp [insertEntry, h]
    · simp [insertEntry, lookup_cons_of_ne (e := (id, slug)) h, h]
  | (k, v) :: rest, hs => by
    obtain ⟨hk, hr⟩ := List.pairwise_cons.1 hs
    unfold insertEntry
    split
    · rename_i hlt
      by_cases h : key = id
      · subst h
        have hnone : ((k, v) :: rest).lookup key = none := lookup_eq_none_of_lt fun e he => by
          rcases List.mem_cons.1 he with rfl | he
          · exact hlt
          · exact String.lt_trans hlt (hk e he)
        simp [hnone]
      · simp [lookup_cons_of_ne (e := (id, slug)) h, h]
    · split
      · rename_i he
        subst he
        by_cases h : key = id <;> simp [h]
      · by_cases h : key = k
        · simp [h]
        · rw [lookup_cons_of_ne h, lookup_cons_of_ne h]
          exact lookup_insertEntry key hr

theorem head_le_of_lookup {key : String} {e : String × String} {es : List (String × String)}
    (hs : (e :: es).Pairwise (fun a b => a.1 < b.1)) (h : ((e :: es).lookup key).isSome) :
    e.1 ≤ key := by
  refine String.not_lt.1 fun hlt => ?_
  have hnone : (e :: es).lookup key = none := lookup_eq_none_of_lt fun x hx => by
    rcases List.mem_cons.1 hx with rfl | hx
    · exact hlt
    · exact String.lt_trans hlt ((List.pairwise_cons.1 hs).1 x hx)
  simp [hnone] at h

/-- Sorted entries are known from what is looked up in them. -/
theorem eq_of_lookup_eq : ∀ {es es' : List (String × String)},
    es.Pairwise (fun a b => a.1 < b.1) → es'.Pairwise (fun a b => a.1 < b.1) →
      (∀ id, es.lookup id = es'.lookup id) → es = es'
  | [], [], _, _, _ => rfl
  | [], (k, v) :: _, _, _, h => by simpa using h k
  | (k, v) :: _, [], _, _, h => by simpa using h k
  | (k, v) :: rest, (k', v') :: rest', hs, hs', h => by
    obtain ⟨hk, hr⟩ := List.pairwise_cons.1 hs
    obtain ⟨hk', hr'⟩ := List.pairwise_cons.1 hs'
    have hkk : k = k' := String.le_antisymm
      (head_le_of_lookup hs (by simp [h k'])) (head_le_of_lookup hs' (by simp [← h k]))
    subst hkk
    have hvv : v = v' := by simpa using h k
    subst hvv
    have hrest : rest = rest' := eq_of_lookup_eq hr hr' fun id => by
      by_cases he : id = k
      · subst he
        rw [lookup_eq_none_of_lt hk, lookup_eq_none_of_lt hk']
      · have hid := h id
        rwa [lookup_cons_of_ne he, lookup_cons_of_ne he] at hid
    rw [hrest]

/-! ## Slugs -/

/-- Tables that give the same slugs are the same. -/
theorem ext_get? {t t' : AnchorTable} (h : ∀ id, t.get? id = t'.get? id) : t = t' := by
  obtain ⟨es, hs⟩ := t
  obtain ⟨es', hs'⟩ := t'
  obtain rfl : es = es' := eq_of_lookup_eq hs hs' h
  rfl

theorem get?_insert (t : AnchorTable) (id slug key : String) :
    (t.insert id slug).get? key = (t.get? key).or (if key = id then some slug else none) :=
  lookup_insertEntry key t.sorted

/-- Of the pairs offered for an id that the table does not hold, the first one counts. -/
theorem get?_insertAll (key : String) : ∀ (pairs : List (String × String)) (t : AnchorTable),
    (t.insertAll pairs).get? key = (t.get? key).or (pairs.lookup key)
  | [], t => by simp [insertAll]
  | (id, slug) :: rest, t => by
    have ih := get?_insertAll key rest (t.insert id slug)
    have hstep : t.insertAll ((id, slug) :: rest) = (t.insert id slug).insertAll rest := rfl
    rw [hstep, ih, get?_insert, Option.or_assoc]
    by_cases h : key = id
    · simp [h]
    · simp [lookup_cons_of_ne (e := (id, slug)) h, h]

theorem get?_ofList (pairs : List (String × String)) (key : String) :
    (ofList pairs).get? key = pairs.lookup key := by
  rw [ofList, get?_insertAll]
  exact Option.none_or

theorem get?_merge (t other : AnchorTable) (key : String) :
    (t.merge other).get? key = (t.get? key).or (other.get? key) := get?_insertAll key _ t

theorem insertAll_append (t : AnchorTable) (pairs more : List (String × String)) :
    t.insertAll (pairs ++ more) = (t.insertAll pairs).insertAll more := List.foldl_append

/-- Merging the table of some pairs is the same as offering the pairs themselves. -/
theorem merge_ofList (t : AnchorTable) (pairs : List (String × String)) :
    t.merge (ofList pairs) = t.insertAll pairs :=
  ext_get? fun key => by rw [get?_merge, get?_ofList, get?_insertAll]

/-! ## Ids -/

/-- The ids that a table holds, in increasing order. -/
def ids (t : AnchorTable) : List String := t.entries.map (·.1)

theorem sorted_ids (t : AnchorTable) : t.ids.Pairwise (· < ·) := List.pairwise_map.2 t.sorted

theorem nodup_ids (t : AnchorTable) : t.ids.Nodup :=
  t.sorted_ids.imp fun {a b} (h : a < b) (he : a = b) => String.lt_irrefl b (he ▸ h)

theorem mem_ids {t : AnchorTable} {id : String} : id ∈ t.ids ↔ (t.get? id).isSome := by
  simp [ids, get?]

/-- A table that holds the ids of a list holds as many as there are different ones in it. -/
theorem size_eq_length_dedup {t : AnchorTable} {ids : List String}
    (h : ∀ id, (t.get? id).isSome ↔ id ∈ ids) : t.size = ids.dedup.length := by
  have hperm : t.ids.Perm ids.dedup :=
    (List.perm_ext_iff_of_nodup t.nodup_ids ids.nodup_dedup).2 fun id => by
      rw [mem_ids, h id, List.mem_dedup]
  simpa [AnchorTable.ids, size] using hperm.length_eq

end BookCatalog.AnchorTable
