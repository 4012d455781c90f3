import BookCatalog.Chapter
import BookCatalog.Proofs.AnchorTable
import BookCatalog.Proofs.ByteOrder
import Mathlib.Data.List.Perm.Basic

/-!
# The history of an anchor table

A table that started empty is known from the pairs that have been offered to it, one by one or with another
table. It holds the first pair of every id and nothing else (`KeepsFirst`), whatever the steps were that
offered them (`keepsFirst_run`). So a step changes no entry that was there before it (`run_keeps_first_offers`).
-/

namespace BookCatalog.AnchorTable

/-! ## Steps -/

/-- What is done to an anchor table. -/
inductive Step where
  | insert (id slug : String)
  | merge (other : AnchorTable)
  /-- Merges the anchors of the chapter written in `source`. -/
  | collect (source : String)

/-- What comes of a step. -/
inductive Reply where
  /-- Whether the pair that was offered has been recorded. -/
  | recorded (isNew : Bool)
  | merged
  | failed (e : ConversionError)
  deriving DecidableEq

namespace Step

/-- Takes a step. A chapter whose anchors cannot be collected leaves the table as it was. -/
def take (t : AnchorTable) : Step → Reply × AnchorTable
  | .insert id slug => ((.recorded (t.offer id slug).1), (t.offer id slug).2)
  | .merge other => (.merged, t.merge other)
  | .collect source =>
    match Chapter.anchors source with
    | .ok other => (.merged, t.merge other)
    | .error e => (.failed e, t)

/-- The pairs that a step offers, in order. -/
def offers : Step → List (String × String)
  | .insert id slug => [(id, slug)]
  | .merge other => other.entries
  | .collect source =>
    match Chapter.anchors source with
    | .ok other => other.entries
    | .error _ => []

end Step

/-- The table after some steps. -/
def runFrom (t : AnchorTable) (steps : List Step) : AnchorTable :=
  steps.foldl (fun t step => (step.take t).2) t

/-- The table after some steps, when it was empty before them. -/
def run (steps : List Step) : AnchorTable := runFrom empty steps

/-- The pairs that some steps offer, in order. -/
def history (steps : List Step) : List (String × String) := steps.flatMap Step.offers

theorem runFrom_append (t : AnchorTable) (steps more : List Step) :
    t.runFrom (steps ++ more) = (t.runFrom steps).runFrom more := List.foldl_append

/-- A step offers its pairs to the table one after the other. -/
theorem Step.take_snd (step : Step) (t : AnchorTable) : (step.take t).2 = t.insertAll step.offers := by
  cases step with
  | insert id slug => rfl
  | merge other => rfl
  | collect source =>
    unfold take offers
    dsimp only
    cases Chapter.anchors source <;> rfl

theorem runFrom_eq (steps : List Step) (t : AnchorTable) : t.runFrom steps = t.insertAll (history steps) := by
  induction steps generalizing t with
  | nil => rfl
  | cons step rest ih =>
    show (step.take t).2.runFrom rest = t.insertAll (step.offers ++ history rest)
    rw [ih, step.take_snd, insertAll_append]

/-! ## The first pair of every id -/

/-- The pairs of a list that come first with their id. -/
def firsts : List (String × String) → List (String × String)
  | [] => []
  | p :: rest => p :: (firsts rest).filter (·.1 ≠ p.1)

theorem nodup_map_fst_firsts : ∀ pairs : List (String × String), ((firsts pairs).map (·.1)).Nodup
  | [] => List.nodup_nil
  | p :: rest => by
    refine List.nodup_cons.2 ⟨fun hmem => ?_, ?_⟩
    · obtain ⟨q, hq, heq⟩ := List.mem_map.1 hmem
      simpa [heq] using (List.mem_filter.1 hq).2
    · exact (nodup_map_fst_firsts rest).sublist (List.filter_sublist.map _)

theorem lookup_filter_fst_ne {id key : String} (h : key ≠ id) : ∀ pairs : List (String × String),
    (pairs.filter (·.1 ≠ id)).lookup key = pairs.lookup key
  | [] => rfl
  | (k, v) :: rest => by
    have ih := lookup_filter_fst_ne h rest
    by_cases hp : k = id
    · rw [List.filter_cons_of_neg (by simpa using hp), lookup_cons_of_ne (hp ▸ h), ih]
    · rw [List.filter_cons_of_pos (by simpa using hp)]
      by_cases hk : key = k
      · rw [hk, List.lookup_cons_self, List.lookup_cons_self]
      · rw [lookup_cons_of_ne hk, lookup_cons_of_ne hk, ih]

/-- The pair that comes first with an id is the one that is found. -/
theorem lookup_firsts (id : String) : ∀ pairs : List (String × String), (firsts pairs).lookup id = pairs.lookup id
  | [] => rfl
  | (k, v) :: rest => by
    unfold firsts
    by_cases h : id = k
    · rw [h, List.lookup_cons_self, List.lookup_cons_self]
    · rw [lookup_cons_of_ne h, lookup_cons_of_ne h, lookup_filter_fst_ne h, lookup_firsts id rest]

/-- A pair is in a list without repeated ids when it is found there. -/
theorem mem_iff_lookup_eq_some {id slug : String} : ∀ {pairs : List (String × String)},
    (pairs.map (·.1)).Nodup → ((id, slug) ∈ pairs ↔ pairs.lookup id = some slug)
  | [], _ => by simp
  | (k, v) :: rest, h => by
    obtain ⟨hk, hrest⟩ := List.nodup_cons.1 h
    by_cases hid : id = k
    · subst hid
      have hnot : (id, slug) ∉ rest := fun hmem => hk (List.mem_map.2 ⟨_, hmem, rfl⟩)
      rw [List.mem_cons, List.lookup_cons_self]
      simp [hnot, eq_comm]
    · rw [List.mem_cons, lookup_cons_of_ne hid, ← mem_iff_lookup_eq_some hrest]
      simp [hid]

/-! ## What a table holds -/

/-- A table holds the first of the pairs that were offered for every id, in the order of the bytes of the
ids, and nothing else. -/
structure KeepsFirst (t : AnchorTable) (offered : List (String × String)) : Prop where
  perm : t.entries.Perm (firsts offered)
  increasing : t.entries.Pairwise fun a b => Text.Utf8.encode a.1.toList < Text.Utf8.encode b.1.toList
  get?_eq : ∀ id, t.get? id = offered.lookup id
  size_eq : t.size = (offered.map (·.1)).dedup.length

theorem mem_entries_iff {t : AnchorTable} {id slug : String} :
    (id, slug) ∈ t.entries ↔ t.get? id = some slug := mem_iff_lookup_eq_some t.nodup_ids

theorem isSome_lookup_iff {id : String} {pairs : List (String × String)} :
    (pairs.lookup id).isSome ↔ id ∈ pairs.map (·.1) := by simp

theorem KeepsFirst.of_get?_eq {t : AnchorTable} {offered : List (String × String)}
    (h : ∀ id, t.get? id = offered.lookup id) : t.KeepsFirst offered where
  perm := by
    have hfirsts := nodup_map_fst_firsts offered
    refine (List.perm_ext_iff_of_nodup (t.nodup_ids.of_map _) (hfirsts.of_map _)).2 fun p => ?_
    rw [mem_entries_iff, mem_iff_lookup_eq_some hfirsts, lookup_firsts, h]
  increasing := t.sorted.imp fun hlt => Text.Utf8.encode_lt_encode_iff.2 hlt
  get?_eq := h
  size_eq := size_eq_length_dedup fun id => by rw [h, isSome_lookup_iff]

/-- **A step keeps the first pair of every id.** -/
theorem KeepsFirst.take {t : AnchorTable} {offered : List (String × String)} (h : t.KeepsFirst offered)
    (step : Step) : (step.take t).2.KeepsFirst (offered ++ step.offers) := by
  refine .of_get?_eq fun id => ?_
  rw [step.take_snd, get?_insertAll, h.get?_eq, List.lookup_append]

/-- Steps keep the first pair of every id. -/
theorem KeepsFirst.runFrom {t : AnchorTable} : ∀ {steps : List Step} {offered : List (String × String)},
    t.KeepsFirst offered → (t.runFrom steps).KeepsFirst (offered ++ history steps)
  | [], offered, h => by
    rw [show offered ++ history [] = offered from List.append_nil offered]
    exact h
  | step :: rest, offered, h => by
    have hrest : ((step.take t).2.runFrom rest).KeepsFirst (offered ++ step.offers ++ history rest) :=
      (h.take step).runFrom
    rwa [List.append_assoc] at hrest

/-- A table that started empty holds the first pair of every id that was offered. -/
theorem keepsFirst_run (steps : List Step) : (run steps).KeepsFirst (history steps) := by
  have hempty : empty.KeepsFirst [] := .of_get?_eq fun _ => rfl
  exact hempty.runFrom

/-- The table of a list of pairs holds the first pair of every id in the list. -/
theorem keepsFirst_ofList (pairs : List (String × String)) : (ofList pairs).KeepsFirst pairs :=
  .of_get?_eq fun id => by rw [ofList, get?_insertAll]; exact Option.none_or

/-! ## Replies and merges -/

/-- A table that holds the first pairs records the ones with a new id. -/
theorem KeepsFirst.take_insert_eq {t : AnchorTable} {offered : List (String × String)}
    (h : t.KeepsFirst offered) (id slug : String) :
    ((Step.insert id slug).take t).1 = .recorded true ↔ id ∉ offered.map (·.1) := by
  rw [← isSome_lookup_iff, ← h.get?_eq]
  show Reply.recorded (!(t.get? id).isSome) = .recorded true ↔ _
  simp

theorem entries_subset_runFrom (t : AnchorTable) (steps : List Step) :
    t.entries ⊆ (t.runFrom steps).entries := by
  rintro ⟨id, slug⟩ hmem
  rw [mem_entries_iff] at hmem ⊢
  rw [runFrom_eq, get?_insertAll, hmem, Option.some_or]

theorem merge_assoc (a b c : AnchorTable) : (a.merge b).merge c = a.merge (b.merge c) :=
  ext_get? fun id => by simp only [get?_merge, Option.or_assoc]

theorem merge_self (a : AnchorTable) : a.merge a = a :=
  ext_get? fun id => by rw [get?_merge, Option.or_self]

theorem merge_empty (a : AnchorTable) : a.merge ∅ = a := rfl

theorem empty_merge (a : AnchorTable) : (∅ : AnchorTable).merge a = a :=
  ext_get? fun id => by rw [get?_merge]; exact Option.none_or

/-- **An anchor table keeps what was offered first**, from the empty table on and through every step. -/
theorem run_keeps_first_offers (steps more : List Step) :
    (run steps).KeepsFirst (history steps) ∧
    (run steps).entries ⊆ (run (steps ++ more)).entries ∧
    (∀ id slug, ((Step.insert id slug).take (run steps)).1 = .recorded true ↔
      id ∉ (history steps).map (·.1)) ∧
    (∀ pairs, (ofList pairs).KeepsFirst pairs) ∧
    (∀ a b c : AnchorTable, (a.merge b).merge c = a.merge (b.merge c)) ∧
    ∀ a : AnchorTable, a.merge a = a ∧ a.merge ∅ = a ∧ (∅ : AnchorTable).merge a = a := by
  have hfirst := keepsFirst_run steps
  refine ⟨hfirst, ?_, hfirst.take_insert_eq, keepsFirst_ofList, merge_assoc,
    fun a => ⟨merge_self a, merge_empty a, empty_merge a⟩⟩
  rw [show run (steps ++ more) = (run steps).runFrom more from runFrom_append empty steps more]
  exact entries_subset_runFrom _ more

end BookCatalog.AnchorTable
