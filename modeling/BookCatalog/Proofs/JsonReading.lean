import BookCatalog.Proofs.JsonTokens

/-!
# Reading JSON text

The tokens of a text are put together by a machine that keeps the arrays and objects it is in the middle of
(`Reader.step`). From where a value is due, the tokens of a value bring it to where the value is complete
(`run_tokens`). So what was written is read again, indented or on one line (`read?_pretty`, `read?_compact`).
-/

namespace BookCatalog.Json

/-- The value of a word: a literal or a number. -/
def ofWord? (letters : List Char) : Option Json :=
  if letters = "null".toList then some .null
  else if letters = "true".toList then some (.bool true)
  else if letters = "false".toList then some (.bool false)
  else if letters.all Char.isDigit then some (.number (Nat.ofDigitChars 10 letters 0))
  else none

/-- An array or an object that is not closed yet. -/
inductive Frame where
  /-- An array, with the elements before the present one. -/
  | array (before : List Json)
  /-- An object, with the members before the present one and the name of the present one. -/
  | object (before : List (String × Json)) (name : String)

/-- Where a reader of tokens stands, inside the open arrays and objects, the innermost first. -/
inductive Reader where
  /-- A value is due, or the end of an array without elements. -/
  | value (outer : List Frame)
  /-- A member is due, or the end of an object without members. -/
  | member (before : List (String × Json)) (outer : List Frame)
  /-- The colon after a name is due. -/
  | colon (before : List (String × Json)) (name : String) (outer : List Frame)
  /-- A value is complete. -/
  | complete (j : Json) (outer : List Frame)

namespace Reader

/-- One token. -/
def step : Reader → Token → Option Reader
  | .value outer, .word letters => (ofWord? letters).map (.complete · outer)
  | .value outer, .string s => some (.complete (.string s) outer)
  | .value outer, .openArray => some (.value (.array [] :: outer))
  | .value outer, .openObject => some (.member [] outer)
  | .value (.array [] :: outer), .closeArray => some (.complete (.array []) outer)
  | .member before outer, .string s => some (.colon before s outer)
  | .member [] outer, .closeObject => some (.complete (.object []) outer)
  | .colon before name outer, .colon => some (.value (.object before name :: outer))
  | .complete j (.array before :: outer), .comma => some (.value (.array (before ++ [j]) :: outer))
  | .complete j (.array before :: outer), .closeArray => some (.complete (.array (before ++ [j])) outer)
  | .complete j (.object before name :: outer), .comma => some (.member (before ++ [(name, j)]) outer)
  | .complete j (.object before name :: outer), .closeObject =>
    some (.complete (.object (before ++ [(name, j)])) outer)
  | _, _ => none

/-- All tokens. -/
def run (r : Reader) (ts : List Token) : Option Reader := ts.foldlM step r

/-- The value of a reader that has read all of it. -/
def result? : Reader → Option Json
  | .complete j [] => some j
  | _ => none

theorem run_cons {r : Reader} {t : Token} {ts : List Token} (r' : Reader) (h : r.step t = some r') :
    r.run (t :: ts) = r'.run ts := by
  rw [run, List.foldlM_cons, h]
  rfl

theorem run_append {r r' : Reader} {ts ts' : List Token} (h : r.run ts = some r') :
    r.run (ts ++ ts') = r'.run ts' := by
  rw [run, List.foldlM_append]
  exact (congrArg (· >>= fun s => s.run ts') h).trans rfl

end Reader

/-- The value that a JSON text stands for. -/
def read? (text : String) : Option Json := do
  (← (Reader.value []).run (← tokensFrom .between text.toList)).result?

theorem ofWord?_digits (n : Nat) : ofWord? (digits n) = some (.number n) := by
  have hdigit (c : Char) (hc : c ∈ digits n) : c.isDigit = true :=
    Nat.isDigit_of_mem_toDigits (by decide) (by decide) hc
  have hne {w : List Char} {c : Char} (hc : c ∈ w) (hletter : c.isDigit = false) : digits n ≠ w := fun h => by
    rw [hdigit c (h ▸ hc)] at hletter
    cases hletter
  have hall : (digits n).all Char.isDigit = true := List.all_eq_true.2 hdigit
  rw [ofWord?, if_neg (hne (c := 'n') (by decide) rfl), if_neg (hne (c := 't') (by decide) rfl),
    if_neg (hne (c := 'f') (by decide) rfl), if_pos hall, digits, Nat.ofDigitChars_ten_toDigits]

open Reader

mutual

/-- **Where a value is due, its tokens complete it.** -/
theorem run_tokens : ∀ (j : Json) (outer : List Frame),
    (Reader.value outer).run j.tokens = some (.complete j outer)
  | .null, outer => rfl
  | .bool true, outer => rfl
  | .bool false, outer => rfl
  | .number n, outer => by
    rw [tokens, run_cons (.complete (.number n) outer)]
    · rfl
    · rw [step, ofWord?_digits, Option.map_some]
  | .string s, outer => rfl
  | .array [], outer => rfl
  | .array (e :: es), outer => by
    rw [tokens, run_cons (.value (.array [] :: outer)) rfl, run_append (run_tokens e _)]
    exact run_moreElements es [] e outer
  | .object [], outer => rfl
  | .object ((k, v) :: ms), outer => by
    rw [tokens, run_cons (.member [] outer) rfl, run_cons (.colon [] k outer) rfl,
      run_cons (.value (.object [] k :: outer)) rfl, run_append (run_tokens v _)]
    exact run_moreMembers ms [] k v outer

theorem run_moreElements : ∀ (es before : List Json) (e : Json) (outer : List Frame),
    (Reader.complete e (.array before :: outer)).run (moreElements es) =
      some (.complete (.array (before ++ e :: es)) outer)
  | [], before, e, outer => rfl
  | e' :: es, before, e, outer => by
    rw [moreElements, run_cons (.value (.array (before ++ [e]) :: outer)) rfl,
      run_append (run_tokens e' _), run_moreElements es, List.append_assoc]
    rfl

theorem run_moreMembers : ∀ (ms before : List (String × Json)) (k : String) (v : Json) (outer : List Frame),
    (Reader.complete v (.object before k :: outer)).run (moreMembers ms) =
      some (.complete (.object (before ++ (k, v) :: ms)) outer)
  | [], before, k, v, outer => rfl
  | (k', v') :: ms, before, k, v, outer => by
    rw [moreMembers, run_cons (.member (before ++ [(k, v)]) outer) rfl,
      run_cons (.colon (before ++ [(k, v)]) k' outer) rfl,
      run_cons (.value (.object (before ++ [(k, v)]) k' :: outer)) rfl,
      run_append (run_tokens v' _), run_moreMembers ms, List.append_assoc]
    rfl

end

/-- What was written is read again, at every depth and on one line. -/
theorem read?_write (depth : Option Nat) (j : Json) : read? (String.ofList (write depth j)) = some j := by
  have htokens : tokensFrom .between (write depth j) = some j.tokens := by
    rw [← List.append_nil (write depth j), tokensFrom_write j depth (by simp [EndsWord])]
    simp [tokensFrom, Scanner.finish]
  simp [read?, htokens, run_tokens, result?]

theorem read?_pretty (j : Json) : read? j.pretty = some j := read?_write (some 0) j

theorem read?_compact (j : Json) : read? j.compact = some j := read?_write none j

end BookCatalog.Json
