import BookCatalog.Json
import BookCatalog.Text.Source
import Mathlib.Tactic.SplitIfs

/-!
# The tokens of JSON text

JSON text is read character by character into tokens (`Scanner.step`, `tokensFrom`). Blanks between tokens are
dropped, escapes in strings are undone, and a run of letters and digits outside of strings is one token. The
written form of a value is read as the tokens of the value (`tokensFrom_write`), at every depth and also on one
line: what separates two tokens is a blank, or a mark that is a token itself.
-/

namespace BookCatalog.Json

/-- A part of JSON text. -/
inductive Token where
  | openArray
  | closeArray
  | openObject
  | closeObject
  | comma
  | colon
  | string (s : String)
  /-- Letters and digits outside of strings. -/
  | word (letters : List Char)
  deriving DecidableEq, Repr

/-- The mark that is one character. -/
def Token.ofMark? (c : Char) : Option Token :=
  if c = '[' then some .openArray
  else if c = ']' then some .closeArray
  else if c = '\x7b' then some .openObject
  else if c = '\x7d' then some .closeObject
  else if c = ',' then some .comma
  else if c = ':' then some .colon
  else none

/-- What may stand between two tokens. -/
def isBlank (c : Char) : Bool := c = ' ' || c = '\n' || c = '\r' || c = '\t'

/-- The character for which a letter after a backslash stands. -/
def unescape? (c : Char) : Option Char :=
  if c = '"' ∨ c = '\\' ∨ c = '/' then some c
  else if c = 'n' then some '\n'
  else if c = 'r' then some '\r'
  else if c = 't' then some '\t'
  else if c = 'b' then some '\x08'
  else if c = 'f' then some '\x0c'
  else none

/-- What a reader of JSON text is in the middle of. -/
inductive Scanner where
  | between
  | word (letters : List Char)
  /-- A string, after the given characters. -/
  | text (before : List Char)
  /-- A string, after a backslash. -/
  | escape (before : List Char)
  /-- A string, after some of the four hexadecimal digits of a character. -/
  | code (before digits : List Char)

namespace Scanner

/-- A character that is not inside a token. -/
def start (c : Char) : Option (List Token × Scanner) :=
  if c.isAlphanum then some ([], .word [c])
  else if isBlank c then some ([], .between)
  else if c = '"' then some ([], .text [])
  else (Token.ofMark? c).map fun t => ([t], .between)

/-- One character: the tokens that are complete with it, and what it leaves the reader in. -/
def step : Scanner → Char → Option (List Token × Scanner)
  | .between, c => start c
  | .word letters, c =>
    if c.isAlphanum then some ([], .word (letters ++ [c]))
    else (start c).map fun p => (.word letters :: p.1, p.2)
  | .text before, c =>
    if c = '"' then some ([.string (String.ofList before)], .between)
    else if c = '\\' then some ([], .escape before)
    else if c.toNat < 0x20 then none
    else some ([], .text (before ++ [c]))
  | .escape before, c =>
    if c = 'u' then some ([], .code before [])
    else (unescape? c).map fun d => ([], .text (before ++ [d]))
  | .code before digits, c =>
    if digits.length < 3 then some ([], .code before (digits ++ [c]))
    else ((Text.number? 16 (digits ++ [c])).filter fun n => decide n.isValidChar).map fun n =>
      ([], .text (before ++ [Char.ofNat n]))

/-- The tokens that are complete at the end of the text. -/
def finish : Scanner → Option (List Token)
  | .between => some []
  | .word letters => some [.word letters]
  | _ => none

end Scanner

/-- The tokens of a text that is read from the middle. -/
def tokensFrom : Scanner → List Char → Option (List Token)
  | s, [] => s.finish
  | s, c :: cs => (s.step c).bind fun p => (tokensFrom p.2 cs).map (p.1 ++ ·)

section
variable {rest : List Char}

theorem tokensFrom_of_step {s : Scanner} {c : Char} (ts : List Token) (s' : Scanner)
    (h : s.step c = some (ts, s')) :
    tokensFrom s (c :: rest) = (tokensFrom s' rest).map (ts ++ ·) := by
  rw [tokensFrom, h, Option.bind_some]

/-- A character that completes no token. -/
theorem tokensFrom_of_silent {s : Scanner} {c : Char} (s' : Scanner) (h : s.step c = some ([], s')) :
    tokensFrom s (c :: rest) = tokensFrom s' rest := by
  simp [tokensFrom_of_step [] s' h]

/-! ## Blanks and marks -/

theorem tokensFrom_mark {c : Char} {t : Token} (h : Token.ofMark? c = some t) :
    tokensFrom .between (c :: rest) = (tokensFrom .between rest).map (t :: ·) := by
  refine tokensFrom_of_step [t] .between ?_
  unfold Token.ofMark? at h
  split_ifs at h with h1 h2 h3 h4 h5 h6
  all_goals
    subst_vars
    cases h
    rfl

theorem tokensFrom_blanks {blanks : List Char} (h : ∀ c ∈ blanks, isBlank c = true) :
    tokensFrom .between (blanks ++ rest) = tokensFrom .between rest := by
  induction blanks with
  | nil => rfl
  | cons c cs ih =>
    obtain ⟨hc, hcs⟩ := List.forall_mem_cons.1 h
    rw [List.cons_append, tokensFrom_of_silent .between, ih hcs]
    simp only [isBlank, Bool.or_eq_true, decide_eq_true_eq] at hc
    obtain ((rfl | rfl) | rfl) | rfl := hc <;> rfl

theorem tokensFrom_lineBreak (depth : Option Nat) :
    tokensFrom .between (lineBreak depth ++ rest) = tokensFrom .between rest := by
  refine tokensFrom_blanks fun c hc => ?_
  cases depth with
  | none => cases hc
  | some n =>
    obtain rfl | hc := List.mem_cons.1 hc
    · rfl
    · rw [List.eq_of_mem_replicate hc]
      rfl

theorem tokensFrom_colon (depth : Option Nat) :
    tokensFrom .between (colon depth ++ rest) = (tokensFrom .between rest).map (.colon :: ·) := by
  cases depth with
  | none => exact tokensFrom_mark rfl
  | some n =>
    show tokensFrom .between (':' :: ' ' :: rest) = _
    rw [tokensFrom_mark (t := .colon) rfl, tokensFrom_of_silent .between rfl]

/-! ## Words -/

/-- What may stand after a word. -/
def EndsWord (rest : List Char) : Prop := ∀ c ∈ rest.head?, c.isAlphanum = false

theorem endsWord_cons {c : Char} : EndsWord (c :: rest) ↔ c.isAlphanum = false := by
  simp [EndsWord]

theorem tokensFrom_inWord {letters w : List Char} (hw : ∀ c ∈ w, c.isAlphanum = true) (h : EndsWord rest) :
    tokensFrom (.word letters) (w ++ rest) = (tokensFrom .between rest).map (.word (letters ++ w) :: ·) := by
  induction w generalizing letters with
  | nil =>
    cases rest with
    | nil => simp [tokensFrom, Scanner.finish]
    | cons c cs =>
      have hc := endsWord_cons.1 h
      cases hs : Scanner.start c <;>
        simp [tokensFrom, Scanner.step, hc, hs, Option.map_map, Function.comp_def]
  | cons c cs ih =>
    obtain ⟨hc, hcs⟩ := List.forall_mem_cons.1 hw
    rw [List.cons_append, tokensFrom_of_silent (.word (letters ++ [c])), ih hcs]
    · simp
    · simp [Scanner.step, hc]

theorem tokensFrom_word {w : List Char} (hne : w ≠ []) (hw : ∀ c ∈ w, c.isAlphanum = true)
    (h : EndsWord rest) :
    tokensFrom .between (w ++ rest) = (tokensFrom .between rest).map (.word w :: ·) := by
  obtain ⟨c, cs, rfl⟩ := List.exists_cons_of_ne_nil hne
  obtain ⟨hc, hcs⟩ := List.forall_mem_cons.1 hw
  rw [List.cons_append, tokensFrom_of_silent (.word [c]), tokensFrom_inWord hcs h]
  · rfl
  · simp [Scanner.step, Scanner.start, hc]

/-! ## Strings -/

theorem digitValue?_hexDigit : ∀ n < 16, Text.digitValue? 16 (hexDigit n) = some n := by
  decide

/-- The four digits of a control character stand for it. -/
theorem number?_control {c : Char} (h : c.toNat < 0x20) :
    Text.number? 16 ['0', '0', hexDigit (c.toNat / 16), hexDigit (c.toNat % 16)] = some c.toNat := by
  have hzero : Text.digitValue? 16 '0' = some 0 := rfl
  have hhigh := digitValue?_hexDigit (c.toNat / 16) (by omega)
  have hlow := digitValue?_hexDigit (c.toNat % 16) (by omega)
  simp only [Text.number?, List.foldlM_cons, List.foldlM_nil, hzero, hhigh, hlow]
  exact congrArg some (show ((0 * 16 + 0) * 16 + c.toNat / 16) * 16 + c.toNat % 16 = c.toNat by omega)

/-- The escape of a control character is read as the character. -/
theorem tokensFrom_control {before : List Char} {c : Char} (h : c.toNat < 0x20) :
    tokensFrom (.text before)
        ('\\' :: 'u' :: '0' :: '0' :: hexDigit (c.toNat / 16) :: hexDigit (c.toNat % 16) :: rest) =
      tokensFrom (.text (before ++ [c])) rest := by
  have hvalid : c.toNat.isValidChar := c.valid
  rw [tokensFrom_of_silent (.escape before) rfl, tokensFrom_of_silent (.code before []) rfl,
    tokensFrom_of_silent (.code before ['0']) rfl, tokensFrom_of_silent (.code before ['0', '0']) rfl,
    tokensFrom_of_silent (.code before ['0', '0', hexDigit (c.toNat / 16)]) rfl,
    tokensFrom_of_silent (.text (before ++ [c]))]
  show (((Text.number? 16 ['0', '0', hexDigit (c.toNat / 16), hexDigit (c.toNat % 16)]).filter
    fun n => decide n.isValidChar).map fun n => ([], Scanner.text (before ++ [Char.ofNat n]))) = _
  rw [number?_control h, Option.filter_some, if_pos (decide_eq_true hvalid), Option.map_some,
    Char.ofNat_toNat]

/-- An escaped character is read as the character. -/
theorem tokensFrom_escapeChar {before : List Char} (c : Char) :
    tokensFrom (.text before) (escapeChar c ++ rest) = tokensFrom (.text (before ++ [c])) rest := by
  have hshort (letter d : Char) (hu : letter ≠ 'u') (hd : unescape? letter = some d) :
      tokensFrom (.text before) ('\\' :: letter :: rest) = tokensFrom (.text (before ++ [d])) rest := by
    rw [tokensFrom_of_silent (.escape before) rfl, tokensFrom_of_silent (.text (before ++ [d]))]
    simp [Scanner.step, hu, hd]
  unfold escapeChar
  split_ifs with h1 h2 h3 h4 h5 h6 h7 h8
  · exact h1 ▸ hshort '"' '"' (by decide) rfl
  · exact h2 ▸ hshort '\\' '\\' (by decide) rfl
  · exact h3 ▸ hshort 'n' '\n' (by decide) rfl
  · exact h4 ▸ hshort 'r' '\r' (by decide) rfl
  · exact h5 ▸ hshort 't' '\t' (by decide) rfl
  · exact h6 ▸ hshort 'b' '\x08' (by decide) rfl
  · exact h7 ▸ hshort 'f' '\x0c' (by decide) rfl
  · exact tokensFrom_control h8
  · refine tokensFrom_of_silent (.text (before ++ [c])) ?_
    simp [Scanner.step, h1, h2, h8]

theorem tokensFrom_escaped {before : List Char} (cs : List Char) :
    tokensFrom (.text before) (cs.flatMap escapeChar ++ '"' :: rest) =
      (tokensFrom .between rest).map (.string (String.ofList (before ++ cs)) :: ·) := by
  induction cs generalizing before with
  | nil =>
    rw [List.append_nil]
    exact tokensFrom_of_step [.string (String.ofList before)] .between rfl
  | cons c cs ih =>
    rw [List.flatMap_cons, List.append_assoc, tokensFrom_escapeChar, ih, List.append_assoc]
    rfl

/-- A string in quotes is read as the string. -/
theorem tokensFrom_quote (s : String) :
    tokensFrom .between (quote s ++ rest) = (tokensFrom .between rest).map (.string s :: ·) := by
  rw [quote, List.cons_append, List.append_assoc, tokensFrom_of_silent (.text []) rfl,
    List.cons_append, tokensFrom_escaped]
  simp

end

/-! ## Values -/

mutual

/-- The tokens of a value. -/
def tokens : Json → List Token
  | .null => [.word "null".toList]
  | .bool b => [.word (if b then "true".toList else "false".toList)]
  | .number n => [.word (digits n)]
  | .string s => [.string s]
  | .array [] => [.openArray, .closeArray]
  | .array (e :: es) => .openArray :: (e.tokens ++ moreElements es)
  | .object [] => [.openObject, .closeObject]
  | .object ((k, v) :: ms) => .openObject :: .string k :: .colon :: (v.tokens ++ moreMembers ms)

/-- The tokens of an array after its first element. -/
def moreElements : List Json → List Token
  | [] => [.closeArray]
  | e :: es => .comma :: (e.tokens ++ moreElements es)

/-- The tokens of an object after its first member. -/
def moreMembers : List (String × Json) → List Token
  | [] => [.closeObject]
  | (k, v) :: ms => .comma :: .string k :: .colon :: (v.tokens ++ moreMembers ms)

end

section
variable {rest : List Char}

theorem endsWord_lineBreak (depth : Option Nat) {c : Char} (hc : c.isAlphanum = false) :
    EndsWord (lineBreak depth ++ c :: rest) := by
  cases depth with
  | none => exact endsWord_cons.2 hc
  | some n => exact endsWord_cons.2 rfl

theorem endsWord_writeElements (depth inner : Option Nat) (es : List Json) :
    EndsWord (writeElements inner es ++ (lineBreak depth ++ ']' :: rest)) := by
  cases es with
  | nil => exact endsWord_lineBreak depth rfl
  | cons e es => exact endsWord_cons.2 rfl

theorem endsWord_writeMembers (depth inner : Option Nat) (ms : List (String × Json)) :
    EndsWord (writeMembers inner ms ++ (lineBreak depth ++ '\x7d' :: rest)) := by
  cases ms with
  | nil => exact endsWord_lineBreak depth rfl
  | cons m ms => exact endsWord_cons.2 rfl

theorem isAlphanum_of_mem_digits {n : Nat} {c : Char} (h : c ∈ digits n) : c.isAlphanum = true := by
  have hd : c.isDigit = true := Nat.isDigit_of_mem_toDigits (by decide) (by decide) h
  show (c.isAlpha || c.isDigit) = true
  rw [hd, Bool.or_true]

mutual

/-- **The written form of a value is read as the tokens of the value.** -/
theorem tokensFrom_write : ∀ (j : Json) (depth : Option Nat) {rest : List Char}, EndsWord rest →
    tokensFrom .between (write depth j ++ rest) = (tokensFrom .between rest).map (j.tokens ++ ·)
  | .null, depth, rest, h =>
    tokensFrom_word (w := "null".toList) (by decide) (List.all_eq_true.1 (by decide)) h
  | .bool true, depth, rest, h =>
    tokensFrom_word (w := "true".toList) (by decide) (List.all_eq_true.1 (by decide)) h
  | .bool false, depth, rest, h =>
    tokensFrom_word (w := "false".toList) (by decide) (List.all_eq_true.1 (by decide)) h
  | .number n, depth, rest, h =>
    tokensFrom_word Nat.toDigits_ne_nil (fun _ => isAlphanum_of_mem_digits) h
  | .string s, depth, rest, _ => tokensFrom_quote s
  | .array [], depth, rest, _ => by
    show tokensFrom .between ('[' :: ']' :: rest) = _
    rw [tokensFrom_mark rfl, tokensFrom_mark rfl, Option.map_map]
    rfl
  | .array (e :: es), depth, rest, _ => by
    simp only [write, List.cons_append, List.append_assoc, List.nil_append]
    rw [tokensFrom_mark rfl, tokensFrom_lineBreak,
      tokensFrom_write e _ (endsWord_writeElements depth (deeper depth) es), tokensFrom_writeElements es]
    simp [tokens, Option.map_map, Function.comp_def]
  | .object [], depth, rest, _ => by
    show tokensFrom .between ('\x7b' :: '\x7d' :: rest) = _
    rw [tokensFrom_mark rfl, tokensFrom_mark rfl, Option.map_map]
    rfl
  | .object ((k, v) :: ms), depth, rest, _ => by
    simp only [write, List.cons_append, List.append_assoc, List.nil_append]
    rw [tokensFrom_mark rfl, tokensFrom_lineBreak, tokensFrom_quote, tokensFrom_colon,
      tokensFrom_write v _ (endsWord_writeMembers depth (deeper depth) ms), tokensFrom_writeMembers ms]
    simp [tokens, Option.map_map, Function.comp_def]

theorem tokensFrom_writeElements : ∀ (es : List Json) (depth inner : Option Nat) {rest : List Char},
    tokensFrom .between (writeElements inner es ++ (lineBreak depth ++ ']' :: rest)) =
      (tokensFrom .between rest).map (moreElements es ++ ·)
  | [], depth, inner, rest => by
    rw [writeElements, List.nil_append, tokensFrom_lineBreak, tokensFrom_mark rfl]
    rfl
  | e :: es, depth, inner, rest => by
    simp only [writeElements, List.cons_append, List.append_assoc]
    rw [tokensFrom_mark rfl, tokensFrom_lineBreak,
      tokensFrom_write e _ (endsWord_writeElements depth inner es), tokensFrom_writeElements es]
    simp [moreElements, Option.map_map, Function.comp_def]

theorem tokensFrom_writeMembers : ∀ (ms : List (String × Json)) (depth inner : Option Nat) {rest : List Char},
    tokensFrom .between (writeMembers inner ms ++ (lineBreak depth ++ '\x7d' :: rest)) =
      (tokensFrom .between rest).map (moreMembers ms ++ ·)
  | [], depth, inner, rest => by
    rw [writeMembers, List.nil_append, tokensFrom_lineBreak, tokensFrom_mark rfl]
    rfl
  | (k, v) :: ms, depth, inner, rest => by
    simp only [writeMembers, List.cons_append, List.append_assoc]
    rw [tokensFrom_mark rfl, tokensFrom_lineBreak, tokensFrom_quote, tokensFrom_colon,
      tokensFrom_write v _ (endsWord_writeMembers depth inner ms), tokensFrom_writeMembers ms]
    simp [moreMembers, Option.map_map, Function.comp_def]

end

end

end BookCatalog.Json
