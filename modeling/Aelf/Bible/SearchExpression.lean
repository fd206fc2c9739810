import Aelf.Bible.SearchScope
import Aelf.Library.FullTextTerms

/-! # Expressions that the search matches

The literals after `MATCH` are expressions of the full-text index.  What the reader has
typed is put between double quotes in them, and each token is put there once more as it
stands.  So the expressions can be read when nothing typed is a double quote, and when the
tokens are terms that form an expression, also after any one of them is left out. -/

namespace Aelf.Bible.SearchQuery

open Aelf.Library
open Aelf.Library.SqlText
open Aelf.Library.FullText

/-- The expressions that `search` may have to match. -/
def matchExpressions (runtime : Runtime) (search : Text) (sort : SearchSort) : List Text :=
  let tokens := tokensOf runtime (separated search)
  (fastSelect (separated search) tokens).matched ::
    if tokens.length ≤ 1 then []
    else (slowSelect runtime (separated search) tokens sort).inner.arms.map CompoundSelect.Select.matched

/-- The tokens form an expression, and still do when any one of them is left out. -/
def WellPhrased (tokens : List Text) : Prop :=
  tokens ≠ [] → isPhrasing none tokens = true ∧
    (2 ≤ tokens.length → ∀ skipped < tokens.length, isPhrasing none (tokens.eraseIdx skipped) = true)

instance (tokens : List Text) : Decidable (WellPhrased tokens) :=
  inferInstanceAs (Decidable (_ → _))

/-! ## Strings and words of an expression -/

theorem lex_strings {tokens : List Text} (plain : ∀ token ∈ tokens, '"' ∉ token) (rest : Text) :
    lex (tokens.flatMap (fun token => chars "\"" ++ token ++ chars "\" ") ++ rest) =
      (lex rest).map (tokens.map .string ++ ·) := by
  induction tokens with
  | nil => simp
  | cons token tokens inductionHypothesis =>
    have later := inductionHypothesis fun other member => plain other (by simp [member])
    have here : '"' ∉ token := plain token (by simp)
    have text : (token :: tokens).flatMap (fun token => chars "\"" ++ token ++ chars "\" ") ++ rest =
        '"' :: token ++ '"' :: ' ' :: (tokens.flatMap (fun token => chars "\"" ++ token ++ chars "\" ") ++ rest) := by
      simp [chars]
    rw [text, lex_string here (by decide), lex_blank rfl, later]
    cases lex rest <;> rfl

theorem lex_joined_strings {tokens : List Text} (plain : ∀ token ∈ tokens, '"' ∉ token) (nonempty : tokens ≠ [])
    {c : Char} (notQuote : c ≠ '"') (rest : Text) :
    lex ('"' :: written (join (chars "\" \"") tokens) ++ '"' :: c :: rest) =
      (lex (c :: rest)).map (tokens.map .string ++ ·) := by
  induction tokens with
  | nil => exact absurd rfl nonempty
  | cons token tokens inductionHypothesis =>
    have here : '"' ∉ token := plain token (by simp)
    cases tokens with
    | nil =>
      have text : written (join (chars "\" \"") [token]) = token := by simp [join, Fragment.text]
      rw [text, lex_string here notQuote]
      rfl
    | cons second tokens =>
      have later := inductionHypothesis (fun other member => plain other (by simp [member])) (by simp)
      -- the separator closes one string and opens the next
      have text : '"' :: written (join (chars "\" \"") (token :: second :: tokens)) ++ '"' :: c :: rest =
          '"' :: token ++ '"' :: ' ' :: ('"' :: written (join (chars "\" \"") (second :: tokens)) ++ '"' :: c :: rest) := by
        simp [join, Fragment.text, chars]
      rw [text, lex_string here (by decide), lex_blank rfl, later]
      cases lex (c :: rest) <;> rfl

theorem written_join_blank {tokens : List Text} (nonempty : tokens ≠ []) :
    ' ' :: written (join (chars " ") tokens) = tokens.flatMap (' ' :: ·) := by
  induction tokens with
  | nil => exact absurd rfl nonempty
  | cons token tokens inductionHypothesis =>
    cases tokens with
    | nil => simp [join, Fragment.text]
    | cons second tokens =>
      have later := inductionHypothesis (by simp)
      rw [List.flatMap_cons, ← later]
      simp [join, Fragment.text, chars]

theorem isWord_number (n : Nat) : (number n).all isWordChar = true := by
  rw [List.all_eq_true]
  intro c member
  have digit := Nat.isDigit_of_mem_toDigits (by decide) (by decide) member
  simp [isWordChar, Char.isAlphanum, digit]

theorem isNumber_number (n : Nat) : isNumber (number n) = true := by
  have digits : (number n).all Char.isDigit = true := by
    rw [List.all_eq_true]
    intro c member
    exact Nat.isDigit_of_mem_toDigits (by decide) (by decide) member
  have nonempty : number n ≠ [] := Nat.toDigits_ne_nil
  simp [isNumber, digits, nonempty]

/-- The distance of a group, and the operator after it. -/
theorem lex_distance (n : Nat) (rest : Text) :
    lex (',' :: ' ' :: (number n ++ chars " ) OR " ++ rest)) =
      (lex rest).map ([.comma, .word (number n), .closing, .word ['O', 'R']] ++ ·) := by
  have text : number n ++ chars " ) OR " ++ rest = number n ++ ' ' :: ')' :: ' ' :: (['O', 'R'] ++ ' ' :: rest) := by
    simp [chars]
  rw [lex_comma, lex_blank rfl, text, lex_word_blank (isWord_number n) Nat.toDigits_ne_nil, lex_closing, lex_blank rfl,
    lex_word_blank rfl (by simp)]
  cases lex rest <;> rfl

theorem lex_near (rest : Text) :
    lex (near ++ '(' :: rest) = (lex rest).map ([.word near, .opening] ++ ·) := by
  rw [lex_word_append rfl (by simp [near]), lexFrom_word rfl, lex_opening]
  cases lex rest <;> rfl

/-- The group of the tokens and the operator after it. -/
def groupOr (tokens : List Text) (n : Nat) : List Token :=
  .word near :: .opening :: (tokens.map Token.string ++ [.comma, .word (number n), .closing, .word ['O', 'R']])

theorem runTokens_groupOr {tokens : List Text} (nonempty : tokens ≠ []) (n : Nat) :
    runTokens .operand (groupOr tokens n) = some .operand := by
  have group := runTokens_group .operand rfl nonempty (isNumber_number n) [.word ['O', 'R']]
  rw [List.append_assoc] at group
  exact group

/-! ## The expressions of a search -/

section Typed

variable {tokens : List Text} (plain : ∀ token ∈ tokens, token.all isPlain = true) (nonempty : ∀ token ∈ tokens, token ≠ [])

include plain nonempty

theorem final_reading_bare {bare : Text} (cut : lex bare = lexAll tokens) :
    (reading .between .operand bare).any State.final = isPhrasing none tokens := by
  rw [← final_readAll plain nonempty none]
  unfold reading readAll
  change ((lex bare).bind _).any State.final = _
  rw [cut]
  rfl

theorem wellFormed_terms {text bare : Text} {before : List Token} (cut : lex text = (lex bare).map (before ++ ·))
    (leads : runTokens .operand before = some .operand) (words : lex bare = lexAll tokens) :
    WellFormed text ↔ isPhrasing none tokens = true := by
  rw [wellFormed_iff_reading, reading_of_lex cut, leads, Option.bind_some, final_reading_bare plain nonempty words]

theorem wellFormed_variantExpression (left : tokens ≠ []) :
    WellFormed (variantExpression tokens) ↔ isPhrasing none tokens = true := by
  have text : variantExpression tokens = ' ' :: (near ++ '(' ::
      (tokens.flatMap (fun token => chars "\"" ++ token ++ chars "\" ") ++
        ',' :: ' ' :: (number (tokens.length * 2) ++ chars " ) OR " ++ tokens.flatMap (' ' :: ·)))) := by
    simp [variantExpression, chars, near]
  have noQuote : ∀ token ∈ tokens, '"' ∉ token := fun token member => noQuote_of_plain (plain token member)
  have cut : lex (variantExpression tokens) =
      (lex (tokens.flatMap (' ' :: ·))).map fun later => groupOr tokens (tokens.length * 2) ++ later := by
    rw [text, lex_blank rfl, lex_near, lex_strings noQuote, lex_distance]
    cases lex (tokens.flatMap (' ' :: ·)) <;> simp [groupOr]
  exact wellFormed_terms plain nonempty cut (runTokens_groupOr left _) (lex_blanks plain)

theorem wellFormed_fastMatch {search : Text} (noQuoteSearch : '"' ∉ search) :
    WellFormed (written (fastMatch search tokens)) ↔ (tokens ≠ [] → isPhrasing none tokens = true) := by
  by_cases empty : tokens = []
  · subst empty
    have text : written (fastMatch search []) = '"' :: search ++ '"' :: [] := by
      simp [fastMatch, phrase, sql, Fragment.text, chars]
    have single : WellFormed ('"' :: search ++ '"' :: []) :=
      ⟨[.string search], lex_string_end noQuoteSearch, .operand (.string search)⟩
    rw [text]
    exact iff_of_true single fun nonempty => absurd rfl nonempty
  · have text : written (fastMatch search tokens) = '"' :: search ++ '"' :: ' ' :: (['O', 'R'] ++ ' ' :: ' ' ::
        (near ++ '(' :: ('"' :: written (join (chars "\" \"") tokens) ++ '"' :: ',' :: ' ' ::
          (number (tokens.length * 2) ++ chars " ) OR " ++ written (join (chars " ") tokens))))) := by
      simp [fastMatch, allTerms, phrase, sql, Fragment.text, chars, near, empty]
    have noQuote : ∀ token ∈ tokens, '"' ∉ token := fun token member => noQuote_of_plain (plain token member)
    have words : lex (written (join (chars " ") tokens)) = lexAll tokens := by
      rw [← lex_blanks plain, ← written_join_blank empty, lex_blank rfl]
    have cut : lex (written (fastMatch search tokens)) = (lex (written (join (chars " ") tokens))).map fun later =>
        (.string search :: .word ['O', 'R'] :: groupOr tokens (tokens.length * 2)) ++ later := by
      rw [text, lex_string noQuoteSearch (by decide), lex_blank rfl, lex_word_blank rfl (by simp), lex_blank rfl, lex_near,
        lex_joined_strings noQuote empty (by decide), lex_distance]
      cases lex (written (join (chars " ") tokens)) <;> simp [groupOr]
    -- all that precedes the words is accepted, so the words alone decide
    have leads : runTokens .operand (.string search :: .word ['O', 'R'] :: groupOr tokens (tokens.length * 2)) =
        some .operand := runTokens_groupOr empty _
    rw [wellFormed_terms plain nonempty cut leads words]
    exact ⟨fun phrasing _ => phrasing, fun phrasing => phrasing empty⟩

end Typed

/-! ## The tokens of a search -/

theorem doubleQuote_mem_separated {search : Text} (member : '"' ∈ separated search) : '"' ∈ search := by
  obtain ⟨c, isTyped, same⟩ := List.mem_map.mp member
  split at same
  case isTrue => cases same
  case isFalse => exact same ▸ isTyped

theorem isBlank_of_not_isSpace {c : Char} (notSpace : isSpace c = false) : isBlank c = false := by
  simp only [isSpace, Bool.or_eq_false_iff] at notSpace
  simp only [isBlank, Bool.or_eq_false_iff]
  obtain ⟨⟨⟨⟨⟨space, tab⟩, newline⟩, -⟩, -⟩, carriage⟩ := notSpace
  exact ⟨⟨⟨space, tab⟩, newline⟩, carriage⟩

theorem plain_tokensOf {runtime : Runtime} {search : Text} (noQuote : '"' ∉ search) :
    ∀ token ∈ tokensOf runtime (separated search), token.all isPlain = true := by
  intro token isToken
  rw [List.all_eq_true]
  intro c member
  obtain ⟨typed, notSpace⟩ := mem_tokensOf isToken member
  have different : c ≠ '"' := by
    rintro rfl
    exact noQuote (doubleQuote_mem_separated typed)
  simp [isPlain, different, isBlank_of_not_isSpace notSpace]

/-- The empty token is too short to be kept. -/
theorem tokensOf_ne_nil {runtime : Runtime} {search : Text} : ∀ token ∈ tokensOf runtime search, token ≠ [] := by
  rintro token isToken rfl
  have kept := (List.mem_filter.mp isToken).2
  simp [shouldIgnore, runtime.toLowerCase_nil, runtime.normalize_nil] at kept

/-! ## Double quotes of a search -/

theorem count_written_join (separator : Text) (tokens : List Text) :
    (written (join separator tokens)).count '"' =
      (tokens.map (List.count '"')).sum + (tokens.length - 1) * separator.count '"' := by
  induction tokens with
  | nil => simp [join]
  | cons token tokens inductionHypothesis =>
    cases tokens with
    | nil => simp [join, Fragment.text]
    | cons second tokens =>
      simp only [join, written_cons, Fragment.text, List.count_append]
      rw [inductionHypothesis]
      simp only [List.map_cons, List.sum_cons, List.length_cons, Nat.add_sub_cancel]
      ring

theorem count_number (n : Nat) : (number n).count '"' = 0 := by
  rw [List.count_eq_zero]
  intro member
  cases Nat.isDigit_of_mem_toDigits (by decide) (by decide) member

theorem count_fastMatch (search : Text) (tokens : List Text) :
    (written (fastMatch search tokens)).count '"' % 2 = search.count '"' % 2 := by
  have strings := count_written_join (chars "\" \"") tokens
  have words := count_written_join (chars " ") tokens
  have twice : (chars "\" \"").count '"' = 2 := by simp [chars]
  have never : (chars " ").count '"' = 0 := by simp [chars]
  rw [twice] at strings
  rw [never] at words
  unfold fastMatch
  split
  · simp [phrase, sql, Fragment.text, chars]
    omega
  · simp only [phrase, allTerms, sql, written_append, written_cons, written_nil, Fragment.text, List.count_append,
      strings, words, count_number]
    simp only [chars]
    simp
    omega

theorem count_separated (search : Text) : (separated search).count '"' = search.count '"' := by
  induction search with
  | nil => rfl
  | cons c search inductionHypothesis =>
    have here : (if c = '-' ∨ c = quote then ' ' else c) = '"' ↔ c = '"' := by
      split
      case isTrue joining =>
        obtain rfl | rfl := joining <;> simp [quote]
      case isFalse => rfl
    change List.count '"' ((if c = '-' ∨ c = quote then ' ' else c) :: separated search) = _
    rw [List.count_cons, List.count_cons, inductionHypothesis]
    simp only [beq_iff_eq, here]

/-! ## Well-formed searches -/

theorem mem_matchExpressions (runtime : Runtime) (search : Text) (sort : SearchSort) {tokens : List Text}
    (cut : tokensOf runtime (separated search) = tokens) (expression : Text) :
    expression ∈ matchExpressions runtime search sort ↔ expression = written (fastMatch (separated search) tokens) ∨
      2 ≤ tokens.length ∧ ∃ skipped < tokens.length, expression = variantExpression (tokens.eraseIdx skipped) := by
  subst cut
  generalize tokens : tokensOf runtime (separated search) = kept
  unfold matchExpressions
  rw [tokens]
  by_cases short : kept.length ≤ 1
  · have notTwo : ¬2 ≤ kept.length := by omega
    simp [short, notTwo, fastSelect, matching]
  · have two : 2 ≤ kept.length := by omega
    have nonempty : kept ≠ [] := by
      rintro rfl
      simp at two
    have base : written (phrase (separated search) ++ allTerms kept) = written (fastMatch (separated search) kept) := by
      simp [fastMatch, nonempty]
    -- an arm for each token, by its index
    have variants : (∃ skipped < kept.length, expression = variantExpression (kept.eraseIdx skipped)) ↔
        ∃ token skipped, (token, skipped) ∈ kept.zipIdx ∧ written (variantMatch kept skipped) = expression := by
      constructor
      · rintro ⟨skipped, inside, rfl⟩
        exact ⟨kept[skipped], skipped, List.mk_mem_zipIdx_iff_getElem?.mpr (List.getElem?_eq_getElem inside),
          written_variantMatch inside⟩
      · rintro ⟨token, skipped, isToken, rfl⟩
        obtain ⟨inside, -⟩ := List.getElem?_eq_some_iff.mp (List.mk_mem_zipIdx_iff_getElem?.mp isToken)
        exact ⟨skipped, inside, written_variantMatch inside⟩
    rw [variants]
    simp [short, two, fastSelect, matching, slowSelect, slowCompound, CompoundSelect.Compound.arms, base, variantSelect,
      eq_comm]

theorem wellFormed_matchExpressions_iff {runtime : Runtime} {search : Text} (noQuote : '"' ∉ search) (sort : SearchSort) :
    (∀ expression ∈ matchExpressions runtime search sort, WellFormed expression) ↔
      WellPhrased (tokensOf runtime (separated search)) := by
  have noQuoteSeparated : '"' ∉ separated search := fun member => noQuote (doubleQuote_mem_separated member)
  have plain : ∀ token ∈ tokensOf runtime (separated search), token.all isPlain = true := plain_tokensOf noQuote
  have nonempty : ∀ token ∈ tokensOf runtime (separated search), token ≠ [] := tokensOf_ne_nil
  have members := mem_matchExpressions runtime search sort rfl
  generalize tokensOf runtime (separated search) = tokens at plain nonempty members
  have fast := wellFormed_fastMatch plain nonempty noQuoteSeparated
  have variant (skipped : Nat) (two : 2 ≤ tokens.length) (inside : skipped < tokens.length) :
      WellFormed (variantExpression (tokens.eraseIdx skipped)) ↔ isPhrasing none (tokens.eraseIdx skipped) = true := by
    -- of two tokens at least one is left
    have left : tokens.eraseIdx skipped ≠ [] := by
      apply List.ne_nil_of_length_pos
      rw [List.length_eraseIdx_of_lt inside]
      omega
    exact wellFormed_variantExpression (fun token member => plain token (List.mem_of_mem_eraseIdx member))
      (fun token member => nonempty token (List.mem_of_mem_eraseIdx member)) left
  constructor
  · intro wellFormed some
    have first := wellFormed _ ((members (written (fastMatch (separated search) tokens))).mpr (.inl rfl))
    refine ⟨fast.mp first some, ?_⟩
    intro two skipped inside
    have isExpression := (members (variantExpression (tokens.eraseIdx skipped))).mpr (.inr ⟨two, skipped, inside, rfl⟩)
    exact (variant skipped two inside).mp (wellFormed _ isExpression)
  · intro phrased expression isExpression
    obtain rfl | ⟨two, skipped, inside, rfl⟩ := (members expression).mp isExpression
    · exact fast.mpr fun some => (phrased some).1
    · have some : tokens ≠ [] := List.ne_nil_of_length_pos (by omega)
      exact (variant skipped two inside).mpr ((phrased some).2 two skipped inside)

/-- Without a double quote, the expressions are well-formed exactly when the tokens are phrased; with an
odd number of double quotes they never are. -/
theorem search_wellFormed_iff (runtime : Runtime) (search : Text) (sort : SearchSort) :
    ('"' ∉ search → ((∀ expression ∈ matchExpressions runtime search sort, WellFormed expression) ↔
      WellPhrased (tokensOf runtime (separated search)))) ∧
    (search.count '"' % 2 = 1 → ¬∀ expression ∈ matchExpressions runtime search sort, WellFormed expression) := by
  refine ⟨fun noQuote => wellFormed_matchExpressions_iff noQuote sort, ?_⟩
  intro odd wellFormed
  have even := (wellFormed _ List.mem_cons_self).even_quotes
  change (written (fastMatch _ _)).count '"' % 2 = 0 at even
  rw [count_fastMatch, count_separated] at even
  omega

/-- A word with a comma after it. -/
theorem comma_not_wellFormed :
    ¬∀ expression ∈ matchExpressions asciiRuntime "foi,".toList .relevance, WellFormed expression := by
  decide +kernel

end Aelf.Bible.SearchQuery
