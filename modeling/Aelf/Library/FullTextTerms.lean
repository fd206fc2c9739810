import Aelf.Library.FullText

/-! # Terms of a full-text query

A term is written without a blank and without a double quote.  What it does to an
expression depends on its first character and on the word that it ends in, so it can be
read off the terms whether they form an expression when blanks keep them apart. -/

namespace Aelf.Library.FullText

/-! ## Shape of a term -/

def isPlain (c : Char) : Bool := c ≠ '"' && !isBlank c

/-- Word characters and stars, each star right after a bareword.  The word that is being read comes first. -/
def isTermFrom : List Char → List Char → Bool
  | _, [] => true
  | word, c :: text =>
    if isWordChar c then isTermFrom (word ++ [c]) text
    else c = '*' && word ≠ [] && !isOperator word && isTermFrom [] text

/-- A star may also come first: it then belongs to the term before. -/
def isTerm (text : List Char) : Bool :=
  if text.head? = some '*' then isTermFrom [] text.tail else isTermFrom [] text

/-- What stands after the last star. -/
def lastWordFrom : List Char → List Char → List Char
  | word, [] => word
  | word, c :: text => if c = '*' then lastWordFrom [] text else lastWordFrom (word ++ [c]) text

def lastWord (text : List Char) : List Char := lastWordFrom [] text

def endsInOperator (text : List Char) : Bool := isOperator (lastWord text)

def endsInWord (text : List Char) : Bool := lastWord text ≠ [] && !isOperator (lastWord text)

/-- A term may stand after the term before it, or at the start. -/
def follows (previous : Option (List Char)) (text : List Char) : Bool :=
  if text.head? = some '*' then previous.any endsInWord
  else if isOperator text then previous.any fun before => !endsInOperator before
  else true

/-- Terms in a row form an expression. -/
def isPhrasing : Option (List Char) → List (List Char) → Bool
  | previous, [] => previous.any fun before => !endsInOperator before
  | previous, text :: texts => isTerm text && follows previous text && isPhrasing (some text) texts

/-! ## Text without a double quote -/

def Token.isString : Token → Bool
  | .string _ => true
  | _ => false

/-- A mode that is not in a string. -/
def Mode.isPlain : Mode → Bool
  | .between | .word _ => true
  | _ => false

theorem isPlain_start {c : Char} {tokens : List Token} {reached : Mode} (different : c ≠ '"')
    (started : start c = some (tokens, reached)) : reached.isPlain = true ∧ tokens.all (!·.isString) = true := by
  unfold start at started
  simp only [different, ↓reduceIte] at started
  repeat
    split at started
    · cases started
      exact ⟨rfl, rfl⟩
  cases started

theorem isPlain_step {mode reached : Mode} {c : Char} {tokens : List Token} (plain : mode.isPlain = true)
    (different : c ≠ '"') (stepped : step mode c = some (tokens, reached)) :
    reached.isPlain = true ∧ tokens.all (!·.isString) = true := by
  cases mode with
  | between => exact isPlain_start different stepped
  | word text =>
    simp only [step] at stepped
    split at stepped
    case isTrue =>
      cases stepped
      exact ⟨rfl, rfl⟩
    case isFalse =>
      obtain ⟨⟨first, middle⟩, started, same⟩ := Option.map_eq_some_iff.mp stepped
      cases same
      obtain ⟨plainMiddle, noString⟩ := isPlain_start different started
      exact ⟨plainMiddle, by simpa [Token.isString] using noString⟩
  | string text | quote text => cases plain

/-- A text without a double quote has no string in it. -/
theorem noString_lexFrom {mode : Mode} {text : List Char} {tokens : List Token} (plain : mode.isPlain = true)
    (noQuote : '"' ∉ text) (cut : lexFrom mode text = some tokens) : tokens.all (!·.isString) = true := by
  induction text generalizing mode tokens with
  | nil =>
    cases mode with
    | between | word text =>
      cases cut
      rfl
    | string text | quote text => cases plain
  | cons c text inductionHypothesis =>
    rw [List.mem_cons, not_or] at noQuote
    rw [lexFrom_cons] at cut
    obtain ⟨⟨first, reached⟩, stepped, rest⟩ := Option.bind_eq_some_iff.mp cut
    obtain ⟨later, cutLater, rfl⟩ := Option.map_eq_some_iff.mp rest
    obtain ⟨plainReached, noStringFirst⟩ := isPlain_step plain (fun same => noQuote.1 same.symm) stepped
    rw [List.all_append, noStringFirst, inductionHypothesis plainReached noQuote.2 cutLater]
    rfl

/-- No text without a double quote completes what has been read. -/
def Dead (reached : Option State) : Prop := reached = none ∨ reached = some .group

theorem dead_group {tokens : List Token} (noString : tokens.all (!·.isString) = true) :
    Dead (runTokens .group tokens) := by
  cases tokens with
  | nil => exact .inr rfl
  | cons token tokens =>
    rw [List.all_cons, Bool.and_eq_true] at noString
    cases token with
    | string text => cases noString.1
    | word text | star | comma | opening | closing => exact .inl rfl

def Token.isSign : Token → Bool
  | .comma | .opening | .closing => true
  | _ => false

theorem dead_sign {state : State} {sign : Token} {tokens : List Token} (ready : state.ready = true)
    (isSign : sign.isSign = true) (noString : tokens.all (!·.isString) = true) :
    Dead (runTokens state (sign :: tokens)) := by
  have moved : next state sign = none ∨ next state sign = some .group := by
    cases state <;> cases sign <;> simp_all [State.ready, Token.isSign, next]
    exact em' _
  rw [runTokens_cons]
  obtain stuck | opened := moved
  · exact .inl (by rw [stuck]; rfl)
  · rw [opened]
    exact dead_group noString

theorem next_word_cases {state : State} (ready : state.ready = true) (text : List Char) :
    next state (.word text) = none ∨ ∃ reached, next state (.word text) = some reached ∧ reached.ready = true := by
  cases operator : isOperator text with
  | false => exact .inr ⟨_, next_word ready operator, rfl⟩
  | true =>
    cases final : state.final with
    | true => exact .inr ⟨_, next_operator final operator, rfl⟩
    | false => exact .inl (next_operator_incomplete ready final operator)

theorem dead_word_sign {state : State} {text : List Char} {sign : Token} {tokens : List Token}
    (ready : state.ready = true) (isSign : sign.isSign = true) (noString : tokens.all (!·.isString) = true) :
    Dead (runTokens state (.word text :: sign :: tokens)) := by
  rw [runTokens_cons]
  obtain stuck | ⟨reached, moved, readyReached⟩ := next_word_cases ready text
  · exact .inl (by rw [stuck]; rfl)
  · rw [moved]
    exact dead_sign readyReached isSign noString

theorem start_sign {c : Char} (plain : isPlain c = true) (notWord : isWordChar c = false) (notStar : c ≠ '*') :
    start c = none ∨ ∃ sign, sign.isSign = true ∧ start c = some ([sign], .between) := by
  simp only [isPlain, ne_eq, decide_not, Bool.and_eq_true, Bool.not_eq_true', decide_eq_false_iff_not] at plain
  unfold start
  simp only [plain.1, plain.2, notWord, notStar, Bool.false_eq_true, ↓reduceIte]
  by_cases comma : c = ','
  · exact .inr ⟨.comma, rfl, by simp [comma]⟩
  · by_cases opening : c = '('
    · exact .inr ⟨.opening, rfl, by simp [opening]⟩
    · by_cases closing : c = ')'
      · exact .inr ⟨.closing, rfl, by simp [closing]⟩
      · exact .inl (by simp [comma, opening, closing])

/-! ## Reading a term -/

/-- The mode in which a word is read. -/
def wordMode : List Char → Mode
  | [] => .between
  | c :: word => .word (c :: word)

/-- The state after a word that may be missing. -/
def readWord (state : State) (word : List Char) : Option State :=
  if word = [] then some state else next state (.word word)

/-- The state that the tokens of a text lead to. -/
def reading (mode : Mode) (state : State) (text : List Char) : Option State :=
  (lexFrom mode text).bind (runTokens state)

theorem reading_wordMode_nil (state : State) (word : List Char) :
    reading (wordMode word) state [] = readWord state word := by
  cases word with
  | nil => rfl
  | cons c word =>
    change (runTokens state [.word (c :: word)]) = _
    simp [runTokens_cons, readWord]

theorem lexFrom_wordMode {c : Char} (isWord : isWordChar c = true) (word text : List Char) :
    lexFrom (wordMode word) (c :: text) = lexFrom (wordMode (word ++ [c])) text := by
  cases word with
  | nil =>
    have single : [c].all isWordChar = true := by simp [isWord]
    exact lex_word_append single (by simp) text
  | cons first word =>
    have single : [c].all isWordChar = true := by simp [isWord]
    exact lexFrom_word_append single (first :: word) text

theorem reading_star {state : State} {word : List Char} (ready : state.ready = true)
    (plain : isOperator word = false) (text : List Char) :
    reading (.word word) state ('*' :: text) = reading .between .phrase text := by
  have started := next_word ready plain
  have starred : next (.word word) .star = some .phrase := rfl
  unfold reading
  rw [lexFrom_word rfl, lex_star]
  change _ = (lex text).bind _
  cases lex text with
  | none => rfl
  | some tokens => simp [runTokens_cons, started, starred]

theorem dead_star_operator {state : State} {word : List Char} (ready : state.ready = true)
    (operator : isOperator word = true) (text : List Char) : Dead (reading (.word word) state ('*' :: text)) := by
  left
  unfold reading
  rw [lexFrom_word rfl, lex_star]
  cases lex text with
  | none => rfl
  | some tokens =>
    cases final : state.final with
    | true =>
      have moved := next_operator final operator
      have stuck : next .operand .star = none := rfl
      simp [runTokens_cons, moved, stuck]
    | false =>
      have stuck := next_operator_incomplete ready final operator
      simp [runTokens_cons, stuck]

theorem reading_sign {mode : Mode} {state : State} {c : Char} {text : List Char} {before : List Token}
    (cut : lexFrom mode (c :: text) = (lex (c :: text)).map (before ++ ·))
    (dead : ∀ sign tokens, sign.isSign = true → tokens.all (!·.isString) = true →
      Dead (runTokens state (before ++ sign :: tokens)))
    (plain : isPlain c = true) (notWord : isWordChar c = false) (notStar : c ≠ '*') (noQuote : '"' ∉ text) :
    Dead (reading mode state (c :: text)) := by
  unfold reading
  rw [cut, lex, lexFrom_cons]
  obtain stuck | ⟨sign, isSign, started⟩ := start_sign plain notWord notStar
  · exact .inl (by simp [step, stuck])
  · simp only [step, started, Option.bind_some]
    cases rest : lexFrom .between text with
    | none => exact .inl rfl
    | some tokens => exact dead sign tokens isSign (noString_lexFrom rfl noQuote rest)

theorem dead_reading_sign {state : State} (word : List Char) {c : Char} {text : List Char} (ready : state.ready = true)
    (plain : isPlain c = true) (notWord : isWordChar c = false) (notStar : c ≠ '*') (noQuote : '"' ∉ text) :
    Dead (reading (wordMode word) state (c :: text)) := by
  cases word with
  | nil =>
    have cut : lexFrom .between (c :: text) = (lex (c :: text)).map ([] ++ ·) := by simp [lex]
    exact reading_sign cut (fun _ _ => dead_sign ready) plain notWord notStar noQuote
  | cons first word =>
    have cut : lexFrom (.word (first :: word)) (c :: text) = (lex (c :: text)).map ([.word (first :: word)] ++ ·) :=
      lexFrom_word notWord _ _
    exact reading_sign cut (fun _ _ => dead_word_sign ready) plain notWord notStar noQuote

theorem noQuote_of_plain {text : List Char} (plain : text.all isPlain = true) : '"' ∉ text := by
  intro member
  cases List.all_eq_true.mp plain '"' member

theorem lastWordFrom_of_noStar {text : List Char} (noStar : '*' ∉ text) (word : List Char) :
    lastWordFrom word text = word ++ text := by
  induction text generalizing word with
  | nil => simp [lastWordFrom]
  | cons c text inductionHypothesis =>
    rw [List.mem_cons, not_or] at noStar
    have different : c ≠ '*' := fun same => noStar.1 same.symm
    rw [lastWordFrom, if_neg different, inductionHypothesis noStar.2, List.append_assoc]
    rfl

/-- After a star the last word is read like one that no star precedes. -/
theorem readWord_lastWordFrom (word text : List Char) :
    (if '*' ∈ text then readWord .phrase (lastWordFrom word text) else readWord .phrase (word ++ text)) =
      readWord .phrase (lastWordFrom word text) := by
  split
  case isTrue => rfl
  case isFalse noStar => rw [lastWordFrom_of_noStar noStar]

/-- What a term does after the words that have been read of it. -/
theorem reading_term {text : List Char} (plain : text.all isPlain = true) (word : List Char) (state : State)
    (ready : state.ready = true) (fresh : word = [] → state = .operand ∨ state = .phrase) :
    (isTermFrom word text = true → reading (wordMode word) state text =
      if '*' ∈ text then readWord .phrase (lastWordFrom word text) else readWord state (word ++ text)) ∧
    (isTermFrom word text = false → Dead (reading (wordMode word) state text)) := by
  induction text generalizing word state with
  | nil => simp [isTermFrom, reading_wordMode_nil]
  | cons c text inductionHypothesis =>
    rw [List.all_cons, Bool.and_eq_true] at plain
    cases isWord : isWordChar c with
    | true =>
      have different : c ≠ '*' := by rintro rfl; cases isWord
      have later := inductionHypothesis plain.2 (word ++ [c]) state ready (by simp)
      rw [isTermFrom, if_pos isWord, reading, lexFrom_wordMode isWord, ← reading, lastWordFrom, if_neg different]
      simpa [different.symm] using later
    | false =>
      rw [isTermFrom, if_neg (by simp [isWord])]
      by_cases isStar : c = '*'
      · subst isStar
        cases word with
        | nil =>
          -- a star that nothing precedes
          refine ⟨by simp, fun _ => .inl ?_⟩
          have stuck : next state .star = none := by
            obtain rfl | rfl := fresh rfl <;> rfl
          change ((lex text).map (.star :: ·)).bind (runTokens state) = none
          cases lex text with
          | none => rfl
          | some tokens => simp [runTokens_cons, stuck]
        | cons first word =>
          cases operator : isOperator (first :: word) with
          | true => exact ⟨by simp, fun _ => dead_star_operator ready operator text⟩
          | false =>
            have later := inductionHypothesis plain.2 [] .phrase rfl (fun _ => .inr rfl)
            have moved := reading_star ready operator text
            rw [wordMode, moved]
            simp only [decide_true, ne_eq, reduceCtorEq, not_false_eq_true, Bool.not_false, Bool.and_self, Bool.true_and,
              List.mem_cons, true_or, if_true, lastWordFrom]
            refine ⟨fun isTerm => ?_, later.2⟩
            have read := later.1 isTerm
            rw [readWord_lastWordFrom] at read
            exact read
      · exact ⟨by simp [isStar], fun _ => dead_reading_sign word ready plain.1 isWord isStar (noQuote_of_plain plain.2)⟩

/-- The state after a term that ends in the word. -/
def stateAfterWord (word : List Char) : State :=
  if word = [] then .phrase else if isOperator word then .operand else .word word

/-- The state after a term, or at the start. -/
def stateAfter : Option (List Char) → State
  | none => .operand
  | some text => stateAfterWord (lastWord text)

theorem ready_stateAfter (previous : Option (List Char)) : (stateAfter previous).ready = true := by
  cases previous with
  | none => rfl
  | some text =>
    simp only [stateAfter, stateAfterWord]
    split
    · rfl
    · split <;> rfl

theorem final_stateAfter (previous : Option (List Char)) :
    (stateAfter previous).final = previous.any fun before => !endsInOperator before := by
  cases previous with
  | none => rfl
  | some text =>
    simp only [stateAfter, stateAfterWord, Option.any_some, endsInOperator]
    split
    case isTrue empty => rw [empty]; rfl
    case isFalse =>
      split
      case isTrue operator => rw [operator]; rfl
      case isFalse plain => simp [State.final, plain]

theorem readWord_phrase (word : List Char) : readWord .phrase word = some (stateAfterWord word) := by
  unfold readWord stateAfterWord
  split
  case isTrue => rfl
  case isFalse =>
    simp only [next, afterWord]
    split <;> rfl

theorem not_isOperator_of_star {text : List Char} (star : '*' ∈ text) : isOperator text = false := by
  by_contra operator
  simp only [isOperator, Bool.not_eq_false, Bool.or_eq_true, decide_eq_true_eq] at operator
  obtain (rfl | rfl) | rfl := operator <;> simp at star

theorem reading_between_star (state : State) (text : List Char) :
    reading .between state ('*' :: text) = (next state .star).bind fun reached => reading .between reached text := by
  change ((lex text).map (.star :: ·)).bind (runTokens state) = _
  unfold reading
  change _ = _ >>= fun reached => (lex text).bind (runTokens reached)
  cases lex text with
  | none => cases next state .star <;> rfl
  | some tokens => rfl

theorem next_stateAfter_star (previous : Option (List Char)) :
    next (stateAfter previous) .star = if previous.any endsInWord then some .phrase else none := by
  cases previous with
  | none => rfl
  | some before =>
    simp only [stateAfter, stateAfterWord, Option.any_some, endsInWord, ne_eq]
    by_cases empty : lastWord before = []
    · simp [empty, next]
    · by_cases operator : isOperator (lastWord before) = true <;> simp [empty, operator, next]

theorem reading_leading_star {previous : Option (List Char)} {text : List Char} (plain : text.all isPlain = true) :
    (isTerm ('*' :: text) = true ∧ follows previous ('*' :: text) = true →
      reading .between (stateAfter previous) ('*' :: text) = some (stateAfter (some ('*' :: text)))) ∧
    (¬(isTerm ('*' :: text) = true ∧ follows previous ('*' :: text) = true) →
      Dead (reading .between (stateAfter previous) ('*' :: text))) := by
  have later := reading_term plain [] .phrase rfl (fun _ => .inr rfl)
  have term : isTerm ('*' :: text) = isTermFrom [] text := rfl
  have last : lastWordFrom [] text = lastWord ('*' :: text) := rfl
  cases ends : previous.any endsInWord with
  | true =>
    have follow : follows previous ('*' :: text) = true := by simp [follows, ends]
    rw [reading_between_star, next_stateAfter_star, if_pos ends, Option.bind_some, term, follow]
    refine ⟨fun ⟨isTerm, _⟩ => ?_, fun notTerm => later.2 (by simpa using notTerm)⟩
    have read := later.1 isTerm
    rw [readWord_lastWordFrom, last, readWord_phrase] at read
    exact read
  | false =>
    have follow : follows previous ('*' :: text) = false := by simp [follows, ends]
    refine ⟨fun both => by simp [follow] at both, fun _ => .inl ?_⟩
    rw [reading_between_star, next_stateAfter_star, if_neg (by simp [ends])]
    rfl

theorem reading_leading_word {previous : Option (List Char)} {c : Char} {text : List Char} (isWord : isWordChar c = true)
    (plain : text.all isPlain = true) :
    (isTerm (c :: text) = true ∧ follows previous (c :: text) = true →
      reading .between (stateAfter previous) (c :: text) = some (stateAfter (some (c :: text)))) ∧
    (¬(isTerm (c :: text) = true ∧ follows previous (c :: text) = true) →
      Dead (reading .between (stateAfter previous) (c :: text))) := by
  have different : c ≠ '*' := by rintro rfl; cases isWord
  have notHead : (c :: text).head? ≠ some '*' := by simpa using different
  have moved : reading .between (stateAfter previous) (c :: text) = reading (wordMode [c]) (stateAfter previous) text := by
    unfold reading
    rw [show Mode.between = wordMode [] from rfl, lexFrom_wordMode isWord]
    rfl
  have later := reading_term plain [c] (stateAfter previous) (ready_stateAfter previous) (by simp)
  have term : isTerm (c :: text) = isTermFrom [c] text := by simp [isTerm, different, isTermFrom, isWord]
  have last : lastWord (c :: text) = lastWordFrom [c] text := by simp [lastWord, lastWordFrom, different]
  rw [moved, term]
  cases isTerm : isTermFrom [c] text with
  | false => exact ⟨by simp, fun _ => later.2 isTerm⟩
  | true =>
    rw [later.1 isTerm]
    by_cases star : '*' ∈ text
    -- a word that a star interrupts is no operator, and what follows its last star is read on its own
    · have plainOperator := not_isOperator_of_star (List.mem_cons_of_mem c star)
      have follow : follows previous (c :: text) = true := by
        rw [follows, if_neg notHead, plainOperator]
        rfl
      rw [if_pos star, readWord_phrase, ← last, follow]
      exact ⟨fun _ => rfl, by simp⟩
    · have whole : lastWord (c :: text) = c :: text := by rw [last, lastWordFrom_of_noStar star]; rfl
      rw [if_neg star, List.singleton_append, readWord, if_neg (by simp), follows, if_neg notHead]
      cases operator : isOperator (c :: text) with
      | false =>
        have read := next_word (ready_stateAfter previous) operator
        refine ⟨fun _ => ?_, by simp⟩
        rw [read, stateAfter, whole, stateAfterWord, if_neg (by simp), operator]
        rfl
      | true =>
        simp only [↓reduceIte, true_and]
        rw [← final_stateAfter]
        constructor
        · intro final
          rw [next_operator final operator, stateAfter, whole, stateAfterWord, if_neg (by simp), operator]
          rfl
        · intro notFinal
          exact .inl (next_operator_incomplete (ready_stateAfter previous) (by simpa using notFinal) operator)

/-- A term is read when it may follow what is before it; other terms are not completed by anything. -/
theorem reading_text (previous : Option (List Char)) {text : List Char} (plain : text.all isPlain = true)
    (nonempty : text ≠ []) :
    (isTerm text = true ∧ follows previous text = true →
      reading .between (stateAfter previous) text = some (stateAfter (some text))) ∧
    (¬(isTerm text = true ∧ follows previous text = true) → Dead (reading .between (stateAfter previous) text)) := by
  cases text with
  | nil => exact absurd rfl nonempty
  | cons c text =>
    rw [List.all_cons, Bool.and_eq_true] at plain
    cases isWord : isWordChar c with
    | true => exact reading_leading_word isWord plain.2
    | false =>
      by_cases isStar : c = '*'
      · subst isStar
        exact reading_leading_star plain.2
      · have noTerm : isTerm (c :: text) = false := by simp [isTerm, isStar, isTermFrom, isWord]
        refine ⟨by simp [noTerm], fun _ => ?_⟩
        exact dead_reading_sign [] (ready_stateAfter previous) plain.1 isWord isStar (noQuote_of_plain plain.2)

/-! ## Terms in a row -/

/-- The tokens of texts that blanks keep apart. -/
def lexAll : List (List Char) → Option (List Token)
  | [] => some []
  | text :: texts => (lex text).bind fun tokens => (lexAll texts).map (tokens ++ ·)

theorem noString_lexAll {texts : List (List Char)} {tokens : List Token}
    (plain : ∀ text ∈ texts, text.all isPlain = true) (cut : lexAll texts = some tokens) :
    tokens.all (!·.isString) = true := by
  induction texts generalizing tokens with
  | nil => cases cut; rfl
  | cons text texts inductionHypothesis =>
    obtain ⟨first, cutFirst, rest⟩ := Option.bind_eq_some_iff.mp cut
    obtain ⟨later, cutLater, rfl⟩ := Option.map_eq_some_iff.mp rest
    have noStringFirst := noString_lexFrom rfl (noQuote_of_plain (plain text (by simp))) cutFirst
    have noStringLater := inductionHypothesis (fun other member => plain other (by simp [member])) cutLater
    rw [List.all_append, noStringFirst, noStringLater]
    rfl

/-- The state that texts in a row lead to. -/
def readAll (state : State) (texts : List (List Char)) : Option State := (lexAll texts).bind (runTokens state)

theorem readAll_cons (state : State) (text : List Char) (texts : List (List Char)) :
    readAll state (text :: texts) = (lexAll texts).bind fun later =>
      (reading .between state text).bind fun reached => runTokens reached later := by
  unfold readAll reading
  change ((lex text).bind _).bind _ = _
  rw [show lexFrom .between text = lex text from rfl]
  cases lex text with
  | none => cases lexAll texts <;> rfl
  | some tokens =>
    cases lexAll texts with
    | none => rfl
    | some later => exact runTokens_append state tokens later

/-- Texts in a row are read as an expression exactly when they are phrased as one. -/
theorem final_readAll {texts : List (List Char)} (plain : ∀ text ∈ texts, text.all isPlain = true)
    (nonempty : ∀ text ∈ texts, text ≠ []) (previous : Option (List Char)) :
    (readAll (stateAfter previous) texts).any State.final = isPhrasing previous texts := by
  induction texts generalizing previous with
  | nil => exact final_stateAfter previous
  | cons text texts inductionHypothesis =>
    have later := inductionHypothesis (fun other member => plain other (by simp [member]))
      (fun other member => nonempty other (by simp [member])) (some text)
    have here := reading_text previous (plain text (by simp)) (nonempty text (by simp))
    rw [readAll_cons, isPhrasing, ← later]
    by_cases good : isTerm text = true ∧ follows previous text = true
    · rw [here.1 good, good.1, good.2]
      rfl
    · have bad : (isTerm text && follows previous text) = false := by simpa using good
      rw [bad, Bool.false_and]
      -- the later terms hold no string, which is all that could complete an open group
      cases cut : lexAll texts with
      | none => rfl
      | some tokens =>
        have noString := noString_lexAll (fun other member => plain other (by simp [member])) cut
        obtain stuck | opened := here.2 good
        · rw [stuck]
          rfl
        · rw [opened, Option.bind_some, Option.bind_some]
          obtain stuck | stays := dead_group noString
          · rw [stuck]
            rfl
          · rw [stays]
            rfl

theorem lexFrom_append_blank {mode : Mode} {text : List Char} (plainMode : mode.isPlain = true)
    (noQuote : '"' ∉ text) (rest : List Char) :
    lexFrom mode (text ++ ' ' :: rest) =
      (lexFrom mode text).bind fun tokens => (lex rest).map (tokens ++ ·) := by
  induction text generalizing mode with
  | nil =>
    cases mode with
    | between =>
      change lex (' ' :: rest) = _
      rw [lex_blank rfl]
      simp [lexFrom, finish]
    | word word =>
      rw [List.nil_append, lexFrom_word rfl, lex_blank rfl]
      rfl
    | string word | quote word => cases plainMode
  | cons c text inductionHypothesis =>
    rw [List.mem_cons, not_or] at noQuote
    rw [List.cons_append, lexFrom_cons, lexFrom_cons]
    cases stepped : step mode c with
    | none => rfl
    | some pair =>
      obtain ⟨first, reached⟩ := pair
      -- the blank would not end a string, but none is open
      have plainReached := (isPlain_step plainMode (fun same => noQuote.1 same.symm) stepped).1
      simp only [Option.bind_some]
      rw [inductionHypothesis plainReached noQuote.2]
      cases lexFrom reached text with
      | none => rfl
      | some tokens => cases lex rest <;> simp

theorem lex_append_blank {text : List Char} (plain : text.all isPlain = true) (rest : List Char) :
    lex (text ++ ' ' :: rest) = (lex text).bind fun tokens => (lex rest).map (tokens ++ ·) :=
  lexFrom_append_blank rfl (noQuote_of_plain plain) rest

/-! ## Reading in pieces -/

theorem wellFormed_iff_reading (text : List Char) :
    WellFormed text ↔ (reading .between .operand text).any State.final = true := by
  rw [wellFormed_iff]
  unfold reading
  change _ ↔ ((lex text).bind _).any State.final = true
  cases lex text with
  | none => rfl
  | some tokens => rfl

/-- A text that starts with these tokens. -/
theorem reading_of_lex {text rest : List Char} {tokens : List Token}
    (cut : lex text = (lex rest).map (tokens ++ ·)) (state : State) :
    reading .between state text = (runTokens state tokens).bind fun reached => reading .between reached rest := by
  unfold reading
  change (lex text).bind _ = _ >>= fun reached => (lex rest).bind _
  rw [cut]
  cases lex rest with
  | none => cases runTokens state tokens <;> rfl
  | some later => exact runTokens_append state tokens later

theorem lex_word_blank {word : List Char} (isWord : word.all isWordChar = true) (nonempty : word ≠ [])
    (rest : List Char) : lex (word ++ ' ' :: rest) = (lex rest).map (.word word :: ·) := by
  rw [lex_word_append isWord nonempty, lexFrom_word rfl, lex_blank rfl]

theorem lex_opening (rest : List Char) : lex ('(' :: rest) = (lex rest).map (.opening :: ·) := rfl

theorem lex_closing (rest : List Char) : lex (')' :: rest) = (lex rest).map (.closing :: ·) := rfl

theorem lex_comma (rest : List Char) : lex (',' :: rest) = (lex rest).map (.comma :: ·) := rfl

/-- Texts that blanks keep apart, with a blank before the first of them or without. -/
theorem lex_blanks {texts : List (List Char)} (plain : ∀ text ∈ texts, text.all isPlain = true) :
    lex (texts.flatMap (' ' :: ·)) = lexAll texts := by
  induction texts with
  | nil => rfl
  | cons text texts inductionHypothesis =>
    have later := inductionHypothesis fun other member => plain other (by simp [member])
    have here := plain text (by simp)
    rw [List.flatMap_cons, List.cons_append, lex_blank rfl, lexAll, ← later]
    cases texts with
    | nil =>
      change lex (text ++ []) = (lex text).bind fun tokens => (lex []).map (tokens ++ ·)
      simp
    | cons second texts =>
      rw [List.flatMap_cons, List.cons_append, lex_append_blank here, lex_blank rfl]

end Aelf.Library.FullText
