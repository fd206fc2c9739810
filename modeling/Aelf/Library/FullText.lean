import Aelf.Library.Decimal

/-! # Full-text query expressions

The language in which a full-text index is queried: double-quoted strings, barewords that
a star may follow, groups `NEAR("one" "two", 4)`, and operators between them.  A text is
cut into tokens first.  The grammar says which sequences of tokens are expressions, and an
automaton recognises exactly those. -/

namespace Aelf.Library.FullText

/-! ## Tokens -/

inductive Token where
  | string (text : List Char)
  | word (text : List Char)
  | star
  | comma
  | opening
  | closing
deriving DecidableEq

def isBlank (c : Char) : Bool := c = ' ' || c = '\t' || c = '\n' || c = '\r'

/-- The characters of a bareword: ASCII letters and digits, the underscore, and all that is not ASCII. -/
def isWordChar (c : Char) : Bool := c.isAlphanum || c = '_' || 128 ≤ c.toNat

/-- Where the reader is in the text, with what it has read of the token it is in. -/
inductive Mode where
  | between
  | word (text : List Char)
  | string (text : List Char)
  /-- After a double quote inside a string: it ends the string unless another one follows. -/
  | quote (text : List Char)

/-- The first character of a token, or a blank between two. -/
def start (c : Char) : Option (List Token × Mode) :=
  if isBlank c then some ([], .between)
  else if isWordChar c then some ([], .word [c])
  else if c = '"' then some ([], .string [])
  else if c = '*' then some ([.star], .between)
  else if c = ',' then some ([.comma], .between)
  else if c = '(' then some ([.opening], .between)
  else if c = ')' then some ([.closing], .between)
  else none

/-- A token is complete, and the character belongs to what follows it. -/
def startAfter (token : Token) (c : Char) : Option (List Token × Mode) :=
  (start c).map fun (tokens, mode) => (token :: tokens, mode)

def step : Mode → Char → Option (List Token × Mode)
  | .between, c => start c
  | .word text, c => if isWordChar c then some ([], .word (text ++ [c])) else startAfter (.word text) c
  | .string text, c => if c = '"' then some ([], .quote text) else some ([], .string (text ++ [c]))
  | .quote text, c => if c = '"' then some ([], .string (text ++ ['"'])) else startAfter (.string text) c

/-- What the end of the text completes.  A string that is still open is an error. -/
def finish : Mode → Option (List Token)
  | .between => some []
  | .word text => some [.word text]
  | .string _ => none
  | .quote text => some [.string text]

def lexFrom : Mode → List Char → Option (List Token)
  | mode, [] => finish mode
  | mode, c :: text => (step mode c).bind fun (tokens, next) => (lexFrom next text).map (tokens ++ ·)

def lex (text : List Char) : Option (List Token) := lexFrom .between text

/-! ## Grammar -/

def isOperator (text : List Char) : Bool :=
  text = ['A', 'N', 'D'] || text = ['O', 'R'] || text = ['N', 'O', 'T']

def near : List Char := ['N', 'E', 'A', 'R']

def isNumber (text : List Char) : Bool := text ≠ [] && text.all Char.isDigit

inductive Operand : List Token → Prop where
  | string (text : List Char) : Operand [.string text]
  | word {text : List Char} (plain : isOperator text = false) : Operand [.word text]
  | wildcard {text : List Char} (plain : isOperator text = false) : Operand [.word text, .star]
  | near {strings : List (List Char)} {distance : List Char} (nonempty : strings ≠ [])
      (number : isNumber distance = true) :
      Operand (.word near :: .opening :: strings.map .string ++ [.comma, .word distance, .closing])

/-- Operands side by side must all match. -/
inductive Expression : List Token → Prop where
  | operand {tokens : List Token} (operand : Operand tokens) : Expression tokens
  | all {tokens more : List Token} (first : Expression tokens) (second : Operand more) : Expression (tokens ++ more)
  | operator {tokens more : List Token} {name : List Char} (first : Expression tokens)
      (isOperator : isOperator name = true) (second : Operand more) : Expression (tokens ++ .word name :: more)

def WellFormed (text : List Char) : Prop := ∃ tokens, lex text = some tokens ∧ Expression tokens

/-! ## The automaton -/

/-- What has been read last, as far as it decides what may follow. -/
inductive State where
  /-- Nothing, or an operator. -/
  | operand
  /-- A complete operand that nothing can extend. -/
  | phrase
  | word (text : List Char)
  /-- The opening of a group, and then its strings, its comma and its number. -/
  | group
  | strings
  | distance
  | number
deriving DecidableEq

/-- A word after an operand, or at the start. -/
def afterWord (complete : Bool) (text : List Char) : Option State :=
  if isOperator text then if complete then some .operand else none else some (.word text)

def next : State → Token → Option State
  | .operand, .string _ => some .phrase
  | .operand, .word text => afterWord false text
  | .phrase, .string _ => some .phrase
  | .phrase, .word text => afterWord true text
  | .word _, .string _ => some .phrase
  | .word _, .word text => afterWord true text
  | .word _, .star => some .phrase
  | .word text, .opening => if text = near then some .group else none
  | .group, .string _ => some .strings
  | .strings, .string _ => some .strings
  | .strings, .comma => some .distance
  | .distance, .word text => if isNumber text then some .number else none
  | .number, .closing => some .phrase
  | _, _ => none

def State.final : State → Bool
  | .phrase => true
  | .word _ => true
  | _ => false

def runTokens (state : State) (tokens : List Token) : Option State := tokens.foldlM next state

def accepts (tokens : List Token) : Bool := (runTokens .operand tokens).any State.final

/-! ## The automaton recognises the grammar -/

@[simp] theorem runTokens_nil (state : State) : runTokens state [] = some state := rfl

theorem runTokens_cons (state : State) (token : Token) (tokens : List Token) :
    runTokens state (token :: tokens) = (next state token).bind fun reached => runTokens reached tokens := rfl

theorem runTokens_append (state : State) (tokens more : List Token) :
    runTokens state (tokens ++ more) = (runTokens state tokens).bind fun reached => runTokens reached more :=
  List.foldlM_append

/-! ### States in which an operand may begin -/

def State.ready : State → Bool
  | .operand | .phrase | .word _ => true
  | _ => false

theorem State.ready_of_final {state : State} (final : state.final = true) : state.ready = true := by
  cases state <;> simp_all [State.final, State.ready]

theorem next_string {state : State} (ready : state.ready = true) (text : List Char) :
    next state (.string text) = some .phrase := by
  cases state with
  | operand | phrase | word last => rfl
  | group | strings | distance | number => cases ready

theorem next_word_eq {state : State} (ready : state.ready = true) (text : List Char) :
    next state (.word text) = afterWord state.final text := by
  cases state with
  | operand | phrase | word last => rfl
  | group | strings | distance | number => cases ready

theorem next_word {state : State} (ready : state.ready = true) {text : List Char} (plain : isOperator text = false) :
    next state (.word text) = some (.word text) := by
  simp [next_word_eq ready, afterWord, plain]

theorem next_operator {state : State} (final : state.final = true) {text : List Char}
    (operator : isOperator text = true) : next state (.word text) = some .operand := by
  simp [next_word_eq (State.ready_of_final final), afterWord, operator, final]

theorem next_operator_incomplete {state : State} (ready : state.ready = true) (incomplete : state.final = false)
    {text : List Char} (operator : isOperator text = true) : next state (.word text) = none := by
  simp [next_word_eq ready, afterWord, operator, incomplete]

/-! ### From the automaton to the grammar -/

/-- What may stand before an operand. -/
inductive Context : List Token → Prop where
  | nil : Context []
  | expression {tokens : List Token} (expression : Expression tokens) : Context tokens
  | operator {tokens : List Token} {name : List Char} (expression : Expression tokens)
      (isOperator : isOperator name = true) : Context (tokens ++ [.word name])

theorem Context.append_operand {tokens operand : List Token} (context : Context tokens) (isOperand : Operand operand) :
    Expression (tokens ++ operand) := by
  cases context with
  | nil => exact .operand isOperand
  | expression first => exact .all first isOperand
  | operator first operator =>
    rw [List.append_assoc]
    exact .operator first operator isOperand

/-- What a state says about the tokens that have led to it. -/
def State.Describes : State → List Token → Prop
  | .operand, tokens => tokens = [] ∨ ∃ before name, Expression before ∧ isOperator name = true ∧
      tokens = before ++ [.word name]
  | .phrase, tokens => Expression tokens
  | .word text, tokens => isOperator text = false ∧ ∃ context, Context context ∧ tokens = context ++ [.word text]
  | .group, tokens => ∃ context, Context context ∧ tokens = context ++ [.word near, .opening]
  | .strings, tokens => ∃ context strings, Context context ∧ strings ≠ [] ∧
      tokens = context ++ .word near :: .opening :: strings.map .string
  | .distance, tokens => ∃ context strings, Context context ∧ strings ≠ [] ∧
      tokens = context ++ .word near :: .opening :: strings.map .string ++ [.comma]
  | .number, tokens => ∃ context strings distance, Context context ∧ strings ≠ [] ∧ isNumber distance = true ∧
      tokens = context ++ .word near :: .opening :: strings.map .string ++ [.comma, .word distance]

theorem State.Describes.expression {state : State} {tokens : List Token} (describes : state.Describes tokens)
    (final : state.final = true) : Expression tokens := by
  cases state with
  | phrase => exact describes
  | word text =>
    obtain ⟨plain, context, isContext, rfl⟩ := describes
    exact isContext.append_operand (.word plain)
  | operand | group | strings | distance | number => cases final

theorem describes_afterWord {complete : Bool} {tokens : List Token} {text : List Char} {reached : State}
    (context : Context tokens) (expression : complete = true → Expression tokens)
    (moved : afterWord complete text = some reached) : reached.Describes (tokens ++ [.word text]) := by
  unfold afterWord at moved
  split at moved
  case isTrue operator =>
    split at moved
    case isTrue isComplete =>
      cases moved
      exact .inr ⟨tokens, text, expression isComplete, operator, rfl⟩
    case isFalse => cases moved
  case isFalse plain =>
    cases moved
    exact ⟨by simpa using plain, tokens, context, rfl⟩

theorem State.Describes.context {state : State} {tokens : List Token} (describes : state.Describes tokens)
    (ready : state.ready = true) : Context tokens := by
  cases state with
  | operand =>
    obtain rfl | ⟨before, name, expression, operator, rfl⟩ := describes
    · exact .nil
    · exact .operator expression operator
  | phrase => exact .expression describes
  | word text => exact .expression (describes.expression rfl)
  | group | strings | distance | number => cases ready

theorem describes_next_ready {state reached : State} {tokens : List Token} {token : Token}
    (ready : state.ready = true) (describes : state.Describes tokens) (moved : next state token = some reached) :
    reached.Describes (tokens ++ [token]) := by
  have context := describes.context ready
  cases token with
  | string text =>
    rw [next_string ready] at moved
    cases moved
    exact context.append_operand (.string text)
  | word text =>
    rw [next_word_eq ready] at moved
    exact describes_afterWord context describes.expression moved
  | star =>
    -- only a word has a star or a group after it
    cases state with
    | word last =>
      obtain ⟨plain, before, isContext, rfl⟩ := describes
      cases moved
      rw [List.append_assoc]
      exact isContext.append_operand (.wildcard plain)
    | operand | phrase | group | strings | distance | number => cases moved
  | opening =>
    cases state with
    | word last =>
      obtain ⟨plain, before, isContext, rfl⟩ := describes
      simp only [next] at moved
      split at moved
      case isTrue isNear =>
        cases moved
        exact ⟨before, isContext, by simp [isNear]⟩
      case isFalse => cases moved
    | operand | phrase | group | strings | distance | number => cases moved
  | comma | closing =>
    cases state with
    | operand | phrase | word last => cases moved
    | group | strings | distance | number => cases ready

/-- Inside a group each state takes one kind of token, and the last one gives an operand. -/
theorem describes_next_group {state reached : State} {tokens : List Token} {token : Token}
    (inside : state.ready = false) (describes : state.Describes tokens) (moved : next state token = some reached) :
    reached.Describes (tokens ++ [token]) := by
  cases state with
  | operand | phrase | word last => cases inside
  | group =>
    obtain ⟨context, isContext, rfl⟩ := describes
    cases token with
    | string text =>
      cases moved
      exact ⟨context, [text], isContext, by simp, by simp⟩
    | word text | star | comma | opening | closing => cases moved
  | strings =>
    obtain ⟨context, strings, isContext, nonempty, rfl⟩ := describes
    cases token with
    | string text =>
      cases moved
      exact ⟨context, strings ++ [text], isContext, by simp, by simp⟩
    | comma =>
      cases moved
      exact ⟨context, strings, isContext, nonempty, rfl⟩
    | word text | star | opening | closing => cases moved
  | distance =>
    obtain ⟨context, strings, isContext, nonempty, rfl⟩ := describes
    cases token with
    | word text =>
      simp only [next] at moved
      split at moved
      case isTrue number =>
        cases moved
        exact ⟨context, strings, text, isContext, nonempty, number, by simp⟩
      case isFalse => cases moved
    | string text | star | comma | opening | closing => cases moved
  | number =>
    obtain ⟨context, strings, distance, isContext, nonempty, number, rfl⟩ := describes
    cases token with
    | closing =>
      cases moved
      -- only now is the group an operand
      have group := isContext.append_operand (Operand.near nonempty number)
      simpa [State.Describes] using group
    | string text | word text | star | comma | opening => cases moved

theorem describes_next {state reached : State} {tokens : List Token} {token : Token}
    (describes : state.Describes tokens) (moved : next state token = some reached) :
    reached.Describes (tokens ++ [token]) := by
  cases ready : state.ready with
  | true => exact describes_next_ready ready describes moved
  | false => exact describes_next_group ready describes moved

theorem describes_runTokens {state reached : State} {before tokens : List Token} (describes : state.Describes before)
    (moved : runTokens state tokens = some reached) : reached.Describes (before ++ tokens) := by
  induction tokens generalizing state before with
  | nil =>
    cases moved
    simpa using describes
  | cons token tokens inductionHypothesis =>
    rw [runTokens_cons, Option.bind_eq_some_iff] at moved
    obtain ⟨middle, first, rest⟩ := moved
    have later := inductionHypothesis (describes_next describes first) rest
    simpa using later

/-! ### From the grammar to the automaton -/

theorem runTokens_strings {strings : List (List Char)} (tokens : List Token) :
    runTokens .strings (strings.map .string ++ tokens) = runTokens .strings tokens := by
  induction strings with
  | nil => rfl
  | cons text strings inductionHypothesis => exact inductionHypothesis

theorem runTokens_group (state : State) (ready : state.ready = true) {strings : List (List Char)}
    {distance : List Char} (nonempty : strings ≠ []) (number : isNumber distance = true) (tokens : List Token) :
    runTokens state (.word near :: .opening :: strings.map .string ++ [.comma, .word distance, .closing] ++ tokens) =
      runTokens .phrase tokens := by
  cases strings with
  | nil => exact absurd rfl nonempty
  | cons text strings =>
    have opened : next (.word near) .opening = some .group := by simp [next]
    have first : next .group (.string text) = some .strings := rfl
    have counted : next .distance (.word distance) = some .number := by simp [next, number]
    have comma : next .strings .comma = some .distance := rfl
    have closed : next .number .closing = some .phrase := rfl
    have word := next_word ready (show isOperator near = false from rfl)
    simp only [List.map_cons, List.cons_append, List.append_assoc, runTokens_cons, word, Option.bind_some, opened,
      first, runTokens_strings, comma, counted, closed, List.nil_append]

theorem runTokens_operand {state : State} {tokens : List Token} (ready : state.ready = true)
    (operand : Operand tokens) : ∃ reached, runTokens state tokens = some reached ∧ reached.final = true := by
  cases operand with
  | string text => exact ⟨.phrase, by simp [runTokens_cons, next_string ready], rfl⟩
  | @word text plain =>
    have word := next_word ready plain
    exact ⟨.word text, by simp [runTokens_cons, word], rfl⟩
  | @wildcard text plain =>
    have word := next_word ready plain
    have star : next (.word text) .star = some .phrase := rfl
    exact ⟨.phrase, by simp [runTokens_cons, word, star], rfl⟩
  | near nonempty number =>
    have group := runTokens_group state ready nonempty number []
    rw [List.append_nil] at group
    exact ⟨.phrase, group, rfl⟩

theorem runTokens_expression {tokens : List Token} (expression : Expression tokens) :
    ∃ reached, runTokens .operand tokens = some reached ∧ reached.final = true := by
  induction expression with
  | operand operand => exact runTokens_operand rfl operand
  | all first second inductionHypothesis =>
    obtain ⟨middle, moved, final⟩ := inductionHypothesis
    rw [runTokens_append, moved]
    exact runTokens_operand (State.ready_of_final final) second
  | operator first operator second inductionHypothesis =>
    obtain ⟨middle, moved, final⟩ := inductionHypothesis
    rw [runTokens_append, moved, Option.bind_some, runTokens_cons, next_operator final operator]
    exact runTokens_operand rfl second

theorem accepts_iff (tokens : List Token) : accepts tokens = true ↔ Expression tokens := by
  unfold accepts
  rw [Option.any_eq_true]
  constructor
  · intro ⟨reached, moved, final⟩
    have initial : State.Describes .operand [] := Or.inl rfl
    have describes := describes_runTokens initial moved
    exact State.Describes.expression describes final
  · intro expression
    exact runTokens_expression expression

instance (tokens : List Token) : Decidable (Expression tokens) := decidable_of_iff _ (accepts_iff tokens)

theorem wellFormed_iff (text : List Char) : WellFormed text ↔ (lex text).any accepts = true := by
  rw [Option.any_eq_true]
  simp only [WellFormed, accepts_iff]

instance (text : List Char) : Decidable (WellFormed text) := decidable_of_iff _ (wellFormed_iff text).symm

/-! ## Cutting a text into tokens -/

theorem lexFrom_cons (mode : Mode) (c : Char) (text : List Char) :
    lexFrom mode (c :: text) =
      (step mode c).bind fun (tokens, next) => (lexFrom next text).map (tokens ++ ·) := rfl

@[simp] theorem lex_nil : lex [] = some [] := rfl

theorem lexFrom_startAfter {mode : Mode} {token : Token} {c : Char} (ends : step mode c = startAfter token c)
    (text : List Char) : lexFrom mode (c :: text) = (lex (c :: text)).map (token :: ·) := by
  rw [lex, lexFrom_cons, lexFrom_cons, ends]
  change (startAfter token c).bind _ = ((start c).bind _).map _
  unfold startAfter
  cases start c with
  | none => rfl
  | some started =>
    obtain ⟨tokens, reached⟩ := started
    simp only [Option.map_some, Option.bind_some, List.cons_append, Option.map_map]
    rfl

theorem lexFrom_quote {c : Char} (notQuote : c ≠ '"') (string text : List Char) :
    lexFrom (.quote string) (c :: text) = (lex (c :: text)).map (.string string :: ·) :=
  lexFrom_startAfter (by simp [step, notQuote]) text

theorem lexFrom_word {c : Char} (ends : isWordChar c = false) (word text : List Char) :
    lexFrom (.word word) (c :: text) = (lex (c :: text)).map (.word word :: ·) :=
  lexFrom_startAfter (by simp [step, ends]) text

theorem lex_blank {c : Char} (blank : isBlank c = true) (text : List Char) : lex (c :: text) = lex text := by
  rw [lex, lexFrom_cons]
  simp only [step, start, blank, ↓reduceIte, Option.bind_some, List.nil_append, Option.map_id']
  rfl

theorem lex_star (text : List Char) : lex ('*' :: text) = (lex text).map (.star :: ·) := rfl

theorem lexFrom_string_append {text : List Char} (plain : '"' ∉ text) (before rest : List Char) :
    lexFrom (.string before) (text ++ '"' :: rest) = lexFrom (.quote (before ++ text)) rest := by
  induction text generalizing before with
  | nil => simp [lexFrom_cons, step]
  | cons c text inductionHypothesis =>
    rw [List.mem_cons, not_or] at plain
    have different : c ≠ '"' := fun same => plain.1 same.symm
    rw [List.cons_append, lexFrom_cons]
    simp only [step, different, ↓reduceIte, Option.bind_some, List.nil_append, Option.map_id']
    rw [inductionHypothesis plain.2, List.append_assoc]
    rfl

theorem lex_opened (text : List Char) : lex ('"' :: text) = lexFrom (.string []) text := by
  have notWord : isWordChar '"' = false := by decide
  rw [lex, lexFrom_cons]
  simp [step, start, isBlank, notWord]

/-- A string is read back as it has been written, when it holds no double quote. -/
theorem lex_string {text : List Char} (plain : '"' ∉ text) {c : Char} (notQuote : c ≠ '"') (rest : List Char) :
    lex ('"' :: text ++ '"' :: c :: rest) = (lex (c :: rest)).map (.string text :: ·) := by
  rw [List.cons_append, lex_opened, lexFrom_string_append plain, List.nil_append, lexFrom_quote notQuote]

theorem lex_string_end {text : List Char} (plain : '"' ∉ text) : lex ('"' :: text ++ ['"']) = some [.string text] := by
  rw [List.cons_append, lex_opened, lexFrom_string_append plain]
  rfl

theorem lexFrom_word_append {text : List Char} (isWord : text.all isWordChar = true) (before rest : List Char) :
    lexFrom (.word before) (text ++ rest) = lexFrom (.word (before ++ text)) rest := by
  induction text generalizing before with
  | nil => simp
  | cons c text inductionHypothesis =>
    rw [List.all_cons, Bool.and_eq_true] at isWord
    rw [List.cons_append, lexFrom_cons]
    simp only [step, isWord.1, ↓reduceIte, Option.bind_some, List.nil_append, Option.map_id']
    rw [inductionHypothesis isWord.2, List.append_assoc]
    rfl

theorem isBlank_eq_false {c : Char} (isWord : isWordChar c = true) : isBlank c = false := by
  by_contra blank
  simp only [isBlank, Bool.not_eq_false, Bool.or_eq_true, decide_eq_true_eq] at blank
  obtain ((rfl | rfl) | rfl) | rfl := blank <;> cases isWord

theorem lex_word_append {text : List Char} (isWord : text.all isWordChar = true) (nonempty : text ≠ [])
    (rest : List Char) : lex (text ++ rest) = lexFrom (.word text) rest := by
  cases text with
  | nil => exact absurd rfl nonempty
  | cons c text =>
    rw [List.all_cons, Bool.and_eq_true] at isWord
    rw [List.cons_append, lex, lexFrom_cons]
    simp only [step, start, isWord.1, isBlank_eq_false isWord.1, Bool.false_eq_true, ↓reduceIte, Option.bind_some,
      List.nil_append, Option.map_id']
    exact lexFrom_word_append isWord.2 [c] rest

/-- The quotes that a mode still has to close. -/
def Mode.openQuotes : Mode → Nat
  | .string _ => 1
  | _ => 0

theorem openQuotes_start {c : Char} {tokens : List Token} {reached : Mode} (started : start c = some (tokens, reached)) :
    (if c = '"' then 1 else 0) = reached.openQuotes := by
  unfold start at started
  split at started
  case isTrue blank =>
    cases started
    have different : c ≠ '"' := by rintro rfl; cases blank
    simp [different, Mode.openQuotes]
  case isFalse =>
    split at started
    case isTrue word =>
      cases started
      have different : c ≠ '"' := by rintro rfl; cases word
      simp [different, Mode.openQuotes]
    case isFalse =>
      split at started
      case isTrue isQuote =>
        cases started
        simp [isQuote, Mode.openQuotes]
      case isFalse different =>
        repeat
          -- what is left are the signs, none of which is a quote
          split at started
          · cases started
            simp [different, Mode.openQuotes]
        cases started

theorem openQuotes_step {mode reached : Mode} {c : Char} {tokens : List Token}
    (stepped : step mode c = some (tokens, reached)) :
    (mode.openQuotes + if c = '"' then 1 else 0) % 2 = reached.openQuotes % 2 := by
  have after : ∀ token, startAfter token c = some (tokens, reached) →
      (if c = '"' then 1 else 0) = reached.openQuotes := by
    intro token started
    obtain ⟨⟨first, middle⟩, plain, same⟩ := Option.map_eq_some_iff.mp started
    cases same
    exact openQuotes_start plain
  cases mode with
  | between =>
    rw [← openQuotes_start stepped]
    exact congrArg (· % 2) (Nat.zero_add _)
  | word text =>
    simp only [step] at stepped
    split at stepped
    case isTrue word =>
      cases stepped
      have different : c ≠ '"' := by rintro rfl; cases word
      simp [different, Mode.openQuotes]
    case isFalse =>
      rw [← after _ stepped]
      exact congrArg (· % 2) (Nat.zero_add _)
  | string text =>
    simp only [step] at stepped
    split at stepped <;> cases stepped <;> simp_all [Mode.openQuotes]
  | quote text =>
    simp only [step] at stepped
    split at stepped
    case isTrue isQuote =>
      cases stepped
      simp [isQuote, Mode.openQuotes]
    case isFalse =>
      rw [← after _ stepped]
      exact congrArg (· % 2) (Nat.zero_add _)

theorem even_quotes {mode : Mode} {text : List Char} {tokens : List Token} (cut : lexFrom mode text = some tokens) :
    (mode.openQuotes + text.count '"') % 2 = 0 := by
  induction text generalizing mode tokens with
  | nil =>
    cases mode with
    | string text => cases cut
    | between | word text | quote text => rfl
  | cons c text inductionHypothesis =>
    rw [lexFrom_cons] at cut
    obtain ⟨⟨first, reached⟩, stepped, rest⟩ := Option.bind_eq_some_iff.mp cut
    obtain ⟨later, cutLater, -⟩ := Option.map_eq_some_iff.mp rest
    have here := openQuotes_step stepped
    have there := inductionHypothesis cutLater
    rw [List.count_cons]
    simp only [beq_iff_eq]
    omega

/-- A text with a double quote too many is no expression. -/
theorem WellFormed.even_quotes {text : List Char} (wellFormed : WellFormed text) : text.count '"' % 2 = 0 := by
  obtain ⟨tokens, cut, -⟩ := wellFormed
  have even := FullText.even_quotes cut
  simpa [Mode.openQuotes] using even

end Aelf.Library.FullText
