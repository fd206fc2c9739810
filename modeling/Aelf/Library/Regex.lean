import Mathlib.Logic.Function.Basic

/-! # Backtracking regular expressions

The matcher of ECMAScript: a pattern is matched with a continuation that stands for
the rest of the pattern, alternatives are tried in order, and the first way that lets
the continuation succeed wins.  A repetition stops at an iteration that consumes
nothing.  A group records the text it has covered; no group is repeated here. -/

namespace Aelf.Library

inductive Regex where
  | empty
  | satisfies (accepts : Char → Bool)
  | seq (first second : Regex)
  | alt (first second : Regex)
  | star (body : Regex)
  | lazyStar (body : Regex)
  | group (index : Nat) (body : Regex)
  | startOfInput
  | endOfInput
  | wordBoundary

namespace Regex

/-! ## Matching -/

/-- A position in the input, with the text before it in reverse, and the groups so far. -/
structure State where
  before : List Char
  after : List Char
  captures : Nat → Option (List Char)

variable {β : Type}

/-- `\w` -/
def isWordChar (c : Char) : Bool := c.isAlphanum || c = '_'

def atWordBoundary (state : State) : Bool :=
  (state.before.head?.any isWordChar) != (state.after.head?.any isWordChar)

/-- Records what a group that started at `opened` has covered. -/
def State.close (state opened : State) (index : Nat) : State :=
  { state with
    captures := Function.update state.captures index
      (some (opened.after.take (opened.after.length - state.after.length))) }

/-- A repetition: each iteration must consume something, so one more than the length of the input is enough fuel. -/
def iterate (greedy : Bool) (body : (State → Option β) → State → Option β) (next : State → Option β) :
    Nat → State → Option β
  | 0, state => next state
  | fuel + 1, state =>
    let again := fun later : State =>
      if later.after.length < state.after.length then iterate greedy body next fuel later else none
    if greedy then (body again state).or (next state) else (next state).or (body again state)

def run : Regex → (State → Option β) → State → Option β
  | empty, next, state => next state
  | satisfies accepts, next, state =>
    match state.after with
    | [] => none
    | c :: rest => if accepts c then next { state with before := c :: state.before, after := rest } else none
  | seq first second, next, state => first.run (second.run next) state
  | alt first second, next, state => (first.run next state).or (second.run next state)
  | star body, next, state => iterate true body.run next (state.after.length + 1) state
  | lazyStar body, next, state => iterate false body.run next (state.after.length + 1) state
  | group index body, next, state => body.run (fun later => next (later.close state index)) state
  | startOfInput, next, state => if state.before.isEmpty then next state else none
  | endOfInput, next, state => if state.after.isEmpty then next state else none
  | wordBoundary, next, state => if atWordBoundary state then next state else none

/-- `r?` -/
def opt (body : Regex) : Regex := alt body empty

/-- `r+` -/
def plus (body : Regex) : Regex := seq body (star body)

def character (wanted : Char) : Regex := satisfies (· = wanted)

/-- A sequence of patterns. -/
def sequence : List Regex → Regex
  | [] => empty
  | pattern :: patterns => seq pattern (sequence patterns)

/-- The first match, trying one starting position after the other. -/
def search (pattern : Regex) (before : List Char) : List Char → Option State
  | [] => pattern.run some ⟨before, [], fun _ => none⟩
  | c :: rest =>
    (pattern.run some ⟨before, c :: rest, fun _ => none⟩).or (pattern.search (c :: before) rest)

/-- `text.match(pattern)`: the groups of the first match. -/
def firstMatch (pattern : Regex) (text : List Char) : Option (Nat → Option (List Char)) :=
  (pattern.search [] text).map State.captures

/-- `text.replace(pattern, "")` with the global flag: every match is removed, from left to right, and an
empty match removes nothing. -/
def removeAll (pattern : Regex) (text : List Char) : List Char := go text.length [] text
where
  go : Nat → List Char → List Char → List Char
    | 0, _, after => after
    | _ + 1, _, [] => []
    | fuel + 1, before, c :: rest =>
      match pattern.run some ⟨before, c :: rest, fun _ => none⟩ with
      | none => c :: go fuel (c :: before) rest
      | some state =>
        if state.after.length ≤ rest.length then go fuel state.before state.after
        else c :: go fuel (c :: before) rest

/-! ## Equations -/

section Equations

variable (next : State → Option β) (before rest : List Char) (captures : Nat → Option (List Char))

theorem run_satisfies_nil (accepts : Char → Bool) :
    (satisfies accepts).run next ⟨before, [], captures⟩ = none := rfl

theorem run_satisfies_cons (accepts : Char → Bool) (c : Char) :
    (satisfies accepts).run next ⟨before, c :: rest, captures⟩ =
      if accepts c then next ⟨c :: before, rest, captures⟩ else none := rfl

theorem run_character_self (wanted : Char) :
    (character wanted).run next ⟨before, wanted :: rest, captures⟩ = next ⟨wanted :: before, rest, captures⟩ := by
  rw [character, run_satisfies_cons, if_pos (by simp)]

theorem run_character_nil (wanted : Char) : (character wanted).run next ⟨before, [], captures⟩ = none := rfl

theorem run_character_of_ne {c wanted : Char} (other : c ≠ wanted) :
    (character wanted).run next ⟨before, c :: rest, captures⟩ = none := by
  rw [character, run_satisfies_cons, if_neg (by simpa using other)]

theorem run_seq (first second : Regex) (state : State) :
    (seq first second).run next state = first.run (second.run next) state := rfl

theorem run_sequence_nil (state : State) : (sequence []).run next state = next state := rfl

theorem run_sequence_cons (pattern : Regex) (patterns : List Regex) (state : State) :
    (sequence (pattern :: patterns)).run next state = pattern.run ((sequence patterns).run next) state := rfl

theorem run_opt (body : Regex) (state : State) :
    (opt body).run next state = (body.run next state).or (next state) := rfl

theorem run_plus (body : Regex) (state : State) :
    (plus body).run next state = body.run ((star body).run next) state := rfl

theorem run_alt (first second : Regex) (state : State) :
    (alt first second).run next state = (first.run next state).or (second.run next state) := rfl

theorem run_group (index : Nat) (body : Regex) (state : State) :
    (group index body).run next state = body.run (fun later => next (later.close state index)) state := rfl

theorem run_startOfInput : startOfInput.run next ⟨[], rest, captures⟩ = next ⟨[], rest, captures⟩ := rfl

theorem run_endOfInput_nil : endOfInput.run next ⟨before, [], captures⟩ = next ⟨before, [], captures⟩ := rfl

theorem run_endOfInput_cons (c : Char) : endOfInput.run next ⟨before, c :: rest, captures⟩ = none := rfl

/-- A group covers the text between its two ends. -/
theorem State.close_eq (covered : List Char) {opened : State} (covers : opened.after = covered ++ rest)
    (index : Nat) :
    (State.mk before rest captures).close opened index =
      ⟨before, rest, Function.update captures index (some covered)⟩ := by
  simp [State.close, covers]

end Equations

/-- More fuel than there is input changes nothing. -/
theorem iterate_fuel (greedy : Bool) (body : (State → Option β) → State → Option β) (next : State → Option β)
    {firstFuel secondFuel : Nat} {state : State} (firstEnough : state.after.length < firstFuel)
    (secondEnough : state.after.length < secondFuel) :
    iterate greedy body next firstFuel state = iterate greedy body next secondFuel state := by
  induction firstFuel generalizing secondFuel state with
  | zero => omega
  | succ firstFuel inductionHypothesis =>
    cases secondFuel with
    | zero => omega
    | succ secondFuel =>
      have same : (fun later : State =>
            if later.after.length < state.after.length then iterate greedy body next firstFuel later else none) =
          fun later : State =>
            if later.after.length < state.after.length then iterate greedy body next secondFuel later else none := by
        funext later
        split
        next shorter => exact inductionHypothesis (by omega) (by omega)
        next => rfl
      simp only [iterate, same]

/-- What follows one more iteration: nothing, unless it has consumed something. -/
def afterProgress (state : State) (next : State → Option β) (later : State) : Option β :=
  if later.after.length < state.after.length then next later else none

theorem iterate_again (greedy : Bool) (body : Regex) (next : State → Option β) (state : State) :
    (fun later : State => if later.after.length < state.after.length
        then iterate greedy body.run next state.after.length later else none) =
      afterProgress state fun later => iterate greedy body.run next (later.after.length + 1) later := by
  funext later
  unfold afterProgress
  split
  next shorter => exact iterate_fuel greedy body.run next shorter (by omega)
  next => rfl

theorem run_star (body : Regex) (next : State → Option β) (state : State) :
    (star body).run next state =
      (body.run (afterProgress state ((star body).run next)) state).or (next state) := by
  change iterate true body.run next (state.after.length + 1) state = _
  rw [iterate, iterate_again]
  rfl

theorem run_lazyStar (body : Regex) (next : State → Option β) (state : State) :
    (lazyStar body).run next state =
      (next state).or (body.run (afterProgress state ((lazyStar body).run next)) state) := by
  change iterate false body.run next (state.after.length + 1) state = _
  rw [iterate, iterate_again]
  rfl

/-! ## The first success -/

/-- The outcome is a success, and the property holds of it. -/
def Yields (outcome : Option β) (holds : β → Prop) : Prop := ∃ result, outcome = some result ∧ holds result

theorem yields_some {result : β} {holds : β → Prop} : Yields (some result) holds ↔ holds result := by
  simp [Yields]

theorem Yields.or_left {first : Option β} {holds : β → Prop} (yields : Yields first holds) (second : Option β) :
    Yields (first.or second) holds := by
  obtain ⟨result, rfl, property⟩ := yields
  exact ⟨result, rfl, property⟩

theorem Yields.or_right {first second : Option β} {holds : β → Prop} (yields : Yields second holds)
    (fails : first = none) : Yields (first.or second) holds := by
  rw [fails, Option.none_or]
  exact yields

/-- A match at the start of the text is the first one. -/
theorem yields_firstMatch {pattern : Regex} {text : List Char} {holds : (Nat → Option (List Char)) → Prop}
    (yields : Yields (pattern.run some ⟨[], text, fun _ => none⟩) fun final => holds final.captures) :
    Yields (pattern.firstMatch text) holds := by
  have found : Yields (pattern.search [] text) fun final => holds final.captures := by
    cases text with
    | nil => exact yields
    | cons c rest => exact yields.or_left _
  obtain ⟨final, searched, property⟩ := found
  exact ⟨final.captures, by rw [firstMatch, searched, Option.map_some], property⟩

/-! ## No match -/

/-- A pattern that only matches at the start of the input is tried only there. -/
theorem firstMatch_anchored {pattern : Regex}
    (anchored : ∀ state : State, state.before ≠ [] → pattern.run (some : State → Option State) state = none)
    (text : List Char) :
    pattern.firstMatch text = (pattern.run some ⟨[], text, fun _ => none⟩).map State.captures := by
  have later : ∀ (text before : List Char), before ≠ [] → pattern.search before text = none := by
    intro text
    induction text with
    | nil => exact fun before nonempty => anchored _ nonempty
    | cons c rest inductionHypothesis =>
      intro before nonempty
      rw [search, anchored _ nonempty, Option.none_or]
      exact inductionHypothesis (c :: before) (by simp)
  cases text with
  | nil => rfl
  | cons c rest => rw [firstMatch, search, later rest [c] (by simp), Option.or_none]

/-- What holds of the rest of the input still holds after each character that a class of the pattern takes. -/
def Keeps (holds : List Char → Prop) : Regex → Prop
  | satisfies accepts => ∀ c rest, holds (c :: rest) → accepts c = true → holds rest
  | seq first second | alt first second => first.Keeps holds ∧ second.Keeps holds
  | star body | lazyStar body | group _ body => body.Keeps holds
  | _ => True

/-- The continuation fails wherever this holds of the rest of the input. -/
def FailsOn (holds : List Char → Prop) (next : State → Option β) : Prop :=
  ∀ state, holds state.after → next state = none

theorem iterate_of_failsOn {holds : List Char → Prop} {body : (State → Option β) → State → Option β}
    (bodyFails : ∀ next, FailsOn holds next → FailsOn holds (body next)) {next : State → Option β}
    (fails : FailsOn holds next) (greedy : Bool) (fuel : Nat) : FailsOn holds (iterate greedy body next fuel) := by
  induction fuel with
  | zero => exact fails
  | succ fuel inductionHypothesis =>
    intro state ahead
    have againFails : FailsOn holds fun later : State =>
        if later.after.length < state.after.length then iterate greedy body next fuel later else none := by
      intro later laterAhead
      simp only [inductionHypothesis later laterAhead, ite_self]
    simp only [iterate, bodyFails _ againFails state ahead, fails state ahead, Option.or_none, ite_self]

/-- A pattern does not get out of what it keeps, so it fails there with its continuation. -/
theorem run_of_keeps {holds : List Char → Prop} {pattern : Regex} (keeps : pattern.Keeps holds)
    (next : State → Option β) (fails : FailsOn holds next) : FailsOn holds (pattern.run next) := by
  induction pattern generalizing next with
  | satisfies accepts =>
    rintro ⟨before, after, captures⟩ ahead
    cases after with
    | nil => rfl
    | cons c rest =>
      rw [run_satisfies_cons]
      split
      next accepted => exact fails _ (keeps c rest ahead accepted)
      next => rfl
  | seq first second firstHypothesis secondHypothesis =>
    exact firstHypothesis keeps.1 _ (secondHypothesis keeps.2 next fails)
  | alt first second firstHypothesis secondHypothesis =>
    intro state ahead
    rw [run_alt, firstHypothesis keeps.1 next fails state ahead, secondHypothesis keeps.2 next fails state ahead,
      Option.none_or]
  | star body bodyHypothesis =>
    exact fun state => iterate_of_failsOn (bodyHypothesis keeps) fails true _ state
  | lazyStar body bodyHypothesis =>
    exact fun state => iterate_of_failsOn (bodyHypothesis keeps) fails false _ state
  | group index body bodyHypothesis =>
    exact fun state => bodyHypothesis keeps (fun later => next (later.close state index))
      (fun later laterAhead => fails _ laterAhead) state
  | empty => exact fails
  | startOfInput | endOfInput | wordBoundary =>
    intro state ahead
    rw [run, fails state ahead, ite_self]

/-- A class does not get past a character that it refuses. -/
theorem keeps_mem {accepts : Char → Bool} {bad : Char} (refused : accepts bad = false) :
    (satisfies accepts).Keeps (bad ∈ ·) := by
  intro c rest ahead accepted
  obtain rfl | inRest := List.mem_cons.mp ahead
  · rw [refused] at accepted
    cases accepted
  · exact inRest

theorem endOfInput_failsOn {holds : List Char → Prop} (nonempty : ¬holds []) (next : State → Option β) :
    FailsOn holds (endOfInput.run next) := by
  rintro ⟨before, after, captures⟩ ahead
  cases after with
  | nil => exact absurd ahead nonempty
  | cons c rest => rfl

/-! ## Repeating a character class -/

section Classes

variable {accepts : Char → Bool} {next : State → Option β} {before rest : List Char}
  {captures : Nat → Option (List Char)} {c : Char}

/-- The text does not go on with a character of the class. -/
def Stops (accepts : Char → Bool) (rest : List Char) : Prop := ∀ c, rest.head? = some c → accepts c = false

@[simp] theorem stops_nil : Stops accepts [] := by
  intro c head
  cases head

@[simp] theorem stops_cons : Stops accepts (c :: rest) ↔ accepts c = false := by
  simp [Stops]

theorem Stops.mono {narrower : Char → Bool} (stops : Stops accepts rest)
    (narrows : ∀ c, narrower c = true → accepts c = true) : Stops narrower rest := by
  intro c head
  by_contra accepted
  have refused := stops c head
  rw [narrows c (by simpa using accepted)] at refused
  cases refused

theorem run_star_of_accepts (accepted : accepts c = true) :
    (star (satisfies accepts)).run next ⟨before, c :: rest, captures⟩ =
      ((star (satisfies accepts)).run next ⟨c :: before, rest, captures⟩).or
        (next ⟨before, c :: rest, captures⟩) := by
  rw [run_star, run_satisfies_cons, if_pos accepted]
  simp [afterProgress]

theorem run_star_of_stops (stops : Stops accepts rest) :
    (star (satisfies accepts)).run next ⟨before, rest, captures⟩ = next ⟨before, rest, captures⟩ := by
  rw [run_star]
  cases rest with
  | nil => rfl
  | cons c rest => rw [run_satisfies_cons, if_neg (by simpa using stops), Option.none_or]

/-- The longest run comes first. -/
theorem yields_star_longest {text : List Char} {holds : β → Prop} (accepted : ∀ c ∈ text, accepts c = true)
    (stops : Stops accepts rest) (succeeds : Yields (next ⟨text.reverse ++ before, rest, captures⟩) holds) :
    Yields ((star (satisfies accepts)).run next ⟨before, text ++ rest, captures⟩) holds := by
  induction text generalizing before with
  | nil =>
    rw [List.nil_append, run_star_of_stops stops]
    exact succeeds
  | cons c text inductionHypothesis =>
    have tail : Yields ((star (satisfies accepts)).run next ⟨c :: before, text ++ rest, captures⟩) holds :=
      inductionHypothesis (fun later member => accepted later (by simp [member])) (by simpa using succeeds)
    rw [List.cons_append, run_star_of_accepts (accepted c (by simp))]
    exact tail.or_left _

/-- A run fails when the rest of the pattern fails wherever it may end. -/
theorem run_star_eq_none {text : List Char} (stops : Stops accepts rest)
    (fails : ∀ taken left, text = taken ++ left → next ⟨taken.reverse ++ before, left ++ rest, captures⟩ = none) :
    (star (satisfies accepts)).run next ⟨before, text ++ rest, captures⟩ = none := by
  induction text generalizing before with
  | nil => exact (run_star_of_stops stops).trans (fails [] [] rfl)
  | cons c text inductionHypothesis =>
    have here := fails [] (c :: text) rfl
    by_cases accepted : accepts c = true
    · have tail : (star (satisfies accepts)).run next ⟨c :: before, text ++ rest, captures⟩ = none :=
        inductionHypothesis fun taken left split => by
          simpa using fails (c :: taken) left (by simp [split])
      rw [List.cons_append, run_star_of_accepts accepted, tail, Option.none_or]
      exact here
    · rw [List.cons_append, run_star_of_stops (by simpa using accepted)]
      exact here

/-- When the rest of the pattern needs it, the run gives its last characters back. -/
theorem yields_star_backtrack {taken left : List Char} {holds : β → Prop}
    (accepted : ∀ c ∈ taken ++ left, accepts c = true) (stops : Stops accepts rest)
    (fails : ∀ more after, left = more ++ after → more ≠ [] →
      next ⟨more.reverse ++ (taken.reverse ++ before), after ++ rest, captures⟩ = none)
    (succeeds : Yields (next ⟨taken.reverse ++ before, left ++ rest, captures⟩) holds) :
    Yields ((star (satisfies accepts)).run next ⟨before, taken ++ (left ++ rest), captures⟩) holds := by
  induction taken generalizing before with
  | nil =>
    cases left with
    | nil =>
      rw [List.nil_append, List.nil_append, run_star_of_stops stops]
      exact succeeds
    | cons c left =>
      have longer : (star (satisfies accepts)).run next ⟨c :: before, left ++ rest, captures⟩ = none :=
        run_star_eq_none stops fun more after split => by simpa using fails (c :: more) after (by simp [split]) (by simp)
      rw [List.nil_append, List.cons_append, run_star_of_accepts (accepted c (by simp)), longer, Option.none_or]
      exact succeeds
  | cons c taken inductionHypothesis =>
    have tail : Yields ((star (satisfies accepts)).run next ⟨c :: before, taken ++ (left ++ rest), captures⟩) holds :=
      inductionHypothesis (fun later member => accepted later (List.mem_cons_of_mem c member))
        (fun more after split nonempty => by simpa using fails more after split nonempty) (by simpa using succeeds)
    rw [List.cons_append, run_star_of_accepts (accepted c (by simp))]
    exact tail.or_left _

/-- The run gives one character back. -/
theorem yields_star_giveBack {text : List Char} {last : Char} {holds : β → Prop}
    (accepted : ∀ c ∈ text, accepts c = true) (acceptedLast : accepts last = true) (stops : Stops accepts rest)
    (fails : next ⟨last :: text.reverse ++ before, rest, captures⟩ = none)
    (succeeds : Yields (next ⟨text.reverse ++ before, last :: rest, captures⟩) holds) :
    Yields ((star (satisfies accepts)).run next ⟨before, text ++ last :: rest, captures⟩) holds := by
  have all : ∀ c ∈ text ++ [last], accepts c = true := by
    rw [List.forall_mem_append]
    exact ⟨accepted, by simpa using acceptedLast⟩
  refine yields_star_backtrack all stops (fun more after split nonempty => ?_) succeeds
  obtain ⟨rfl, rfl⟩ : more = [last] ∧ after = [] := by
    cases more with
    | nil => exact absurd rfl nonempty
    | cons first others => simpa [eq_comm, and_assoc] using split
  exact fails

/-- A lazy run goes on as long as the rest of the pattern fails. -/
theorem yields_lazyStar {text : List Char} {holds : β → Prop} (accepted : ∀ c ∈ text, accepts c = true)
    (fails : ∀ taken c left, text = taken ++ c :: left →
      next ⟨taken.reverse ++ before, c :: left ++ rest, captures⟩ = none)
    (succeeds : Yields (next ⟨text.reverse ++ before, rest, captures⟩) holds) :
    Yields ((lazyStar (satisfies accepts)).run next ⟨before, text ++ rest, captures⟩) holds := by
  induction text generalizing before with
  | nil =>
    rw [run_lazyStar]
    exact succeeds.or_left _
  | cons c text inductionHypothesis =>
    have tail : Yields ((lazyStar (satisfies accepts)).run next ⟨c :: before, text ++ rest, captures⟩) holds :=
      inductionHypothesis (fun later member => accepted later (by simp [member]))
        (fun taken later left split => by simpa using fails (c :: taken) later left (by simp [split]))
        (by simpa using succeeds)
    rw [run_lazyStar, List.cons_append, run_satisfies_cons, if_pos (accepted c (by simp))]
    -- the continuation is tried first, and fails here
    refine Yields.or_right ?_ (fails [] c text rfl)
    simpa [afterProgress] using tail

theorem stops_dropWhile (accepts : Char → Bool) (text : List Char) : Stops accepts (text.dropWhile accepts) := by
  intro c head
  cases remaining : text.dropWhile accepts with
  | nil => simp [remaining] at head
  | cons next others =>
    rw [remaining] at head
    obtain rfl := Option.some.inj head
    have nonempty : text.dropWhile accepts ≠ [] := by simp [remaining]
    have stopped := List.head_dropWhile_not accepts nonempty
    simpa [remaining] using stopped

theorem exists_longestRun (accepts : Char → Bool) (text : List Char) :
    ∃ run left, text = run ++ left ∧ (∀ c ∈ run, accepts c = true) ∧ Stops accepts left :=
  ⟨text.takeWhile accepts, text.dropWhile accepts, List.takeWhile_append_dropWhile.symm,
    List.all_eq_true.mp List.all_takeWhile, stops_dropWhile accepts text⟩

/-- With nothing after it, a repetition takes the longest run. -/
theorem run_star_some (accepts : Char → Bool) (before text : List Char) (captures : Nat → Option (List Char)) :
    (star (satisfies accepts)).run some ⟨before, text, captures⟩ =
      some ⟨(text.takeWhile accepts).reverse ++ before, text.dropWhile accepts, captures⟩ := by
  obtain ⟨final, found, rfl⟩ : Yields ((star (satisfies accepts)).run some
      ⟨before, text.takeWhile accepts ++ text.dropWhile accepts, captures⟩)
      (· = ⟨(text.takeWhile accepts).reverse ++ before, text.dropWhile accepts, captures⟩) :=
    yields_star_longest (List.all_eq_true.mp List.all_takeWhile) (stops_dropWhile accepts text) (yields_some.mpr rfl)
  rw [List.takeWhile_append_dropWhile] at found
  exact found

/-- Removing the runs of a class removes its characters. -/
theorem removeAll_star (accepts : Char → Bool) (text : List Char) :
    removeAll (star (satisfies accepts)) text = text.filter fun c => !accepts c := by
  suffices general : ∀ fuel before text, text.length ≤ fuel →
      removeAll.go (star (satisfies accepts)) fuel before text = text.filter fun c => !accepts c from
    general _ _ _ (Nat.le_refl _)
  intro fuel
  induction fuel with
  | zero =>
    intro before text short
    obtain rfl := List.length_eq_zero_iff.mp (Nat.le_zero.mp short)
    rfl
  | succ fuel inductionHypothesis =>
    intro before text short
    cases text with
    | nil => rfl
    | cons c rest =>
      rw [List.length_cons] at short
      unfold removeAll.go
      rw [run_star_some]
      by_cases accepted : accepts c = true
      -- the match takes the longest run, which starts with this character
      · rw [List.takeWhile_cons_of_pos accepted, List.dropWhile_cons_of_pos accepted]
        have shorter : (rest.dropWhile accepts).length ≤ rest.length := (List.dropWhile_suffix accepts).length_le
        have dropped : (rest.takeWhile accepts).filter (fun c => !accepts c) = [] := by
          rw [List.filter_eq_nil_iff]
          intro other member
          simp [List.all_eq_true.mp List.all_takeWhile other member]
        simp only [if_pos shorter, inductionHypothesis _ (rest.dropWhile accepts) (by omega)]
        have split : rest = rest.takeWhile accepts ++ rest.dropWhile accepts := List.takeWhile_append_dropWhile.symm
        have filtered := congrArg (List.filter fun c => !accepts c) split
        rw [List.filter_append, dropped, List.nil_append] at filtered
        rw [List.filter_cons_of_neg (by simp [accepted]), filtered]
      -- the match is empty, so the character stays and the search moves on
      · rw [List.takeWhile_cons_of_neg accepted, List.dropWhile_cons_of_neg accepted]
        have whole : ¬(c :: rest).length ≤ rest.length := by simp
        simp only [if_neg whole, inductionHypothesis _ rest (by omega)]
        rw [List.filter_cons_of_pos (by simpa using accepted)]

end Classes

/-! ## Removing what starts with a given character -/

section Removing

variable {pattern : Regex} {first : Char}

/-- The pattern can only match at this character. -/
def StartsWith (pattern : Regex) (first : Char) : Prop :=
  ∀ before c rest captures, c ≠ first → pattern.run (some : State → Option State) ⟨before, c :: rest, captures⟩ = none

theorem removeAll_go_absent (startsWith : StartsWith pattern first) {text : List Char} (absent : first ∉ text)
    (fuel : Nat) (before : List Char) : removeAll.go pattern fuel before text = text := by
  induction text generalizing fuel before with
  | nil => cases fuel <;> rfl
  | cons c rest inductionHypothesis =>
    cases fuel with
    | zero => rfl
    | succ fuel =>
      have here := startsWith before c rest (fun _ => none) fun same => absent (by simp [same])
      simp only [removeAll.go, here, inductionHypothesis fun member => absent (by simp [member])]

theorem removeAll_absent (startsWith : StartsWith pattern first) {text : List Char} (absent : first ∉ text) :
    removeAll pattern text = text := removeAll_go_absent startsWith absent _ _

/-- The only match is removed. -/
theorem removeAll_once (startsWith : StartsWith pattern first) {text matched rest : List Char}
    (absent : first ∉ text) (absentRest : first ∉ rest)
    (isMatch : ∀ before, ∃ final : State,
      pattern.run some ⟨before, first :: (matched ++ rest), fun _ => none⟩ = some final ∧ final.after = rest) :
    removeAll pattern (text ++ first :: (matched ++ rest)) = text ++ rest := by
  suffices general : ∀ fuel before, text.length < fuel →
      removeAll.go pattern fuel before (text ++ first :: (matched ++ rest)) = text ++ rest from
    general _ _ (by simp)
  induction text with
  | nil =>
    intro fuel before enough
    cases fuel with
    | zero => omega
    | succ fuel =>
      obtain ⟨final, found, remaining⟩ := isMatch before
      have shorter : final.after.length ≤ (matched ++ rest).length := by simp [remaining]
      rw [List.nil_append, removeAll.go, found]
      simp only [if_pos shorter]
      rw [remaining, removeAll_go_absent startsWith absentRest, List.nil_append]
  | cons c text inductionHypothesis =>
    intro fuel before enough
    cases fuel with
    | zero => omega
    | succ fuel =>
      have here := startsWith before c (text ++ first :: (matched ++ rest)) (fun _ => none)
        fun same => absent (by simp [same])
      have later := inductionHypothesis (fun member => absent (by simp [member])) fuel (c :: before)
        (by simpa using enough)
      simp only [List.cons_append, removeAll.go, here, later]

end Removing

end Regex

end Aelf.Library
