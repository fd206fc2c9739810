import Aelf.Library.RegexPaths

/-! # The characters of a match

A pattern takes only characters of its classes, and its groups and what `removeAll` leaves
have only characters of the text. -/

namespace Aelf.Library.Regex

variable {β : Type}

/-! ## What a pattern takes -/

/-- Some class of the pattern has the character. -/
def mayTake : Regex → Char → Bool
  | satisfies accepts, c => accepts c
  | seq first second, c | alt first second, c => first.mayTake c || second.mayTake c
  | star body, c | lazyStar body, c | group _ body, c => body.mayTake c
  | empty, _ | startOfInput, _ | endOfInput, _ | wordBoundary, _ => false

/-- The later position is further in the same text, behind characters that the pattern has. -/
def FollowsAlong (pattern : Regex) (start finish : Position) : Prop :=
  ∃ taken, start.2 = taken ++ finish.2 ∧ ∀ c ∈ taken, pattern.mayTake c = true

theorem FollowsAlong.trans {pattern : Regex} {first second third : Position} (earlier : FollowsAlong pattern first second)
    (later : FollowsAlong pattern second third) : FollowsAlong pattern first third := by
  obtain ⟨taken, ahead, all⟩ := earlier
  obtain ⟨more, aheadLater, allLater⟩ := later
  refine ⟨taken ++ more, by rw [ahead, aheadLater, List.append_assoc], ?_⟩
  intro c member
  exact (List.mem_append.mp member).elim (all c) (allLater c)

theorem FollowsAlong.mono {pattern other : Regex} (wider : ∀ c, pattern.mayTake c = true → other.mayTake c = true)
    {start finish : Position} (follows : FollowsAlong pattern start finish) : FollowsAlong other start finish := by
  obtain ⟨taken, ahead, all⟩ := follows
  exact ⟨taken, ahead, fun c member => wider c (all c member)⟩

theorem Takes.followsAlong {pattern : Regex} {start finish : Position} (takes : pattern.Takes start finish) :
    FollowsAlong pattern start finish := by
  induction pattern generalizing start finish with
  | satisfies accepts =>
    obtain ⟨c, rest, ahead, accepted, rfl⟩ := takes
    exact ⟨[c], ahead, by simpa [mayTake] using accepted⟩
  | seq first second firstHypothesis secondHypothesis =>
    obtain ⟨middle, earlier, later⟩ := takes
    refine ((firstHypothesis earlier).mono ?_).trans ((secondHypothesis later).mono ?_)
    · intro c taken
      simp [mayTake, taken]
    · intro c taken
      simp [mayTake, taken]
  | alt first second firstHypothesis secondHypothesis =>
    obtain taken | taken := takes
    · exact (firstHypothesis taken).mono fun c taken => by simp [mayTake, taken]
    · exact (secondHypothesis taken).mono fun c taken => by simp [mayTake, taken]
  | star body bodyHypothesis | lazyStar body bodyHypothesis =>
    induction takes with
    | refl => exact ⟨[], rfl, by simp⟩
    | tail _ step reached => exact reached.trans (bodyHypothesis step.1)
  | group index body bodyHypothesis => exact bodyHypothesis takes
  | empty =>
    obtain rfl := takes
    exact ⟨[], rfl, by simp⟩
  | startOfInput | endOfInput | wordBoundary =>
    obtain ⟨_, rfl⟩ := takes
    exact ⟨[], rfl, by simp⟩

/-! ## Invariants of a match -/

/-- The groups of the pattern. -/
def indices : Regex → List Nat
  | seq first second | alt first second => first.indices ++ second.indices
  | star body | lazyStar body => body.indices
  | group index body => index :: body.indices
  | satisfies _ | empty | startOfInput | endOfInput | wordBoundary => []

section Invariant

/-- What holds of a state still holds a character further. -/
def Advances (invariant : State → Prop) : Prop :=
  ∀ before c rest captures, invariant ⟨before, c :: rest, captures⟩ → invariant ⟨c :: before, rest, captures⟩

/-- What holds of two states still holds once the group between them is closed. -/
def Closes (invariant : State → Prop) (index : Nat) : Prop :=
  ∀ state opened : State, invariant state → invariant opened → invariant (state.close opened index)

variable {invariant : State → Prop}

theorem exists_invariant_of_repeat {body : Regex} {next run : State → Option β}
    (bodyKeeps : ∀ (next : State → Option β) state result, invariant state → body.run next state = some result →
      ∃ later, invariant later ∧ next later = some result)
    (unfolds : ∀ state result, run state = some result →
      body.run (afterProgress state run) state = some result ∨ next state = some result)
    {state : State} {result : β} (holds : invariant state) (found : run state = some result) :
    ∃ later, invariant later ∧ next later = some result := by
  induction size : state.after.length using Nat.strongRecOn generalizing state with
  | _ size inductionHypothesis =>
    obtain again | stops := unfolds state result found
    · obtain ⟨middle, middleHolds, goesOn⟩ := bodyKeeps _ state result holds again
      rw [afterProgress] at goesOn
      split at goesOn
      next shorter => exact inductionHypothesis _ (by omega) middleHolds goesOn rfl
      next => cases goesOn
    · exact ⟨state, holds, stops⟩

/-- The state that the continuation succeeds in has what every step of the match keeps. -/
theorem exists_invariant_of_run (advances : Advances invariant) {pattern : Regex}
    (closes : ∀ index ∈ pattern.indices, Closes invariant index) {next : State → Option β} {state : State} {result : β}
    (holds : invariant state) (found : pattern.run next state = some result) :
    ∃ later, invariant later ∧ next later = some result := by
  induction pattern generalizing next state result with
  | satisfies accepts =>
    obtain ⟨before, after, captures⟩ := state
    cases after with
    | nil => cases found
    | cons c rest =>
      rw [run_satisfies_cons] at found
      split at found
      next => exact ⟨_, advances before c rest captures holds, found⟩
      next => cases found
  | seq first second firstHypothesis secondHypothesis =>
    obtain ⟨middle, middleHolds, goesOn⟩ :=
      firstHypothesis (fun index member => closes index (List.mem_append_left _ member)) holds found
    exact secondHypothesis (fun index member => closes index (List.mem_append_right _ member)) middleHolds goesOn
  | alt first second firstHypothesis secondHypothesis =>
    rw [run_alt, Option.or_eq_some_iff] at found
    obtain found | ⟨_, found⟩ := found
    · exact firstHypothesis (fun index member => closes index (List.mem_append_left _ member)) holds found
    · exact secondHypothesis (fun index member => closes index (List.mem_append_right _ member)) holds found
  | star body bodyHypothesis =>
    refine exists_invariant_of_repeat (fun _ _ _ => bodyHypothesis closes) ?_ holds found
    intro state result found
    rw [run_star, Option.or_eq_some_iff] at found
    exact found.imp_right And.right
  | lazyStar body bodyHypothesis =>
    refine exists_invariant_of_repeat (fun _ _ _ => bodyHypothesis closes) ?_ holds found
    intro state result found
    rw [run_lazyStar, Option.or_eq_some_iff] at found
    exact (found.imp_right And.right).symm
  | group index body bodyHypothesis =>
    obtain ⟨later, laterHolds, succeeds⟩ :=
      bodyHypothesis (fun index member => closes index (List.mem_cons_of_mem _ member)) holds found
    exact ⟨later.close state index, closes index List.mem_cons_self later state laterHolds holds, succeeds⟩
  | empty => exact ⟨state, holds, found⟩
  | startOfInput | endOfInput | wordBoundary =>
    rw [run] at found
    split at found
    next => exact ⟨state, holds, found⟩
    next => cases found

end Invariant

/-- A pattern without groups only moves on in the text. -/
theorem exists_follows_of_run {pattern : Regex} (noGroups : pattern.indices = []) {next : State → Option β}
    {state : State} {result : β} (found : pattern.run next state = some result) :
    ∃ later : State, Follows state.position later.position ∧ later.captures = state.captures ∧
      next later = some result := by
  have advances : Advances fun later => Follows state.position later.position ∧ later.captures = state.captures := by
    intro before c rest captures holds
    exact ⟨holds.1.trans ⟨[c], rfl, rfl⟩, holds.2⟩
  obtain ⟨later, ⟨follows, same⟩, succeeds⟩ :=
    exists_invariant_of_run advances (by simp [noGroups]) ⟨.refl _, rfl⟩ found
  exact ⟨later, follows, same, succeeds⟩

/-! ## Where the characters of a group come from -/

/-- Every character ahead and in the groups so far is one of these. -/
structure State.Within (allowed : Char → Prop) (state : State) : Prop where
  ahead : ∀ c ∈ state.after, allowed c
  groups : ∀ index text, state.captures index = some text → ∀ c ∈ text, allowed c

variable {allowed : Char → Prop}

theorem State.Within.advances : Advances (State.Within allowed) := by
  intro before c rest captures within
  exact ⟨fun c member => within.ahead c (List.mem_cons_of_mem _ member), within.groups⟩

theorem State.Within.closes (index : Nat) : Closes (State.Within allowed) index := by
  intro state opened within openedWithin
  refine ⟨within.ahead, ?_⟩
  intro other text captured c member
  rw [State.close] at captured
  dsimp only at captured
  by_cases same : other = index
  · subst same
    rw [Function.update_self, Option.some.injEq] at captured
    subst captured
    exact openedWithin.ahead c (List.mem_of_mem_take member)
  · rw [Function.update_of_ne same] at captured
    exact within.groups other text captured c member

theorem within_of_search {pattern : Regex} {before text : List Char} {state : State}
    (within : ∀ c ∈ text, allowed c) (found : pattern.search before text = some state) : state.Within allowed := by
  have started (before : List Char) {text : List Char} (within : ∀ c ∈ text, allowed c) {state : State}
      (found : pattern.run some ⟨before, text, fun _ => none⟩ = some state) : state.Within allowed := by
    obtain ⟨later, laterWithin, same⟩ :=
      exists_invariant_of_run State.Within.advances (fun index _ => State.Within.closes index) ⟨within, by simp⟩ found
    obtain rfl := Option.some.inj same
    exact laterWithin
  induction text generalizing before with
  | nil => exact started before within found
  | cons c text inductionHypothesis =>
    rw [search, Option.or_eq_some_iff] at found
    obtain here | ⟨_, further⟩ := found
    · exact started before within here
    · exact inductionHypothesis (fun c member => within c (List.mem_cons_of_mem _ member)) further

/-- A group has only characters of the text. -/
theorem firstMatch_within {pattern : Regex} {text : List Char} {captures : Nat → Option (List Char)}
    (within : ∀ c ∈ text, allowed c) (found : pattern.firstMatch text = some captures) (index : Nat) :
    ∀ c ∈ (captures index).getD [], allowed c := by
  rw [firstMatch, Option.map_eq_some_iff] at found
  obtain ⟨state, isState, rfl⟩ := found
  intro c member
  cases captured : state.captures index with
  | none =>
    rw [captured] at member
    cases member
  | some group =>
    rw [captured] at member
    exact (within_of_search within isState).groups index group captured c member

theorem mem_of_mem_removeAll {pattern : Regex} {text : List Char} {c : Char} (member : c ∈ pattern.removeAll text) :
    c ∈ text := by
  suffices general : ∀ fuel before (after : List Char), c ∈ removeAll.go pattern fuel before after → c ∈ after from
    general text.length [] text member
  intro fuel
  induction fuel with
  | zero => exact fun before after member => member
  | succ fuel inductionHypothesis =>
    intro before after member
    cases after with
    | nil => cases member
    | cons first rest =>
      rw [removeAll.go] at member
      have kept (member : c ∈ first :: removeAll.go pattern fuel (first :: before) rest) : c ∈ first :: rest := by
        obtain rfl | later := List.mem_cons.mp member
        · exact List.mem_cons_self
        · exact List.mem_cons_of_mem _ (inductionHypothesis _ _ later)
      split at member
      next => exact kept member
      next state found =>
        split at member
        next =>
          -- what is left is the end of the text
          obtain ⟨later, takes, same⟩ := exists_takes_of_run found
          obtain rfl := Option.some.inj same
          obtain ⟨taken, ahead, _⟩ := takes.follows
          have isEnd : first :: rest = taken ++ later.after := ahead
          rw [isEnd]
          exact List.mem_append_right _ (inductionHypothesis _ _ member)
        next => exact kept member

end Aelf.Library.Regex
