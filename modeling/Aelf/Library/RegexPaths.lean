import Aelf.Library.Regex
import Mathlib.Logic.Relation

/-! # What a pattern can match

The positions that a pattern can get to, whatever the matcher tries first.  The matcher
finds a way when there is one that its continuation accepts, and what it finds is one. -/

namespace Aelf.Library.Regex

variable {β : Type}

/-- The text before a position, in reverse, and the text after it. -/
abbrev Position := List Char × List Char

def State.position (state : State) : Position := (state.before, state.after)

def Takes : Regex → Position → Position → Prop
  | empty, start, finish => finish = start
  | satisfies accepts, start, finish =>
    ∃ c rest, start.2 = c :: rest ∧ accepts c = true ∧ finish = (c :: start.1, rest)
  | seq first second, start, finish => ∃ middle, first.Takes start middle ∧ second.Takes middle finish
  | alt first second, start, finish => first.Takes start finish ∨ second.Takes start finish
  | star body, start, finish | lazyStar body, start, finish =>
    Relation.ReflTransGen (fun earlier later => body.Takes earlier later ∧ later.2.length < earlier.2.length) start finish
  | group _ body, start, finish => body.Takes start finish
  | startOfInput, start, finish => start.1 = [] ∧ finish = start
  | endOfInput, start, finish => start.2 = [] ∧ finish = start
  | wordBoundary, start, finish => atWordBoundary ⟨start.1, start.2, fun _ => none⟩ = true ∧ finish = start

/-! ## The text in between -/

/-- The later position is further in the same text. -/
def Follows (start finish : Position) : Prop :=
  ∃ taken, start.2 = taken ++ finish.2 ∧ finish.1 = taken.reverse ++ start.1

theorem Follows.refl (position : Position) : Follows position position := ⟨[], rfl, rfl⟩

theorem Follows.trans {first second third : Position} (earlier : Follows first second) (later : Follows second third) :
    Follows first third := by
  obtain ⟨taken, ahead, behind⟩ := earlier
  obtain ⟨more, aheadLater, behindLater⟩ := later
  refine ⟨taken ++ more, ?_, ?_⟩
  · rw [ahead, aheadLater, List.append_assoc]
  · rw [behindLater, behind, List.reverse_append, List.append_assoc]

theorem Takes.follows {pattern : Regex} {start finish : Position} (takes : pattern.Takes start finish) :
    Follows start finish := by
  induction pattern generalizing start finish with
  | satisfies accepts =>
    obtain ⟨c, rest, ahead, _, rfl⟩ := takes
    exact ⟨[c], ahead, rfl⟩
  | seq first second firstHypothesis secondHypothesis =>
    obtain ⟨middle, earlier, later⟩ := takes
    exact (firstHypothesis earlier).trans (secondHypothesis later)
  | alt first second firstHypothesis secondHypothesis =>
    obtain taken | taken := takes
    · exact firstHypothesis taken
    · exact secondHypothesis taken
  | star body bodyHypothesis | lazyStar body bodyHypothesis =>
    induction takes with
    | refl => exact .refl _
    | tail _ step reached => exact reached.trans (bodyHypothesis step.1)
  | group index body bodyHypothesis => exact bodyHypothesis takes
  | empty =>
    obtain rfl := takes
    exact .refl _
  | startOfInput | endOfInput | wordBoundary =>
    obtain ⟨_, rfl⟩ := takes
    exact .refl _

/-- A repetition of a class can take any text of its characters. -/
theorem takes_star {accepts : Char → Bool} {text : List Char} (accepted : ∀ c ∈ text, accepts c = true)
    (before rest : List Char) :
    (star (satisfies accepts)).Takes (before, text ++ rest) (text.reverse ++ before, rest) := by
  induction text generalizing before with
  | nil => exact .refl
  | cons c text inductionHypothesis =>
    obtain ⟨first, others⟩ := List.forall_mem_cons.mp accepted
    rw [List.reverse_cons, List.append_assoc]
    exact .head ⟨⟨c, text ++ rest, rfl, first, rfl⟩, Nat.lt_succ_self _⟩ (inductionHypothesis others (c :: before))

/-! ## What the matcher finds -/

theorem exists_takes_of_repeat {body : Regex} {next run : State → Option β}
    (bodySound : ∀ (next : State → Option β) state result, body.run next state = some result →
      ∃ later : State, body.Takes state.position later.position ∧ next later = some result)
    (unfolds : ∀ state result, run state = some result →
      body.run (afterProgress state run) state = some result ∨ next state = some result)
    {state : State} {result : β} (found : run state = some result) :
    ∃ later : State, (star body).Takes state.position later.position ∧ next later = some result := by
  induction size : state.after.length using Nat.strongRecOn generalizing state with
  | _ size inductionHypothesis =>
    obtain again | stops := unfolds state result found
    · obtain ⟨middle, takes, goesOn⟩ := bodySound _ state result again
      unfold afterProgress at goesOn
      split at goesOn
      next shorter =>
        obtain ⟨later, reached, succeeds⟩ := inductionHypothesis _ (by omega) goesOn rfl
        exact ⟨later, .head ⟨takes, shorter⟩ reached, succeeds⟩
      next => cases goesOn
    · exact ⟨state, .refl, stops⟩

theorem exists_takes_of_run {pattern : Regex} {next : State → Option β} {state : State} {result : β}
    (found : pattern.run next state = some result) :
    ∃ later : State, pattern.Takes state.position later.position ∧ next later = some result := by
  induction pattern generalizing next state result with
  | satisfies accepts =>
    obtain ⟨before, after, captures⟩ := state
    cases after with
    | nil => cases found
    | cons c rest =>
      rw [run_satisfies_cons] at found
      split at found
      next accepted => exact ⟨_, ⟨c, rest, rfl, accepted, rfl⟩, found⟩
      next => cases found
  | seq first second firstHypothesis secondHypothesis =>
    obtain ⟨middle, earlier, goesOn⟩ := firstHypothesis found
    obtain ⟨later, reached, succeeds⟩ := secondHypothesis goesOn
    exact ⟨later, ⟨middle.position, earlier, reached⟩, succeeds⟩
  | alt first second firstHypothesis secondHypothesis =>
    rw [run_alt, Option.or_eq_some_iff] at found
    obtain found | ⟨_, found⟩ := found
    · obtain ⟨later, takes, succeeds⟩ := firstHypothesis found
      exact ⟨later, .inl takes, succeeds⟩
    · obtain ⟨later, takes, succeeds⟩ := secondHypothesis found
      exact ⟨later, .inr takes, succeeds⟩
  | star body bodyHypothesis =>
    refine exists_takes_of_repeat (fun _ _ _ => bodyHypothesis) ?_ found
    intro state result found
    rw [run_star, Option.or_eq_some_iff] at found
    exact found.imp_right And.right
  | lazyStar body bodyHypothesis =>
    refine exists_takes_of_repeat (fun _ _ _ => bodyHypothesis) ?_ found
    intro state result found
    rw [run_lazyStar, Option.or_eq_some_iff] at found
    exact (found.imp_right And.right).symm
  | group index body bodyHypothesis =>
    obtain ⟨later, takes, succeeds⟩ := bodyHypothesis found
    exact ⟨later.close state index, takes, succeeds⟩
  | empty => exact ⟨state, rfl, found⟩
  | startOfInput | endOfInput =>
    rw [run] at found
    split at found
    next here => exact ⟨state, ⟨List.isEmpty_iff.mp here, rfl⟩, found⟩
    next => cases found
  | wordBoundary =>
    rw [run] at found
    split at found
    next here => exact ⟨state, ⟨here, rfl⟩, found⟩
    next => cases found

/-- A lazy run of a class ends where the rest of the pattern first succeeds. -/
theorem run_lazyStar_eq_some {accepts : Char → Bool} {next : State → Option β} {before text : List Char}
    {captures : Nat → Option (List Char)} {result : β}
    (found : (lazyStar (satisfies accepts)).run next ⟨before, text, captures⟩ = some result) :
    ∃ taken left, text = taken ++ left ∧ (∀ c ∈ taken, accepts c = true) ∧
      (∀ shorter c more, taken = shorter ++ c :: more →
        next ⟨shorter.reverse ++ before, c :: more ++ left, captures⟩ = none) ∧
      next ⟨taken.reverse ++ before, left, captures⟩ = some result := by
  induction text generalizing before with
  | nil =>
    rw [run_lazyStar, run_satisfies_nil, Option.or_none] at found
    exact ⟨[], [], rfl, by simp, by simp, found⟩
  | cons c text inductionHypothesis =>
    rw [run_lazyStar, run_satisfies_cons, Option.or_eq_some_iff] at found
    obtain here | ⟨fails, further⟩ := found
    · exact ⟨[], c :: text, rfl, by simp, by simp, here⟩
    · split at further
      next accepted =>
        rw [afterProgress, if_pos (by simp)] at further
        obtain ⟨taken, left, rfl, all, earlierFail, succeeds⟩ := inductionHypothesis further
        refine ⟨c :: taken, left, rfl, List.forall_mem_cons.mpr ⟨accepted, all⟩, ?_, by simpa using succeeds⟩
        intro shorter other more split
        cases shorter with
        | nil =>
          obtain ⟨rfl, rfl⟩ := List.cons.inj split
          exact fails
        | cons first shorter =>
          obtain ⟨rfl, rfl⟩ := List.cons.inj split
          simpa using earlierFail shorter other more rfl
      next => cases further

/-! ## What the matcher cannot miss -/

theorem isSome_of_repeat {body : Regex} {next run : State → Option β} {finish : Position}
    (bodyComplete : ∀ (next : State → Option β) (state : State) finish, body.Takes state.position finish →
      (∀ later : State, later.position = finish → (next later).isSome) → (body.run next state).isSome)
    (unfolds : ∀ state, (body.run (afterProgress state run) state).isSome ∨ (next state).isSome → (run state).isSome)
    (succeeds : ∀ later : State, later.position = finish → (next later).isSome) {start : Position}
    (takes : (star body).Takes start finish) : ∀ state : State, state.position = start → (run state).isSome := by
  induction takes using Relation.ReflTransGen.head_induction_on with
  | refl => exact fun state here => unfolds state (.inr (succeeds state here))
  | head step _ inductionHypothesis =>
    rintro state rfl
    obtain ⟨taken, shorter⟩ := step
    refine unfolds state (.inl (bodyComplete _ state _ taken ?_))
    rintro later rfl
    have progress : later.after.length < state.after.length := shorter
    rw [afterProgress, if_pos progress]
    exact inductionHypothesis later rfl

theorem isSome_run {pattern : Regex} {next : State → Option β} {state : State} {finish : Position}
    (takes : pattern.Takes state.position finish)
    (succeeds : ∀ later : State, later.position = finish → (next later).isSome) : (pattern.run next state).isSome := by
  induction pattern generalizing next state finish with
  | satisfies accepts =>
    obtain ⟨before, after, captures⟩ := state
    obtain ⟨c, rest, ahead, accepted, rfl⟩ := takes
    obtain rfl : after = c :: rest := ahead
    rw [run_satisfies_cons, if_pos accepted]
    exact succeeds _ rfl
  | seq first second firstHypothesis secondHypothesis =>
    obtain ⟨middle, earlier, later⟩ := takes
    refine firstHypothesis earlier ?_
    rintro state rfl
    exact secondHypothesis later succeeds
  | alt first second firstHypothesis secondHypothesis =>
    rw [run_alt, Option.isSome_or, Bool.or_eq_true]
    exact takes.imp (fun taken => firstHypothesis taken succeeds) fun taken => secondHypothesis taken succeeds
  | star body bodyHypothesis =>
    refine isSome_of_repeat (fun _ _ _ => bodyHypothesis) ?_ succeeds takes state rfl
    intro state either
    rw [run_star, Option.isSome_or, Bool.or_eq_true]
    exact either
  | lazyStar body bodyHypothesis =>
    refine isSome_of_repeat (fun _ _ _ => bodyHypothesis) ?_ succeeds takes state rfl
    intro state either
    rw [run_lazyStar, Option.isSome_or, Bool.or_eq_true]
    exact either.symm
  | group index body bodyHypothesis =>
    refine bodyHypothesis takes ?_
    rintro later rfl
    exact succeeds _ rfl
  | empty => exact succeeds state takes.symm
  | startOfInput | endOfInput =>
    obtain ⟨here, rfl⟩ := takes
    rw [run, if_pos]
    · exact succeeds state rfl
    · exact List.isEmpty_iff.mpr here
  | wordBoundary =>
    obtain ⟨here, rfl⟩ := takes
    rw [run, if_pos]
    · exact succeeds state rfl
    · exact here

end Aelf.Library.Regex
