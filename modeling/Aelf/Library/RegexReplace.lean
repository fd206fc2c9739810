import Aelf.Library.Regex

/-! # Replacing every match

`Matcher.replaceAll` of Java.  After a match the search goes on where the match ended; after
an empty one it first copies a character, so a pattern that matches nothing at all still
has its replacement before every character that no match covers, and at the end. -/

namespace Aelf.Library.Regex

/-- The replacement is a function of what the match covers. -/
def replaceAll (pattern : Regex) (replacement : List Char → List Char) (text : List Char) : List Char :=
  go (text.length + 1) [] text
where
  go : Nat → List Char → List Char → List Char
    | 0, _, after => after
    | fuel + 1, before, after =>
      match pattern.run some ⟨before, after, fun _ => none⟩ with
      | none =>
        match after with
        | [] => []
        | c :: rest => c :: go fuel (c :: before) rest
      | some state =>
        if state.after.length < after.length then
          replacement (after.take (after.length - state.after.length)) ++ go fuel state.before state.after
        else match after with
          | [] => replacement []
          | c :: rest => replacement [] ++ c :: go fuel (c :: before) rest

/-- Every maximal run of the class is rewritten, and something is put before every other character and at
the end. -/
def rewriteRuns (accepts : Char → Bool) (rewritten : List Char → List Char) (between : List Char) :
    List Char → List Char
  | [] => between
  | c :: rest =>
    if accepts c then
      rewritten (c :: rest.takeWhile accepts) ++ rewriteRuns accepts rewritten between (rest.dropWhile accepts)
    else between ++ c :: rewriteRuns accepts rewritten between rest
termination_by text => text.length
decreasing_by
  · exact Nat.lt_succ_of_le (List.dropWhile_suffix accepts).length_le
  · exact Nat.lt_succ_self _

/-- The repetition of a class also matches nothing, between two other characters and at the end. -/
theorem replaceAll_star (accepts : Char → Bool) (replacement : List Char → List Char) (text : List Char) :
    replaceAll (star (satisfies accepts)) replacement text =
      rewriteRuns accepts replacement (replacement []) text := by
  suffices general : ∀ fuel before text, text.length < fuel →
      replaceAll.go (star (satisfies accepts)) replacement fuel before text =
        rewriteRuns accepts replacement (replacement []) text from
    general _ _ _ (Nat.lt_succ_self _)
  intro fuel
  induction fuel with
  | zero => exact fun before text enough => absurd enough (Nat.not_lt_zero _)
  | succ fuel inductionHypothesis =>
    intro before text enough
    unfold replaceAll.go
    rw [run_star_some]
    cases text with
    | nil => simp [rewriteRuns]
    | cons c rest =>
      rw [List.length_cons] at enough
      rw [rewriteRuns]
      by_cases accepted : accepts c = true
      · have shorter : (rest.dropWhile accepts).length ≤ rest.length := (List.dropWhile_suffix accepts).length_le
        have consumes : (rest.dropWhile accepts).length < (c :: rest).length := Nat.lt_succ_of_le shorter
        have covered : (c :: rest).take ((c :: rest).length - (rest.dropWhile accepts).length) =
            c :: rest.takeWhile accepts := by
          have split : c :: rest = (c :: rest.takeWhile accepts) ++ rest.dropWhile accepts := by simp
          have length : (c :: rest).length - (rest.dropWhile accepts).length = (c :: rest.takeWhile accepts).length := by
            rw [split, List.length_append, Nat.add_sub_cancel]
          have taken := congrArg (List.take (c :: rest.takeWhile accepts).length) split
          rw [List.take_left] at taken
          rw [length, taken]
        rw [List.takeWhile_cons_of_pos accepted, List.dropWhile_cons_of_pos accepted, if_pos accepted]
        dsimp only
        rw [if_pos consumes, covered, inductionHypothesis _ _ (by omega)]
      · rw [List.takeWhile_cons_of_neg accepted, List.dropWhile_cons_of_neg accepted, if_neg accepted]
        simp [inductionHypothesis _ rest (by omega)]

theorem length_rewriteRuns (accepts : Char → Bool) (rewritten : List Char → List Char) (between text : List Char) :
    (rewriteRuns accepts rewritten between text).length =
      (rewriteRuns accepts rewritten [] text).length + (text.countP (fun c => !accepts c) + 1) * between.length := by
  induction text using rewriteRuns.induct accepts with
  | case1 => simp [rewriteRuns]
  | case2 c rest accepted inductionHypothesis =>
    have countRun : (rest.takeWhile accepts).countP (fun c => !accepts c) = 0 := by
      rw [List.countP_eq_zero]
      intro other member
      simp [List.all_eq_true.mp List.all_takeWhile other member]
    have count : (c :: rest).countP (fun c => !accepts c) = (rest.dropWhile accepts).countP fun c => !accepts c := by
      have split : rest = rest.takeWhile accepts ++ rest.dropWhile accepts := List.takeWhile_append_dropWhile.symm
      have counted := congrArg (List.countP fun c => !accepts c) split
      rw [List.countP_append, countRun, Nat.zero_add] at counted
      rw [List.countP_cons_of_neg (by simp [accepted]), counted]
    rw [rewriteRuns, rewriteRuns, if_pos accepted, if_pos accepted, List.length_append, List.length_append,
      inductionHypothesis, count]
    omega
  | case3 c rest refused inductionHypothesis =>
    rw [rewriteRuns, rewriteRuns, if_neg refused, if_neg refused, List.countP_cons_of_pos (by simpa using refused)]
    simp only [List.length_append, List.length_cons, List.length_nil, inductionHypothesis]
    rw [Nat.add_mul (rest.countP _ + 1) 1, Nat.one_mul]
    omega

end Aelf.Library.Regex
