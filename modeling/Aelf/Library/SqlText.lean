import Mathlib.Data.List.Forall2

/-! # String literals in the text of a statement

A statement that is concatenated holds the text of its author and text that comes from
elsewhere.  A single quote opens a literal and closes it; two quotes in a row inside a
literal stand for one.  Foreign text does no harm when it lies inside literals: what is
outside them does not depend on it. -/

namespace Aelf.Library.SqlText

def quote : Char := Char.ofNat 39

/-- The characters of a text of the program.  It is not unfolded, since comparing two literals would
otherwise compare their bytes. -/
@[irreducible] def chars (text : String) : List Char := text.toList

theorem chars_ofList (text : List Char) : chars (String.ofList text) = text := by
  unfold chars
  exact String.toList_ofList

/-- Where a character stands. -/
inductive Place where
  | outside
  | inside
  /-- After a quote inside a literal: it has closed the literal unless another one follows. -/
  | closing
deriving DecidableEq

def Place.next : Place → Char → Place
  | .outside, c => if c = quote then .inside else .outside
  | .inside, c => if c = quote then .closing else .inside
  | .closing, c => if c = quote then .inside else .outside

def Place.after (place : Place) (text : List Char) : Place := text.foldl Place.next place

/-- What a statement is outside its literals. -/
inductive Element where
  | literal
  | char (c : Char)
deriving DecidableEq

def Place.emit : Place → Char → List Element
  | .outside, c => if c = quote then [.literal] else [.char c]
  | .inside, _ => []
  | .closing, c => if c = quote then [] else [.char c]

def skeletonFrom : Place → List Char → List Element
  | _, [] => []
  | place, c :: text => place.emit c ++ skeletonFrom (place.next c) text

def skeleton (text : List Char) : List Element := skeletonFrom .outside text

@[simp] theorem Place.after_nil (place : Place) : place.after [] = place := rfl

theorem Place.after_append (place : Place) (text more : List Char) :
    place.after (text ++ more) = (place.after text).after more :=
  List.foldl_append

theorem skeletonFrom_append (place : Place) (text more : List Char) :
    skeletonFrom place (text ++ more) = skeletonFrom place text ++ skeletonFrom (place.after text) more := by
  induction text generalizing place with
  | nil => rfl
  | cons c text inductionHypothesis =>
    rw [List.cons_append, skeletonFrom, skeletonFrom, inductionHypothesis, List.append_assoc]
    rfl

theorem after_inside {text : List Char} (plain : quote ∉ text) : Place.inside.after text = .inside := by
  induction text with
  | nil => rfl
  | cons c text inductionHypothesis =>
    rw [List.mem_cons, not_or] at plain
    have different : c ≠ quote := fun same => plain.1 same.symm
    have here : Place.inside.next c = .inside := by simp [Place.next, different]
    change (Place.inside.next c).after text = .inside
    rw [here]
    exact inductionHypothesis plain.2

theorem after_outside {text : List Char} (plain : quote ∉ text) : Place.outside.after text = .outside := by
  induction text with
  | nil => rfl
  | cons c text inductionHypothesis =>
    rw [List.mem_cons, not_or] at plain
    have different : c ≠ quote := fun same => plain.1 same.symm
    have here : Place.outside.next c = .outside := by simp [Place.next, different]
    change (Place.outside.next c).after text = .outside
    rw [here]
    exact inductionHypothesis plain.2

theorem skeletonFrom_inside {text : List Char} (plain : quote ∉ text) : skeletonFrom .inside text = [] := by
  induction text with
  | nil => rfl
  | cons c text inductionHypothesis =>
    rw [List.mem_cons, not_or] at plain
    have different : c ≠ quote := fun same => plain.1 same.symm
    have here : Place.inside.next c = .inside := by simp [Place.next, different]
    rw [skeletonFrom, here, inductionHypothesis plain.2]
    rfl

/-! ## Concatenated statements -/

/-- A piece of a statement: written by the author of the program, or foreign. -/
inductive Fragment where
  | fixed (text : List Char)
  | foreign (text : List Char)
deriving DecidableEq

def Fragment.text : Fragment → List Char
  | .fixed text => text
  | .foreign text => text

/-- The text of a statement. -/
def written (fragments : List Fragment) : List Char := fragments.flatMap Fragment.text

@[simp] theorem written_nil : written [] = [] := rfl

@[simp] theorem written_cons (fragment : Fragment) (fragments : List Fragment) :
    written (fragment :: fragments) = fragment.text ++ written fragments := rfl

@[simp] theorem written_append (fragments more : List Fragment) :
    written (fragments ++ more) = written fragments ++ written more :=
  List.flatMap_append

/-- Each foreign text begins inside a literal, and it and all its beginnings end inside that literal. -/
def ConfinedFrom (place : Place) (fragments : List Fragment) : Prop :=
  ∀ before text rest, fragments = before ++ .foreign text :: rest →
    ∀ beginning, beginning <+: text → place.after (written before ++ beginning) = .inside

def Confined (fragments : List Fragment) : Prop := ConfinedFrom .outside fragments

theorem confinedFrom_nil (place : Place) : ConfinedFrom place [] := by
  intro before text rest same
  cases before <;> cases same

theorem confinedFrom_fixed {place : Place} {text : List Char} {fragments : List Fragment}
    (confined : ConfinedFrom (place.after text) fragments) : ConfinedFrom place (.fixed text :: fragments) := by
  intro before foreign rest same beginning isBeginning
  cases before with
  | nil => cases same
  | cons first before =>
    cases same
    have later := confined before foreign rest rfl beginning isBeginning
    rwa [written_cons, List.append_assoc, Place.after_append]

theorem confinedFrom_foreign {text : List Char} {fragments : List Fragment} (plain : quote ∉ text)
    (confined : ConfinedFrom .inside fragments) : ConfinedFrom .inside (.foreign text :: fragments) := by
  intro before foreign rest same beginning isBeginning
  cases before with
  | nil =>
    cases same
    exact after_inside fun member => plain (isBeginning.subset member)
  | cons first before =>
    cases same
    have later := confined before foreign rest rfl beginning isBeginning
    rw [written_cons, List.append_assoc, Place.after_append, Fragment.text, after_inside plain]
    exact later

theorem confinedFrom_append {place : Place} {fragments more : List Fragment} (first : ConfinedFrom place fragments)
    (second : ConfinedFrom (place.after (written fragments)) more) : ConfinedFrom place (fragments ++ more) := by
  intro before text rest same beginning isBeginning
  obtain ⟨middle, rfl, later⟩ | ⟨middle, rfl, later⟩ := List.append_eq_append_iff.mp same
  · have inside := second middle text rest later beginning isBeginning
    rw [written_append, List.append_assoc, Place.after_append]
    exact inside
  · cases middle with
    | nil =>
      have inside := second [] text rest (by simpa using later.symm) beginning isBeginning
      simpa [Place.after_append] using inside
    | cons fragment middle =>
      cases later
      exact first before text middle rfl beginning isBeginning

/-- Pieces that keep foreign text inside literals on the way from one place to another. -/
structure Leads (place : Place) (fragments : List Fragment) (reached : Place) : Prop where
  confined : ConfinedFrom place fragments
  reaches : place.after (written fragments) = reached

theorem Leads.append {place middle reached : Place} {fragments more : List Fragment}
    (first : Leads place fragments middle) (second : Leads middle more reached) :
    Leads place (fragments ++ more) reached where
  confined := confinedFrom_append first.confined (first.reaches.symm ▸ second.confined)
  reaches := by rw [written_append, Place.after_append, first.reaches, second.reaches]

theorem leads_nil (place : Place) : Leads place [] place where
  confined := confinedFrom_nil place
  reaches := rfl

theorem Leads.fixed {place middle reached : Place} {text : List Char} {fragments : List Fragment}
    (moves : place.after text = middle) (rest : Leads middle fragments reached) :
    Leads place (.fixed text :: fragments) reached where
  confined := confinedFrom_fixed (moves.symm ▸ rest.confined)
  reaches := by rw [written_cons, Place.after_append, Fragment.text, moves, rest.reaches]

theorem Leads.foreign {reached : Place} {text : List Char} {fragments : List Fragment} (plain : quote ∉ text)
    (rest : Leads .inside fragments reached) : Leads .inside (.foreign text :: fragments) reached where
  confined := confinedFrom_foreign plain rest.confined
  reaches := by rw [written_cons, Place.after_append, Fragment.text, after_inside plain, rest.reaches]

/-- No piece holds a quote. -/
def Plain (fragments : List Fragment) : Prop := ∀ fragment ∈ fragments, quote ∉ fragment.text

theorem plain_append {fragments more : List Fragment} (first : Plain fragments) (second : Plain more) :
    Plain (fragments ++ more) := by
  intro fragment member
  obtain before | after := List.mem_append.mp member
  · exact first fragment before
  · exact second fragment after

/-- Pieces without a quote stay in the literal. -/
theorem Plain.leads {fragments : List Fragment} (plain : Plain fragments) : Leads .inside fragments .inside := by
  induction fragments with
  | nil => exact leads_nil .inside
  | cons fragment fragments inductionHypothesis =>
    have here : quote ∉ fragment.text := plain fragment (by simp)
    have later := inductionHypothesis fun other member => plain other (by simp [member])
    cases fragment with
    | fixed text => exact later.fixed (after_inside here)
    | foreign text => exact later.foreign here

theorem Leads.flatMap {α : Type} {place : Place} {items : List α} {pieces : α → List Fragment}
    (each : ∀ item ∈ items, Leads place (pieces item) place) : Leads place (items.flatMap pieces) place := by
  induction items with
  | nil => exact leads_nil place
  | cons item items inductionHypothesis =>
    have later := inductionHypothesis fun other member => each other (by simp [member])
    exact (each item (by simp)).append later

/-- The same statement with other foreign texts. -/
inductive Fragment.Alike : Fragment → Fragment → Prop where
  | fixed (text : List Char) : Alike (.fixed text) (.fixed text)
  | foreign {text other : List Char} (plain : quote ∉ text) (otherPlain : quote ∉ other) :
      Alike (.foreign text) (.foreign other)

def Alike : List Fragment → List Fragment → Prop := List.Forall₂ Fragment.Alike

theorem alike_nil : Alike [] [] := .nil

theorem Alike.fixed {fragments others : List Fragment} (alike : Alike fragments others) (text : List Char) :
    Alike (.fixed text :: fragments) (.fixed text :: others) :=
  .cons (.fixed text) alike

theorem Alike.foreign {fragments others : List Fragment} (alike : Alike fragments others) {text other : List Char}
    (plain : quote ∉ text) (otherPlain : quote ∉ other) : Alike (.foreign text :: fragments) (.foreign other :: others) :=
  .cons (.foreign plain otherPlain) alike

theorem Alike.append {fragments others more moreOthers : List Fragment} (first : Alike fragments others)
    (second : Alike more moreOthers) : Alike (fragments ++ more) (others ++ moreOthers) :=
  List.rel_append first second

theorem ConfinedFrom.tail {place : Place} {fragment : Fragment} {fragments : List Fragment}
    (confined : ConfinedFrom place (fragment :: fragments)) : ConfinedFrom (place.after fragment.text) fragments := by
  intro before text rest same beginning isBeginning
  have inside := confined (fragment :: before) text rest (by rw [same]; rfl) beginning isBeginning
  rwa [written_cons, List.append_assoc, Place.after_append] at inside

/-- What is outside the literals does not depend on foreign texts that are confined to literals. -/
theorem Alike.skeletonFrom_eq {place : Place} {fragments others : List Fragment} (alike : Alike fragments others)
    (confined : ConfinedFrom place fragments) :
    skeletonFrom place (written fragments) = skeletonFrom place (written others) := by
  induction alike generalizing place with
  | nil => rfl
  | cons same rest inductionHypothesis =>
    have later := inductionHypothesis confined.tail
    cases same with
    | fixed text =>
      rw [written_cons, written_cons, skeletonFrom_append, skeletonFrom_append, later]
    | @foreign text other plain otherPlain =>
      have inside : place = .inside := confined [] text _ rfl [] (List.nil_prefix)
      subst inside
      rw [Fragment.text, after_inside plain] at later
      rw [written_cons, written_cons, skeletonFrom_append, skeletonFrom_append, Fragment.text, Fragment.text,
        skeletonFrom_inside plain, skeletonFrom_inside otherPlain, after_inside plain, after_inside otherPlain, later]

end Aelf.Library.SqlText
