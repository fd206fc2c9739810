import Aelf.Lectures.Sharing
import Aelf.Library.Runs

/-! # The slides of an office

The pager keeps a page for the slides around the one that is shown.  A page is built from
the variant that was selected when it was made; when the reader selects another variant,
the adapter asks every page for its position, and the page builds itself again.  The menu
of the variants stays open while an office may be loaded again. -/

namespace Aelf.Lectures.Slides

open Aelf.Library

/-! ## Pages -/

/-- The arguments of a page, and the lecture that it was built from. -/
structure LectureFragment where
  position : Int
  variant : Int
  shown : Option Lecture

namespace LectureFragment

/-- A page whose slide is gone keeps what it shows. -/
def loadText (fragment : LectureFragment) (adapter : LecturePagerAdapter) : Except JavaException LectureFragment := do
  match ← adapter.getLectureVariants fragment.position with
  | none => return fragment
  | some lectureVariants =>
    let lecture ← deref (← lectureVariants.get fragment.variant)
    return { fragment with shown := some lecture }

end LectureFragment

def getItem (adapter : LecturePagerAdapter) (position : Int) : LectureFragment :=
  ⟨position, adapter.mVariantIds.get position 0, none⟩

/-- A page whose variant has changed is built again where it is. -/
def getItemPosition (adapter : LecturePagerAdapter) (fragment : LectureFragment) :
    Except JavaException LectureFragment :=
  let newVariantId := adapter.mVariantIds.get fragment.position 0
  if fragment.variant ≠ newVariantId then { fragment with variant := newVariantId }.loadText adapter
  else return fragment

def hasVariants (adapter : LecturePagerAdapter) (position : Int) : Except JavaException Bool := do
  match ← adapter.getLectureVariants position with
  | none => return false
  | some lectureVariants => return 1 < lectureVariants.mLectures.length

/-! ## The pager -/

/-- The adapter, the pages, and the menu of the variants: the slide it was opened on, and how many titles it has. -/
structure State where
  adapter : LecturePagerAdapter
  pages : List LectureFragment
  menu : Option (Int × Nat)

inductive Event where
  | instantiateItem (position : Int)
  | destroyItem (position : Int)
  | onTabReselected (position : Int)
  /-- A title of the menu is chosen. -/
  | onItemClick (variant : Int)
  | dismiss
  | applyOffice (office : Office)

namespace State

/-- A page is made and builds its text. -/
def instantiateItem (state : State) (position : Int) : Except JavaException State := do
  let fragment ← (getItem state.adapter position).loadText state.adapter
  return { state with pages := state.pages ++ [fragment] }

/-- The titles of the menu are those of the variants. -/
def onTabReselected (state : State) (position : Int) : Except JavaException State := do
  if ← hasVariants state.adapter position then
    match ← state.adapter.getLectureVariants position with
    | none => return state
    | some lectureVariants => return { state with menu := some (position, lectureVariants.mLectures.length) }
  else return state

/-- `setLectureVariantId` notifies the pager when there is such a slide. -/
def onItemClick (state : State) (variant : Int) : Except JavaException State := do
  match state.menu with
  | none => return state
  | some (position, _) =>
    let adapter ← state.adapter.setLectureVariantId position variant
    if position < (← state.adapter.getCount) then
      return { adapter := adapter, pages := ← state.pages.mapM (getItemPosition adapter), menu := none }
    else return { state with menu := none }

def apply (state : State) : Event → Except JavaException State
  | .instantiateItem position => state.instantiateItem position
  | .destroyItem position => return { state with pages := state.pages.filter fun page => page.position ≠ position }
  | .onTabReselected position => state.onTabReselected position
  | .onItemClick variant => state.onItemClick variant
  | .dismiss => return { state with menu := none }
  | .applyOffice office => return { state with adapter := .of office, pages := [] }

def run (state : State) (events : List Event) : Except JavaException State := events.foldlM apply state

/-- A new office has no page yet. -/
def start (office : Office) : State := ⟨.of office, [], none⟩

end State

/-! ## Offices with slides -/

/-- The office has the given slides, each with its variants. -/
structure HasSlides (office : Office) (slides : List (List Lecture)) : Prop where
  lectures : office.getLectures = .ok (slides.map fun variants => some ⟨variants.map some⟩)
  nonempty : ∀ variants ∈ slides, variants ≠ []

theorem get_variants {variants : List Lecture} {variant : Nat} {lecture : Lecture}
    (here : variants[variant]? = some lecture) :
    LectureVariants.get ⟨variants.map some⟩ variant = .ok (some lecture) := by
  simp [LectureVariants.get, here, deref]

section Adapter

variable {adapter : LecturePagerAdapter} {slides : List (List Lecture)} (hasSlides : HasSlides adapter.mOffice slides)
include hasSlides

theorem getCount_slides : adapter.getCount = .ok slides.length := by
  simp [LecturePagerAdapter.getCount, hasSlides.lectures, bind, Except.bind, pure, Except.pure]

theorem getLectureVariants_slides {position : Nat} {variants : List Lecture}
    (slide : slides[position]? = some variants) :
    adapter.getLectureVariants position = .ok (some ⟨variants.map some⟩) := by
  obtain ⟨bound, -⟩ := List.getElem?_eq_some_iff.mp slide
  simp only [LecturePagerAdapter.getLectureVariants, getCount_slides hasSlides, hasSlides.lectures, javaGet_natCast,
    Nat.cast_lt, bound, if_true, List.getElem?_map, slide, bind, Except.bind]
  rfl

theorem getLecture_slides {position variant : Nat} {variants : List Lecture} {lecture : Lecture}
    (slide : slides[position]? = some variants) (selected : adapter.mVariantIds.get position 0 = variant)
    (here : variants[variant]? = some lecture) : adapter.getLecture position = .ok (some lecture) := by
  simp only [LecturePagerAdapter.getLecture, getLectureVariants_slides hasSlides slide, selected, get_variants here,
    bind, Except.bind]

theorem loadText_slides {position variant : Nat} {variants : List Lecture} {lecture : Lecture}
    (slide : slides[position]? = some variants) (here : variants[variant]? = some lecture) (shown : Option Lecture) :
    LectureFragment.loadText ⟨position, variant, shown⟩ adapter = .ok ⟨position, variant, some lecture⟩ := by
  simp only [LectureFragment.loadText, getLectureVariants_slides hasSlides slide, get_variants here, deref, bind,
    Except.bind, pure, Except.pure]

theorem hasVariants_slides {position : Nat} {variants : List Lecture} (slide : slides[position]? = some variants) :
    hasVariants adapter position = .ok (decide (1 < variants.length)) := by
  simp only [hasVariants, getLectureVariants_slides hasSlides slide, List.length_map, bind, Except.bind, pure,
    Except.pure]

end Adapter

/-! ## Pages that are up to date -/

/-- The page is one of the slides, and shows what the adapter has there. -/
def UpToDate (adapter : LecturePagerAdapter) (slides : List (List Lecture)) (page : LectureFragment) : Prop :=
  ∃ (position variant : Nat) (variants : List Lecture) (lecture : Lecture),
    slides[position]? = some variants ∧ variants[variant]? = some lecture ∧
    adapter.mVariantIds.get position 0 = variant ∧ page = ⟨position, variant, some lecture⟩

theorem UpToDate.getLecture {adapter : LecturePagerAdapter} {slides : List (List Lecture)} {page : LectureFragment}
    (hasSlides : HasSlides adapter.mOffice slides) (upToDate : UpToDate adapter slides page) :
    adapter.getLecture page.position = .ok page.shown := by
  obtain ⟨position, variant, variants, lecture, slide, here, selected, rfl⟩ := upToDate
  exact getLecture_slides hasSlides slide selected here

/-- Every slide has its selected variant. -/
def InRange (adapter : LecturePagerAdapter) (slides : List (List Lecture)) : Prop :=
  ∀ (position : Nat) (variants : List Lecture), slides[position]? = some variants →
    ∃ (variant : Nat) (lecture : Lecture),
      adapter.mVariantIds.get position 0 = variant ∧ variants[variant]? = some lecture

theorem inRange_of {office : Office} {slides : List (List Lecture)} (hasSlides : HasSlides office slides) :
    InRange (.of office) slides := by
  intro position variants slide
  have nonempty := hasSlides.nonempty variants (List.mem_of_getElem? slide)
  obtain ⟨lecture, rest, rfl⟩ := List.exists_cons_of_ne_nil nonempty
  exact ⟨0, lecture, rfl, rfl⟩

theorem inRange_put {adapter : LecturePagerAdapter} {slides : List (List Lecture)} (inRange : InRange adapter slides)
    {position variant : Nat} {variants : List Lecture} {lecture : Lecture} (slide : slides[position]? = some variants)
    (here : variants[variant]? = some lecture) :
    InRange { adapter with mVariantIds := adapter.mVariantIds.put position variant } slides := by
  intro other otherVariants otherSlide
  by_cases same : (other : Int) = position
  · obtain rfl := Int.ofNat.inj same
    obtain rfl := Option.some.inj (slide.symm.trans otherSlide)
    exact ⟨variant, lecture, SparseIntArray.get_put_self _ _ _ _, here⟩
  · obtain ⟨kept, keptLecture, selected, keptHere⟩ := inRange other otherVariants otherSlide
    exact ⟨kept, keptLecture, (SparseIntArray.get_put_of_ne _ _ _ same).trans selected, keptHere⟩

/-- A page that was up to date is brought up to date with the new selection. -/
theorem getItemPosition_upToDate {adapter adapter' : LecturePagerAdapter} {slides : List (List Lecture)}
    (inRange : InRange adapter' slides) (hasSlides : HasSlides adapter'.mOffice slides) {page : LectureFragment}
    (upToDate : UpToDate adapter slides page) :
    ∃ page', getItemPosition adapter' page = .ok page' ∧ UpToDate adapter' slides page' := by
  obtain ⟨position, variant, variants, lecture, slide, here, -, rfl⟩ := upToDate
  obtain ⟨newVariant, newLecture, selected, newHere⟩ := inRange position variants slide
  refine ⟨⟨position, newVariant, some newLecture⟩, ?_, position, newVariant, variants, newLecture, slide, newHere,
    selected, rfl⟩
  unfold getItemPosition
  simp only [selected]
  split
  case isTrue => exact loadText_slides hasSlides slide newHere _
  case isFalse unchanged =>
    -- The selection of this slide has not changed, so neither has what it shows.
    obtain rfl := Int.ofNat.inj (not_not.mp unchanged)
    obtain rfl := Option.some.inj (here.symm.trans newHere)
    rfl

theorem mapM_getItemPosition {adapter adapter' : LecturePagerAdapter} {slides : List (List Lecture)}
    (inRange : InRange adapter' slides) (hasSlides : HasSlides adapter'.mOffice slides)
    {pages : List LectureFragment} (upToDate : ∀ page ∈ pages, UpToDate adapter slides page) :
    ∃ pages', pages.mapM (getItemPosition adapter') = .ok pages' ∧
      ∀ page ∈ pages', UpToDate adapter' slides page := by
  induction pages with
  | nil => exact ⟨[], rfl, by simp⟩
  | cons page pages inductionHypothesis =>
    obtain ⟨page', rebuilt, first⟩ := getItemPosition_upToDate inRange hasSlides (upToDate page (by simp))
    obtain ⟨pages', rest, others⟩ := inductionHypothesis fun later member => upToDate later (by simp [member])
    refine ⟨page' :: pages', ?_, ?_⟩
    · rw [List.mapM_cons, rebuilt, rest]
      rfl
    · intro later member
      obtain rfl | member := List.mem_cons.mp member
      · exact first
      · exact others later member

/-! ## Runs of the pager -/

namespace State

/-- The menu has no title without a variant of the slides. -/
def MenuFits (menu : Option (Int × Nat)) (slides : List (List Lecture)) : Prop :=
  ∀ position titles, menu = some (position, titles) →
    ∃ slide : Nat, position = slide ∧ ∀ variants, slides[slide]? = some variants → titles ≤ variants.length

structure Invariant (state : State) (slides : List (List Lecture)) : Prop where
  hasSlides : HasSlides state.adapter.mOffice slides
  inRange : InRange state.adapter slides
  upToDate : ∀ page ∈ state.pages, UpToDate state.adapter slides page
  menuFits : MenuFits state.menu slides

/-- The pager asks for slides that exist, a click is on one of the titles, and an office that is loaded while the
menu is open has the variants of its titles. -/
def Guard (state : State) : Event → Prop
  | .instantiateItem position => 0 ≤ position ∧ ∃ count, state.adapter.getCount = .ok count ∧ position < count
  | .onTabReselected position => 0 ≤ position ∧ ∃ count, state.adapter.getCount = .ok count ∧ position < count
  | .onItemClick variant => 0 ≤ variant ∧ ∀ position titles, state.menu = some (position, titles) → variant < titles
  | .applyOffice office => ∃ slides, HasSlides office slides ∧ MenuFits state.menu slides
  | .destroyItem _ | .dismiss => True

section Steps

variable {state : State} {slides : List (List Lecture)}

theorem Invariant.exists_slide (invariant : state.Invariant slides) {position : Int} (nonnegative : 0 ≤ position)
    (exists_count : ∃ count, state.adapter.getCount = .ok count ∧ position < count) :
    ∃ (slide : Nat) (variants : List Lecture), position = slide ∧ slides[slide]? = some variants := by
  obtain ⟨count, counted, bound⟩ := exists_count
  obtain ⟨slide, rfl⟩ := Int.eq_ofNat_of_zero_le nonnegative
  rw [getCount_slides invariant.hasSlides] at counted
  obtain rfl := Except.ok.inj counted
  have inside : slide < slides.length := Int.ofNat_lt.mp bound
  exact ⟨slide, slides[slide], rfl, List.getElem?_eq_getElem inside⟩

theorem Invariant.instantiateItem (invariant : state.Invariant slides) {position : Int}
    (guarded : state.Guard (.instantiateItem position)) :
    ∃ next, state.instantiateItem position = .ok next ∧ next.Invariant slides := by
  obtain ⟨slide, variants, rfl, here⟩ := invariant.exists_slide guarded.1 guarded.2
  obtain ⟨variant, lecture, selected, shown⟩ := invariant.inRange slide variants here
  refine ⟨{ state with pages := state.pages ++ [⟨slide, variant, some lecture⟩] }, ?_, { invariant with upToDate := ?_ }⟩
  · simp only [State.instantiateItem, getItem, selected, loadText_slides invariant.hasSlides here shown, bind,
      Except.bind, pure, Except.pure]
  · intro page member
    obtain member | member := List.mem_append.mp member
    · exact invariant.upToDate page member
    · obtain rfl := List.mem_singleton.mp member
      exact ⟨slide, variant, variants, lecture, here, shown, selected, rfl⟩

theorem Invariant.onTabReselected (invariant : state.Invariant slides) {position : Int}
    (guarded : state.Guard (.onTabReselected position)) :
    ∃ next, state.onTabReselected position = .ok next ∧ next.Invariant slides := by
  obtain ⟨slide, variants, rfl, here⟩ := invariant.exists_slide guarded.1 guarded.2
  simp only [State.onTabReselected, hasVariants_slides invariant.hasSlides here,
    getLectureVariants_slides invariant.hasSlides here, bind, Except.bind, pure, Except.pure]
  split
  case isFalse => exact ⟨state, rfl, invariant⟩
  case isTrue =>
    refine ⟨_, rfl, { invariant with menuFits := ?_ }⟩
    intro position titles opened
    obtain ⟨rfl, rfl⟩ := Prod.mk.inj (Option.some.inj opened)
    refine ⟨slide, rfl, fun others same => ?_⟩
    obtain rfl := Option.some.inj (here.symm.trans same)
    simp

theorem menuFits_none (slides : List (List Lecture)) : MenuFits none slides := nofun

/-- A choice in the menu brings every page up to date, also when the office was loaded again behind the menu. -/
theorem Invariant.onItemClick (invariant : state.Invariant slides) {variant : Int}
    (guarded : state.Guard (.onItemClick variant)) :
    ∃ next, state.onItemClick variant = .ok next ∧ next.Invariant slides := by
  unfold State.onItemClick
  cases opened : state.menu with
  | none => exact ⟨state, rfl, invariant⟩
  | some menu =>
    obtain ⟨position, titles⟩ := menu
    obtain ⟨slide, rfl, fits⟩ := invariant.menuFits position titles opened
    obtain ⟨chosen, rfl⟩ := Int.eq_ofNat_of_zero_le guarded.1
    have isTitle : chosen < titles := Int.ofNat_lt.mp (guarded.2 slide titles opened)
    simp only [LecturePagerAdapter.setLectureVariantId, getCount_slides invariant.hasSlides, bind, Except.bind]
    by_cases bound : (slide : Int) < slides.length
    · have here : slides[slide]? = some slides[slide] := List.getElem?_eq_getElem (Int.ofNat_lt.mp bound)
      have isVariant : chosen < slides[slide].length := Nat.lt_of_lt_of_le isTitle (fits _ here)
      have inRange := inRange_put invariant.inRange here (List.getElem?_eq_getElem isVariant)
      obtain ⟨pages, rebuilt, upToDate⟩ := mapM_getItemPosition inRange invariant.hasSlides invariant.upToDate
      simp only [bound, if_true, pure, Except.pure, rebuilt]
      exact ⟨⟨_, pages, none⟩, rfl, invariant.hasSlides, inRange, upToDate, menuFits_none slides⟩
    · -- The slide of the menu is gone: nothing is selected.
      simp only [bound, if_false, pure, Except.pure]
      exact ⟨_, rfl, { invariant with menuFits := menuFits_none slides }⟩

theorem Invariant.apply (invariant : state.Invariant slides) {event : Event} (guarded : state.Guard event) :
    ∃ next, state.apply event = .ok next ∧ ∃ slides', next.Invariant slides' := by
  cases event with
  | instantiateItem position =>
    obtain ⟨next, applied, kept⟩ := invariant.instantiateItem guarded
    exact ⟨next, applied, slides, kept⟩
  | onTabReselected position =>
    obtain ⟨next, applied, kept⟩ := invariant.onTabReselected guarded
    exact ⟨next, applied, slides, kept⟩
  | onItemClick variant =>
    obtain ⟨next, applied, kept⟩ := invariant.onItemClick guarded
    exact ⟨next, applied, slides, kept⟩
  | destroyItem position =>
    refine ⟨_, rfl, slides, { invariant with upToDate := ?_ }⟩
    intro page member
    exact invariant.upToDate page (List.mem_of_mem_filter member)
  | dismiss => exact ⟨_, rfl, slides, { invariant with menuFits := menuFits_none slides }⟩
  | applyOffice office =>
    obtain ⟨slides', hasSlides, menuFits⟩ := guarded
    exact ⟨_, rfl, slides', hasSlides, inRange_of hasSlides, by simp, menuFits⟩

theorem invariant_start {office : Office} (hasSlides : HasSlides office slides) :
    (start office).Invariant slides :=
  ⟨hasSlides, inRange_of hasSlides, by simp [start], menuFits_none slides⟩

/-- Whatever the reader selects and whatever is loaded again, nothing is thrown and every page shows the variant
that is selected for its slide. -/
theorem pages_show_selected_variants {office : Office} (hasSlides : HasSlides office slides) {events : List Event}
    (allowed : Runs.AllowedUntil apply Guard (start office) events) :
    ∃ final, (start office).run events = .ok final ∧
      ∀ page ∈ final.pages, final.adapter.getLecture page.position = .ok page.shown ∧ page.shown.isSome := by
  obtain ⟨final, ran, slides', invariant⟩ := Runs.safe_foldlM (fun state => ∃ slides, state.Invariant slides)
    (fun state event guarded ⟨_, invariant⟩ => invariant.apply guarded) allowed ⟨slides, invariant_start hasSlides⟩
  refine ⟨final, ran, fun page member => ?_⟩
  have upToDate := invariant.upToDate page member
  refine ⟨upToDate.getLecture invariant.hasSlides, ?_⟩
  obtain ⟨position, variant, variants, lecture, -, -, -, rfl⟩ := upToDate
  rfl

end Steps

namespace Sunday

def slides : List (List Lecture) := [[⟨some "lecture_1"⟩, ⟨some "lecture_1_breve"⟩], [⟨some "psaume"⟩]]

def officeOf (slides : List (List Lecture)) : Office :=
  ⟨none, some [some ⟨some (slides.map fun variants => some ⟨variants.map some⟩)⟩]⟩

theorem hasSlides : HasSlides (officeOf slides) slides := ⟨rfl, by decide⟩

/-- Two pages are made, the menu is opened, the office is loaded again, and the short form is chosen. -/
def events : List Event :=
  [.instantiateItem 0, .instantiateItem 1, .onTabReselected 0, .applyOffice (officeOf slides), .instantiateItem 0,
    .onItemClick 1]

theorem menuFits : MenuFits (some (0, 2)) slides := by
  intro position titles opened
  obtain ⟨rfl, rfl⟩ := Prod.mk.inj (Option.some.inj opened)
  refine ⟨0, rfl, fun variants here => ?_⟩
  obtain rfl := Option.some.inj here
  decide

theorem allowed : Runs.AllowedUntil apply Guard (start (officeOf slides)) events := by
  refine .cons ⟨by decide, 2, rfl, by decide⟩ rfl (.cons ⟨by decide, 2, rfl, by decide⟩ rfl ?_)
  refine .cons ⟨by decide, 2, rfl, by decide⟩ rfl (.cons ⟨slides, hasSlides, menuFits⟩ rfl ?_)
  refine .cons ⟨by decide, 2, rfl, by decide⟩ rfl (.cons ⟨by decide, fun position titles opened => ?_⟩ rfl trivial)
  obtain ⟨rfl, rfl⟩ := Prod.mk.inj (Option.some.inj opened)
  decide

theorem short_form_shown :
    ∃ final, (start (officeOf slides)).run events = .ok final ∧
      final.pages.map LectureFragment.shown = [some ⟨some "lecture_1_breve"⟩] ∧
      ∀ page ∈ final.pages, final.adapter.getLecture page.position = .ok page.shown ∧ page.shown.isSome := by
  obtain ⟨final, ran, shown⟩ := pages_show_selected_variants hasSlides allowed
  refine ⟨final, ran, ?_, shown⟩
  obtain rfl := Except.ok.inj ran
  rfl

-- A menu that is left open over an office that has lost a variant: the choice of it throws.
example : (start (officeOf slides)).run
    [.onTabReselected 0, .applyOffice (officeOf [[⟨some "lecture_1"⟩]]), .instantiateItem 0, .onItemClick 1] =
      .error .runtimeException := rfl

end Sunday

end State

end Aelf.Lectures.Slides
