import Aelf.Lectures.IntentUri
import Mathlib.Data.List.Induction
import Mathlib.Data.List.Nodup

/-! # Sharing a slide

A slide of an office has one lecture or several variants of it.  `getUri` shares the key of
the variant that is shown, as the pager adapter remembers it; `onLectureLoaded` looks for
the key of the link among the slides of the office. -/

namespace Aelf.Lectures

open Aelf.Library

/-! ## Lookup in an office -/

/-- `List.get`, which throws when the index is out of range. -/
def javaGet {β : Type} (elements : List β) (index : Int) : Except JavaException β :=
  if index < 0 then .error .runtimeException else deref elements[index.toNat]?

@[simp] theorem javaGet_natCast {β : Type} (elements : List β) (index : Nat) :
    javaGet elements index = deref elements[index]? := by
  have notNegative : ¬(index : Int) < 0 := by omega
  simp [javaGet, notNegative]

def LectureVariants.get (lectureVariants : LectureVariants) (variant : Int) : Except JavaException (Option Lecture) :=
  javaGet lectureVariants.mLectures variant

namespace Office

/-- The loop of `getLecturePosition`, from the position before the lectures that are left. -/
def positionAfter (key : Text) : Int → List (Option LectureVariants) → Except JavaException Int
  | _, [] => return -1
  | position, lectureVariants :: others => do
    let lectureVariants ← deref lectureVariants
    let lecture ← deref (← lectureVariants.get 0)
    if lecture.key.map String.toList = some key then return position + 1
    else positionAfter key (position + 1) others

def getLecturePosition (office : Office) (key : Text) : Except JavaException Int := do
  positionAfter key (-1) (← office.getLectures)

end Office

/-- The position that `onLectureLoaded` sets. -/
def Shown.onLectureLoaded (shown : Shown) (office : Option Office) (isSuccess : Bool) : Except JavaException Shown :=
  match isSuccess, shown.whatwhen.anchor, office with
  | true, some anchor, some office => do
    let position ← office.getLecturePosition anchor
    return { shown with position }
  | _, _, _ => return shown

/-! ## The pager adapter -/

/-- `SparseIntArray` -/
def SparseIntArray := Int → Option Int

namespace SparseIntArray

def empty : SparseIntArray := fun _ => none

def get (array : SparseIntArray) (key valueIfKeyNotFound : Int) : Int := (array key).getD valueIfKeyNotFound

def put (array : SparseIntArray) (key value : Int) : SparseIntArray := Function.update array key (some value)

theorem get_put_self (array : SparseIntArray) (key value valueIfKeyNotFound : Int) :
    (array.put key value).get key valueIfKeyNotFound = value := by
  have found : array.put key value key = some value := Function.update_self _ _ _
  rw [get, found]
  rfl

theorem get_put_of_ne (array : SparseIntArray) {key other : Int} (value valueIfKeyNotFound : Int)
    (different : other ≠ key) :
    (array.put key value).get other valueIfKeyNotFound = array.get other valueIfKeyNotFound := by
  have same : array.put key value other = array other := Function.update_of_ne different _ _
  rw [get, same]
  rfl

end SparseIntArray

structure LecturePagerAdapter where
  mOffice : Office
  mVariantIds : SparseIntArray

namespace LecturePagerAdapter

/-- The constructor. -/
def of (office : Office) : LecturePagerAdapter := ⟨office, .empty⟩

def getCount (adapter : LecturePagerAdapter) : Except JavaException Int := do
  return (← adapter.mOffice.getLectures).length

def getLectureVariants (adapter : LecturePagerAdapter) (position : Int) :
    Except JavaException (Option LectureVariants) := do
  if position < (← adapter.getCount) then javaGet (← adapter.mOffice.getLectures) position
  else return none

def getLecture (adapter : LecturePagerAdapter) (position : Int) : Except JavaException (Option Lecture) := do
  match ← adapter.getLectureVariants position with
  | none => return none
  | some lectureVariants => lectureVariants.get (adapter.mVariantIds.get position 0)

def setLectureVariantId (adapter : LecturePagerAdapter) (position variant : Int) :
    Except JavaException LecturePagerAdapter := do
  if position < (← adapter.getCount) then return { adapter with mVariantIds := adapter.mVariantIds.put position variant }
  else return adapter

/-- A sequence of calls, as positions with variants. -/
def setLectureVariantIds (adapter : LecturePagerAdapter) (calls : List (Int × Int)) :
    Except JavaException LecturePagerAdapter :=
  calls.foldlM (fun adapter call => adapter.setLectureVariantId call.1 call.2) adapter

/-- The key that `getUri` puts in the link when the slide is shown. -/
def sharedKey (adapter : LecturePagerAdapter) (position : Int) : Except JavaException (Option Text) := do
  let lecture ← deref (← adapter.getLecture position)
  return lecture.key.map String.toList

def getUri (adapter : LecturePagerAdapter) (position : Int) (what : OfficeTypes) (when : AelfDate) (region : Text) :
    Except JavaException Text := do
  return buildUri what when region (← adapter.sharedKey position)

end LecturePagerAdapter

/-! ## Offices whose lectures have distinct keys -/

/-- The lecture variants with the given keys. -/
def keyedVariants (keys : List String) : LectureVariants := ⟨keys.map fun key => some ⟨some key⟩⟩

/-- The slides of the office have the given keys, by position and variant, and no key occurs twice. -/
structure Office.Keyed (office : Office) (keys : List (List String)) : Prop where
  lectures : office.getLectures = .ok (keys.map fun variants => some (keyedVariants variants))
  nonempty : ∀ variants ∈ keys, variants ≠ []
  distinct : keys.flatten.Nodup

/-- The link to the slide that is shown reopens it, wherever the reader was. -/
def LecturePagerAdapter.Reopens (adapter : LecturePagerAdapter) (position : Int) : Prop :=
  ∃ key, adapter.sharedKey position = .ok (some key) ∧
    ∀ shown : Shown, shown.whatwhen.anchor = some key →
      shown.onLectureLoaded (some adapter.mOffice) true = .ok { shown with position }

/-- The variant that a sequence of calls selects at a position. -/
def selected (calls : List (Int × Int)) (position : Int) : Int :=
  ((calls.filter fun call => call.1 = position).getLast?.map Prod.snd).getD 0

theorem get_keyedVariants (keys : List String) (variant : Nat) :
    (keyedVariants keys).get variant = deref (keys[variant]?.map fun key => some ⟨some key⟩) := by
  simp [LectureVariants.get, keyedVariants]

/-- Only the first key of each position is looked at. -/
theorem positionAfter_keyed (keys : List (List String)) (key : String) (position : Int)
    (nonempty : ∀ variants ∈ keys, variants ≠ []) :
    Office.positionAfter key.toList position (keys.map fun variants => some (keyedVariants variants)) =
      .ok (match keys.findIdx? fun variants => variants.head? = some key with
        | some index => position + 1 + index
        | none => -1) := by
  induction keys generalizing position with
  | nil => rfl
  | cons variants keys inductionHypothesis =>
    obtain ⟨first, others, rfl⟩ := List.exists_cons_of_ne_nil (nonempty variants (by simp))
    have rest := inductionHypothesis (position + 1) fun variants member => nonempty variants (by simp [member])
    have firstLecture : (keyedVariants (first :: others)).get 0 = .ok (some ⟨some first⟩) := rfl
    rw [List.map_cons, Office.positionAfter, List.findIdx?_cons]
    by_cases found : first = key
    · subst found
      simp [deref, firstLecture, bind, Except.bind, pure, Except.pure]
    · have different : first.toList ≠ key.toList := fun same => found (String.toList_inj.mp same)
      simp only [deref, bind, Except.bind, firstLecture, Option.map_some, Option.some.injEq, different, if_false, rest,
        List.head?_cons, found, decide_false, Bool.false_eq_true]
      cases keys.findIdx? fun variants => variants.head? = some key with
      | none => rfl
      | some index =>
        simp only [Option.map_some, Nat.cast_succ]
        congr 1
        omega

theorem getLecturePosition_keyed {office : Office} {keys : List (List String)} (keyed : office.Keyed keys)
    (key : String) :
    office.getLecturePosition key.toList =
      .ok (match keys.findIdx? fun variants => variants.head? = some key with
        | some index => (index : Int)
        | none => -1) := by
  simp only [Office.getLecturePosition, keyed.lectures, bind, Except.bind]
  rw [positionAfter_keyed keys key (-1) keyed.nonempty]
  simp

/-- A key is found at a position exactly when it is the first one there. -/
theorem findIdx?_head {keys : List (List String)} (distinct : keys.flatten.Nodup) {position variant : Nat}
    {variants : List String} {key : String} (atPosition : keys[position]? = some variants)
    (atVariant : variants[variant]? = some key) :
    (keys.findIdx? fun variants => variants.head? = some key) = some position ↔ variant = 0 := by
  obtain ⟨positionBound, rfl⟩ := List.getElem?_eq_some_iff.mp atPosition
  obtain ⟨eachDistinct, disjoint⟩ := List.nodup_flatten.mp distinct
  have member : key ∈ keys[position] := List.mem_of_getElem? atVariant
  rw [List.findIdx?_eq_some_iff_getElem]
  constructor
  -- Within a slide the keys are distinct, and across slides too.
  · rintro ⟨_, isHead, _⟩
    have first : keys[position][0]? = some key := by simpa [List.head?_eq_getElem?] using isHead
    have unique := eachDistinct _ (List.getElem_mem positionBound)
    obtain ⟨variantBound, _⟩ := List.getElem?_eq_some_iff.mp atVariant
    exact (List.getElem?_inj variantBound unique).mp (atVariant.trans first.symm)
  · rintro rfl
    refine ⟨positionBound, by simpa [List.head?_eq_getElem?] using atVariant, ?_⟩
    intro earlier before
    have apart := List.pairwise_iff_getElem.mp disjoint earlier position (before.trans positionBound) positionBound before
    simp only [decide_eq_true_eq]
    intro isHead
    exact apart (List.mem_of_head? isHead) member

namespace LecturePagerAdapter

variable {adapter : LecturePagerAdapter} {keys : List (List String)}

theorem getCount_keyed (keyed : adapter.mOffice.Keyed keys) : adapter.getCount = .ok keys.length := by
  simp [getCount, keyed.lectures, bind, Except.bind, pure, Except.pure]

/-- The shared key is that of the variant that the adapter remembers. -/
theorem sharedKey_keyed (keyed : adapter.mOffice.Keyed keys) {position : Nat} {variants : List String}
    (atPosition : keys[position]? = some variants) (key : Text) :
    adapter.sharedKey position = .ok (some key) ↔
      ∃ variant : Nat, adapter.mVariantIds.get position 0 = variant ∧
        variants[variant]?.map String.toList = some key := by
  obtain ⟨bound, _⟩ := List.getElem?_eq_some_iff.mp atPosition
  have lectureVariants : adapter.getLectureVariants position = .ok (some (keyedVariants variants)) := by
    simp only [getLectureVariants, getCount_keyed keyed, keyed.lectures, javaGet_natCast, Nat.cast_lt, bound, if_true,
      List.getElem?_map, atPosition, bind, Except.bind]
    rfl
  simp only [sharedKey, getLecture, lectureVariants, bind, Except.bind]
  -- A negative variant, or one past the last, throws.
  cases selection : adapter.mVariantIds.get position 0 with
  | negSucc number => simp [LectureVariants.get, javaGet]
  | ofNat variant =>
    rw [Int.ofNat_eq_natCast, get_keyedVariants]
    cases atVariant : variants[variant]? with
    | none => simp [deref, atVariant]
    | some found => simp [deref, atVariant, pure, Except.pure]

theorem reopens_keyed (keyed : adapter.mOffice.Keyed keys) (position : Nat) (bound : position < keys.length) :
    adapter.Reopens position ↔ adapter.mVariantIds.get position 0 = 0 := by
  have atPosition : keys[position]? = some keys[position] := List.getElem?_eq_getElem bound
  have loaded : ∀ (key : String) (shown : Shown), shown.whatwhen.anchor = some key.toList →
      (shown.onLectureLoaded (some adapter.mOffice) true = .ok { shown with position } ↔
        (keys.findIdx? fun variants => variants.head? = some key) = some position) := by
    intro key shown anchor
    simp only [Shown.onLectureLoaded, anchor, getLecturePosition_keyed keyed, bind, Except.bind, pure, Except.pure]
    cases keys.findIdx? fun variants => variants.head? = some key with
    | none => simp
    | some index => simp
  constructor
  -- The position before the load does not matter, so the link is tried from the first slide.
  · rintro ⟨key, shared, reopened⟩
    obtain ⟨variant, selection, sameKey⟩ := (sharedKey_keyed keyed atPosition key).mp shared
    obtain ⟨found, atVariant, rfl⟩ := Option.map_eq_some_iff.mp sameKey
    let link : Shown := ⟨⟨none, none, some found.toList⟩, 0⟩
    have here := (loaded found link rfl).mp (reopened link rfl)
    rw [selection, (findIdx?_head keyed.distinct atPosition atVariant).mp here]
    rfl
  · intro first
    obtain ⟨key, others, variants⟩ := List.exists_cons_of_ne_nil (keyed.nonempty _ (List.getElem_mem bound))
    have atVariant : keys[position][0]? = some key := by simp [variants]
    refine ⟨key.toList, (sharedKey_keyed keyed atPosition _).mpr ⟨0, first, by simp [atVariant]⟩, ?_⟩
    intro shown anchor
    exact (loaded key shown anchor).mpr ((findIdx?_head keyed.distinct atPosition atVariant).mpr rfl)

end LecturePagerAdapter

/-! ## Selecting variants -/

theorem selected_concat (calls : List (Int × Int)) (call : Int × Int) (position : Int) :
    selected (calls ++ [call]) position = if call.1 = position then call.2 else selected calls position := by
  by_cases here : call.1 = position
  · simp [selected, here]
  · simp [selected, here]

namespace LecturePagerAdapter

/-- One call changes the variant at its position, if there is such a slide, and no other. -/
theorem setLectureVariantId_keyed {adapter : LecturePagerAdapter} {keys : List (List String)}
    (keyed : adapter.mOffice.Keyed keys) (position variant : Int) :
    adapter.setLectureVariantId position variant =
      .ok (if position < keys.length then { adapter with mVariantIds := adapter.mVariantIds.put position variant }
        else adapter) := by
  simp only [setLectureVariantId, getCount_keyed keyed, bind, Except.bind, pure, Except.pure]
  split <;> rfl

/-- After a run of calls the adapter remembers the last selection at every position. -/
theorem setLectureVariantIds_keyed {office : Office} {keys : List (List String)} (keyed : office.Keyed keys)
    (calls : List (Int × Int)) :
    ∃ mVariantIds, (of office).setLectureVariantIds calls = .ok ⟨office, mVariantIds⟩ ∧
      ∀ position : Int, position < keys.length → mVariantIds.get position 0 = selected calls position := by
  induction calls using List.reverseRecOn with
  | nil => exact ⟨.empty, rfl, fun _ _ => rfl⟩
  | append_singleton calls call inductionHypothesis =>
    obtain ⟨mVariantIds, before, remembered⟩ := inductionHypothesis
    have step : (of office).setLectureVariantIds (calls ++ [call]) =
        (LecturePagerAdapter.mk office mVariantIds).setLectureVariantId call.1 call.2 := by
      rw [setLectureVariantIds] at before ⊢
      rw [List.foldlM_append, before]
      exact bind_pure (m := Except JavaException) _
    rw [step, setLectureVariantId_keyed keyed]
    by_cases inRange : call.1 < keys.length
    · refine ⟨mVariantIds.put call.1 call.2, by simp [inRange], ?_⟩
      intro position bound
      rw [selected_concat]
      by_cases here : call.1 = position
      · rw [if_pos here, here, SparseIntArray.get_put_self]
      · rw [if_neg here, SparseIntArray.get_put_of_ne _ _ _ (Ne.symm here)]
        exact remembered position bound
    · refine ⟨mVariantIds, by simp [inRange], ?_⟩
      intro position bound
      have elsewhere : call.1 ≠ position := by omega
      rw [selected_concat, if_neg elsewhere]
      exact remembered position bound

end LecturePagerAdapter

/-- After any calls of `setLectureVariantId`, the link that is shared from a slide reopens that slide
exactly when the first variant is selected there. -/
theorem reopens_iff_first_variant {office : Office} {keys : List (List String)} (keyed : office.Keyed keys)
    (calls : List (Int × Int)) (position : Nat) (bound : position < keys.length) :
    ∃ adapter, (LecturePagerAdapter.of office).setLectureVariantIds calls = .ok adapter ∧
      (adapter.Reopens position ↔ selected calls position = 0) := by
  obtain ⟨mVariantIds, opened, remembered⟩ := LecturePagerAdapter.setLectureVariantIds_keyed keyed calls
  refine ⟨⟨office, mVariantIds⟩, opened, ?_⟩
  rw [← remembered position (by exact_mod_cast bound)]
  exact LecturePagerAdapter.reopens_keyed keyed position bound

/-! ## A reading with a short form -/

namespace ShortForm

def keys : List (List String) := [["lecture_1", "lecture_1_breve"], ["psaume"]]

def office : Office := ⟨none, some [some ⟨some (keys.map fun variants => some (keyedVariants variants))⟩]⟩

theorem keyed : office.Keyed keys := ⟨rfl, by decide, by decide⟩

/-- The reader looks at the short form and goes back to the long one. -/
theorem long_form_reopens :
    office.Keyed keys ∧ ∃ adapter,
      (LecturePagerAdapter.of office).setLectureVariantIds [(0, 1), (0, 0)] = .ok adapter ∧ adapter.Reopens 0 := by
  obtain ⟨adapter, opened, reopens⟩ := reopens_iff_first_variant keyed [(0, 1), (0, 0)] 0 (by decide)
  exact ⟨keyed, adapter, opened, reopens.mpr rfl⟩

/-- The link to the short form does not lead to its slide. -/
theorem short_form_not_reopened :
    ¬(office.Keyed keys → ∀ adapter, (LecturePagerAdapter.of office).setLectureVariantIds [(0, 1)] = .ok adapter →
      adapter.Reopens 0) := by
  intro reopens
  obtain ⟨mVariantIds, opened, remembered⟩ := LecturePagerAdapter.setLectureVariantIds_keyed keyed [(0, 1)]
  have reopened := reopens keyed ⟨office, mVariantIds⟩ opened
  have first := (LecturePagerAdapter.reopens_keyed keyed 0 (by decide)).mp reopened
  have second := remembered 0 (by decide)
  exact absurd (first.symm.trans second) (by decide)

end ShortForm

end Aelf.Lectures
