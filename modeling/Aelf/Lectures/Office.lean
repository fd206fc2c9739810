import Mathlib.Data.List.Basic

/-! # Offices

`OfficeTypes`, the office a server answer decodes to, and the exceptions that the
loading code tells apart.  A reference that may be null is an `Option`. -/

namespace Aelf.Lectures

/-! ## Exceptions -/

/-- The exception classes that some `catch` clause of the lectures package distinguishes. -/
inductive JavaException where
  | ioException
  | invalidClassException
  | classNotFoundException
  | runtimeException
deriving DecidableEq, Repr

namespace JavaException

/-- `InvalidClassException` is a subclass of `IOException`. -/
def isIOException : JavaException → Bool
  | ioException | invalidClassException => true
  | classNotFoundException | runtimeException => false

def isRuntimeException : JavaException → Bool
  | runtimeException => true
  | ioException | invalidClassException | classNotFoundException => false

end JavaException

/-! ## Office types -/

inductive OfficeTypes where
  | messe
  | lectures
  | laudes
  | tierce
  | sexte
  | none
  | vepres
  | complies
deriving DecidableEq, Repr

namespace OfficeTypes

def values : List OfficeTypes := [messe, lectures, laudes, tierce, sexte, none, vepres, complies]

def position : OfficeTypes → Nat
  | messe => 0
  | lectures => 1
  | laudes => 2
  | tierce => 3
  | sexte => 4
  | none => 5
  | vepres => 6
  | complies => 7

/-- The `name` field, which is also `toString`. -/
def toString : OfficeTypes → String
  | messe => "lectures_messe"
  | lectures => "lectures_lectures"
  | laudes => "lectures_laudes"
  | tierce => "lectures_tierce"
  | sexte => "lectures_sexte"
  | none => "lectures_none"
  | vepres => "lectures_vepres"
  | complies => "lectures_complies"

/-- `name.split("_")[1]` -/
def urlName (what : OfficeTypes) : String :=
  String.ofList ((what.toString.toList.splitOn '_').getD 1 [])

def apiName (what : OfficeTypes) : String :=
  if what.position = 0 then "messes" else what.urlName

theorem toString_injective : Function.Injective toString := by
  intro first second
  cases first <;> cases second <;> decide

end OfficeTypes

/-! ## Office contents -/

structure Lecture where
  key : Option String
deriving DecidableEq, Repr

structure LectureVariants where
  mLectures : List (Option Lecture)
deriving DecidableEq, Repr

structure OfficeVariant where
  lectures : Option (List (Option LectureVariants))
deriving DecidableEq, Repr

structure OfficeInformations where
  region : Option String
deriving DecidableEq, Repr

structure Office where
  informations : Option OfficeInformations
  variants : Option (List (Option OfficeVariant))
deriving DecidableEq, Repr

/-- Reading through a null reference throws a `NullPointerException`. -/
def deref {α : Type} : Option α → Except JavaException α
  | some value => .ok value
  | .none => .error .runtimeException

namespace Office

/-- The two nested loops of `getLectures`, from the lectures already collected. -/
def collectLectures : List (Option LectureVariants) → List (Option OfficeVariant) →
    Except JavaException (List (Option LectureVariants))
  | lectures, [] => .ok lectures
  | lectures, officeVariant :: others => do
    let officeVariant ← deref officeVariant
    let lectureVariants ← deref officeVariant.lectures
    collectLectures (lectures ++ lectureVariants) others

def getLectures (office : Office) : Except JavaException (List (Option LectureVariants)) := do
  let variants ← deref office.variants
  collectLectures [] variants

/-- Every variant is there and has its list of lectures. -/
def Complete (office : Office) : Prop :=
  ∃ variants, office.variants = some variants ∧
    ∀ officeVariant ∈ variants, ∃ variant : OfficeVariant, officeVariant = some variant ∧ variant.lectures ≠ .none

theorem collectLectures_ok_iff (lectures : List (Option LectureVariants))
    (variants : List (Option OfficeVariant)) :
    (∃ result, collectLectures lectures variants = .ok result) ↔
      ∀ officeVariant ∈ variants, ∃ variant : OfficeVariant, officeVariant = some variant ∧ variant.lectures ≠ .none := by
  induction variants generalizing lectures with
  | nil => simp [collectLectures]
  | cons officeVariant others inductionHypothesis =>
    rw [List.forall_mem_cons]
    cases officeVariant with
    | none => simp [collectLectures, deref, bind, Except.bind]
    | some variant =>
      cases variantLectures : variant.lectures with
      | none => simp [collectLectures, deref, bind, Except.bind, variantLectures]
      | some lectureVariants =>
        simpa [collectLectures, deref, bind, Except.bind, variantLectures] using
          inductionHypothesis (lectures ++ lectureVariants)

/-- `getLectures` succeeds exactly on complete offices. -/
theorem getLectures_ok_iff (office : Office) :
    (∃ result, office.getLectures = .ok result) ↔ office.Complete := by
  unfold getLectures Complete
  cases variants : office.variants with
  | none => simp [deref, bind, Except.bind]
  | some officeVariants =>
    simpa [deref, bind, Except.bind] using collectLectures_ok_iff [] officeVariants

end Office

end Aelf.Lectures
