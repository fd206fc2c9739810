import Aelf.Library.Runs
import Aelf.Lectures.Cache
import Mathlib.Data.List.Induction
import Mathlib.Tactic.Tauto

/-! # The cache as a versioned map of dated offices

What the table is for, said without rows or text: a map from an office type and a
calendar day to the last office stored for them, from which a truncation removes
the days before its own and a drop removes everything.  The table refines that
map along every history of operations, and the map is read off the history by
looking for the last store that nothing cleared.

Rows are keyed and compared by the text of their day, so the refinement holds as
long as every year has four digits. -/

namespace Aelf.Lectures.CacheHistory

open Aelf.Library
open Aelf.Library.Calendar (Date)

variable {α : Type}

/-! ## Histories -/

/-- The arguments of a call to `store`. -/
structure Stored (α : Type) where
  what : OfficeTypes
  date : AelfDate
  office : Option α
  checksum : String
  createDate : IsoDate
  apiVersion : Int

inductive Operation (α : Type) where
  | store (stored : Stored α)
  | truncateBefore (date : AelfDate)
  | dropDatabase

def Stored.row (stored : Stored α) : Row α :=
  Cache.newRow stored.what stored.date stored.office stored.checksum stored.createDate stored.apiVersion

/-- What a later `load` finds of a store: the creation date has lost its fraction of a second. -/
def Stored.entry (stored : Stored α) : CacheEntry α :=
  ⟨stored.office, stored.checksum, ⟨stored.createDate.moment.truncate, true⟩⟩

def apply (cache : Cache α) : Operation α → Cache α
  | .store stored =>
    (Cache.store .done cache stored.what stored.date stored.office stored.checksum stored.createDate
      stored.apiVersion).2
  | .truncateBefore date => cache.truncateBefore date
  | .dropDatabase => cache.dropDatabase

def run (operations : List (Operation α)) : Cache α := operations.foldl apply Table.empty

/-- All the dates of a store lie in the years 0001 to 9999. -/
def Stored.FourDigitYears (stored : Stored α) : Prop :=
  FourDigitYear stored.date.day ∧ FourDigitYear stored.createDate.moment.date

def Operation.FourDigitYears : Operation α → Prop
  | .store stored => stored.FourDigitYears
  | .truncateBefore date => FourDigitYear date.day
  | .dropDatabase => True

/-! ## The abstract map -/

def VersionedMap (α : Type) := OfficeTypes → Date → Option (Stored α)

def VersionedMap.empty : VersionedMap α := fun _ _ => none

def VersionedMap.apply (map : VersionedMap α) : Operation α → VersionedMap α
  | .store stored => fun what day =>
    if stored.what = what ∧ stored.date.day = day then some stored else map what day
  | .truncateBefore date => fun what day => if day < date.day then none else map what day
  | .dropDatabase => VersionedMap.empty

def VersionedMap.run (operations : List (Operation α)) : VersionedMap α :=
  operations.foldl VersionedMap.apply VersionedMap.empty

/-- The table holds one row for each binding of the map, and no other. -/
structure Represents (cache : Cache α) (map : VersionedMap α) : Prop where
  bound : ∀ what day stored, map what day = some stored →
    stored.what = what ∧ stored.date.day = day ∧ stored.FourDigitYears
  written : ∀ row ∈ cache.rows, ∃ stored : Stored α, stored.FourDigitYears ∧ row = stored.row
  lookup : ∀ what (date : AelfDate), FourDigitYear date.day →
    cache.find? (date.toIsoString, what.toString) = (map what date.day).map Stored.row

theorem key_row_eq_iff {stored : Stored α} {what : OfficeTypes} {date : AelfDate}
    (storedYears : stored.FourDigitYears) (dateYear : FourDigitYear date.day) :
    stored.row.key = (date.toIsoString, what.toString) ↔ stored.what = what ∧ stored.date.day = date.day := by
  change (stored.date.toIsoString, stored.what.toString) = _ ↔ _
  rw [Prod.mk.injEq, AelfDate.toIsoString_inj storedYears.1 dateYear, OfficeTypes.toString_injective.eq_iff,
    and_comm]

theorem represents_store {cache : Cache α} {map : VersionedMap α} (related : Represents cache map)
    {stored : Stored α} (years : stored.FourDigitYears) :
    Represents (apply cache (.store stored)) (map.apply (.store stored)) where
  bound what day found equation := by
    simp only [VersionedMap.apply] at equation
    split at equation
    next same =>
      obtain rfl := Option.some.inj equation
      exact ⟨same.1, same.2, years⟩
    next => exact related.bound what day found equation
  written row member := by
    obtain rfl | ⟨old, _⟩ := (Table.mem_replaceRows stored.row row cache.rows).mp member
    · exact ⟨stored, years, rfl⟩
    · exact related.written row old
  lookup what date dateYear := by
    refine (Table.find?_insertOrReplace cache stored.row _).trans ?_
    rw [related.lookup what date dateYear]
    simp only [key_row_eq_iff years dateYear, VersionedMap.apply]
    split <;> rfl

theorem represents_truncateBefore {cache : Cache α} {map : VersionedMap α} (related : Represents cache map)
    {cutoff : AelfDate} (cutoffYear : FourDigitYear cutoff.day) :
    Represents (apply cache (.truncateBefore cutoff)) (map.apply (.truncateBefore cutoff)) where
  bound what day found equation := by
    simp only [VersionedMap.apply] at equation
    split at equation
    next => cases equation
    next => exact related.bound what day found equation
  written row member := related.written row (List.mem_of_mem_filter member)
  lookup what date dateYear := by
    refine (Table.find?_deleteWhere cache _ _).trans ?_
    rw [related.lookup what date dateYear]
    simp only [VersionedMap.apply]
    cases bound : map what date.day with
    | none => simp
    | some stored =>
      -- the row carries the text of its own date, which is the text of any date of that day
      have sameText : stored.row.date = date.toIsoString :=
        AelfDate.toIsoString_congr (related.bound what date.day stored bound).2.1
      rw [Option.map_some, Option.filter_some, sameText]
      by_cases earlier : date.day < cutoff.day
      · have textEarlier := (AelfDate.toIsoString_lt_iff dateYear cutoffYear).mpr earlier
        simp [earlier, textEarlier]
      · have textLater : ¬date.toIsoString < cutoff.toIsoString := fun below =>
          earlier ((AelfDate.toIsoString_lt_iff dateYear cutoffYear).mp below)
        simp [earlier, textLater]

theorem represents_empty : Represents (Table.empty : Cache α) VersionedMap.empty where
  bound _ _ _ equation := by cases equation
  written _ member := by cases member
  lookup _ _ _ := rfl

theorem represents_apply {cache : Cache α} {map : VersionedMap α} (related : Represents cache map)
    {operation : Operation α} (years : operation.FourDigitYears) :
    Represents (apply cache operation) (map.apply operation) := by
  cases operation with
  | store stored => exact represents_store related years
  | truncateBefore cutoff => exact represents_truncateBefore related years
  | dropDatabase => exact represents_empty

/-- The table refines the map along every history. -/
theorem represents_run (operations : List (Operation α))
    (years : ∀ operation ∈ operations, operation.FourDigitYears) :
    Represents (run operations) (VersionedMap.run operations) :=
  Runs.simulation_run apply VersionedMap.apply Represents
    (fun _ _ _ operationYears related => represents_apply related operationYears) years represents_empty

/-! ## The map read off the history -/

/-- A `store` for the same office type and the same calendar day. -/
def Operation.Stores (operation : Operation α) (what : OfficeTypes) (day : Date) : Prop :=
  ∃ stored, operation = .store stored ∧ stored.what = what ∧ stored.date.day = day

/-- A `dropDatabase`, or a `truncateBefore` of a strictly later day. -/
def Operation.Removes (operation : Operation α) (day : Date) : Prop :=
  operation = .dropDatabase ∨ ∃ date, operation = .truncateBefore date ∧ day < date.day

/-- `stored` is the last store for the office type and the day, and `later` are the operations
that followed it. -/
def IsLastStore (operations : List (Operation α)) (what : OfficeTypes) (day : Date) (stored : Stored α)
    (later : List (Operation α)) : Prop :=
  stored.what = what ∧ stored.date.day = day ∧
    (∃ earlier, operations = earlier ++ .store stored :: later) ∧
    ∀ operation ∈ later, ¬operation.Stores what day

/-- The last store for the office type and the day is there, and nothing removed it since. -/
def Holds (operations : List (Operation α)) (what : OfficeTypes) (day : Date) (stored : Stored α) : Prop :=
  ∃ later, IsLastStore operations what day stored later ∧ ∀ operation ∈ later, ¬operation.Removes day

theorem holds_snoc (operations : List (Operation α)) (operation : Operation α) (what : OfficeTypes)
    (day : Date) (stored : Stored α) :
    Holds (operations ++ [operation]) what day stored ↔
      (operation = .store stored ∧ stored.what = what ∧ stored.date.day = day) ∨
        (¬operation.Stores what day ∧ ¬operation.Removes day ∧ Holds operations what day stored) := by
  constructor
  · rintro ⟨later, ⟨sameType, sameDay, ⟨earlier, split⟩, noStore⟩, noRemove⟩
    -- either nothing came after the store, or the new operation is the last of what did
    obtain rfl | ⟨middle, last, rfl⟩ := List.eq_nil_or_concat later
    · obtain ⟨_, last⟩ := List.append_inj' split rfl
      exact .inl ⟨List.singleton_inj.mp last, sameType, sameDay⟩
    · rw [List.concat_eq_append, ← List.cons_append, ← List.append_assoc] at split
      obtain ⟨front, last⟩ := List.append_inj' split rfl
      obtain rfl := List.singleton_inj.mp last
      simp only [List.concat_eq_append, List.forall_mem_append, List.forall_mem_singleton] at noStore noRemove
      exact .inr ⟨noStore.2, noRemove.2, middle, ⟨sameType, sameDay, ⟨earlier, front⟩, noStore.1⟩, noRemove.1⟩
  · rintro (⟨rfl, sameType, sameDay⟩ | ⟨noStore, noRemove, later, ⟨sameType, sameDay, ⟨earlier, rfl⟩, noStores⟩, noRemoves⟩)
    · exact ⟨[], ⟨sameType, sameDay, ⟨operations, rfl⟩, by simp⟩, by simp⟩
    · refine ⟨later ++ [operation], ⟨sameType, sameDay, ⟨earlier, by simp⟩, ?_⟩, ?_⟩
      · rw [List.forall_mem_append]
        exact ⟨noStores, by simpa using noStore⟩
      · rw [List.forall_mem_append]
        exact ⟨noRemoves, by simpa using noRemove⟩

theorem run_snoc (operations : List (Operation α)) (operation : Operation α) :
    VersionedMap.run (operations ++ [operation]) = (VersionedMap.run operations).apply operation := by
  simp [VersionedMap.run]

theorem run_eq_some_iff (operations : List (Operation α)) (what : OfficeTypes) (day : Date)
    (stored : Stored α) :
    VersionedMap.run operations what day = some stored ↔ Holds operations what day stored := by
  induction operations using List.reverseRecOn with
  | nil =>
    constructor
    · intro found
      cases found
    · rintro ⟨later, ⟨_, _, ⟨earlier, split⟩, _⟩, _⟩
      simp at split
  | append_singleton operations operation inductionHypothesis =>
    -- the last operation decides: it stores the entry, removes it, or leaves what was there
    rw [holds_snoc, ← inductionHypothesis, run_snoc]
    cases operation with
    | store newer =>
      simp only [VersionedMap.apply, Operation.Stores, Operation.Removes, Operation.store.injEq,
        reduceCtorEq, false_and, exists_false, or_self, not_false_eq_true, true_and, exists_eq_left']
      split
      next same => grind
      next different => grind
    | truncateBefore cutoff =>
      simp only [VersionedMap.apply, Operation.Stores, Operation.Removes, reduceCtorEq, false_and,
        exists_false, not_false_eq_true, true_and, false_or, Operation.truncateBefore.injEq,
        exists_eq_left', not_lt]
      split
      next earlier => simp [earlier]
      next later => simp [not_lt.mp later]
    | dropDatabase => simp [VersionedMap.apply, VersionedMap.empty, Operation.Removes]

/-! ## The two read paths -/

section Reading

variable [HttpDateFormat]

theorem load_of_represents {cache : Cache α} {map : VersionedMap α} (related : Represents cache map)
    (what : OfficeTypes) {date : AelfDate} (dateYear : FourDigitYear date.day) (version : Int) :
    cache.load what date version =
      .ok (((map what date.day).filter fun stored => version ≤ stored.apiVersion).map Stored.entry) := by
  unfold Cache.load
  rw [Cache.queryRow_eq, related.lookup what date dateYear]
  cases bound : map what date.day with
  | none => rfl
  | some stored =>
    have readBack := IsoDate.ofString_toString stored.createDate
      (related.bound what date.day stored bound).2.2.2.1
    rw [Option.map_some, Option.filter_some, Option.filter_some]
    by_cases recent : version ≤ stored.apiVersion
    · simp [recent, Stored.row, Cache.newRow, Stored.entry, readBack]
    · simp [recent, Stored.row, Cache.newRow]

/-- At a typed index, the listing shows what `load` finds, without the office. -/
theorem get_listing_iff_load {cache : Cache α} {map : VersionedMap α} (related : Represents cache map)
    {since : AelfDate} (sinceYear : FourDigitYear since.day) (version : Int) (what : OfficeTypes)
    {date : AelfDate} (dateYear : FourDigitYear date.day) (entry : CacheEntry α) :
    (cache.listCachedEntries since version).get (.of what date) = some entry ↔
      since.day ≤ date.day ∧
        ∃ loaded, cache.load what date version = .ok (some loaded) ∧ entry = { loaded with office := none } := by
  rw [Cache.get_listCachedEntries, load_of_represents related what dateYear]
  change ((cache.find? (date.toIsoString, what.toString)).filter _).map _ = _ ↔ _
  rw [related.lookup what date dateYear]
  cases bound : map what date.day with
  | none => simp
  | some stored =>
    obtain ⟨_, sameDay, years⟩ := related.bound what date.day stored bound
    have readBack := IsoDate.ofString_toString stored.createDate years.2.1
    have dateOrder : since.toIsoString ≤ stored.row.date ↔ since.day ≤ date.day := by
      rw [← sameDay]
      exact AelfDate.toIsoString_le_iff sinceYear years.1
    have sameEntry : Cache.listedEntry stored.row = { stored.entry with office := none } := by
      simp [Cache.listedEntry, Stored.row, Cache.newRow, Stored.entry, readBack]
    have sameVersion : stored.row.create_version = stored.apiVersion := rfl
    -- both paths filter the same row: the listing by date and version, `load` by version
    rw [Option.map_some, Option.filter_some, Option.filter_some]
    simp only [Cache.isListed, dateOrder, sameVersion]
    by_cases later : since.day ≤ date.day <;> by_cases recent : version ≤ stored.apiVersion <;>
      simp [later, recent, sameEntry, eq_comm]

theorem listCachedEntries_of_represents {cache : Cache α} {map : VersionedMap α}
    (related : Represents cache map) {since : AelfDate} (sinceYear : FourDigitYear since.day)
    (version : Int) (index : CacheEntryIndex) (entry : CacheEntry α) :
    (cache.listCachedEntries since version).get index = some entry ↔
      ∃ what date, FourDigitYear date.day ∧ index = .of what date ∧ since.day ≤ date.day ∧
        ∃ loaded, cache.load what date version = .ok (some loaded) ∧ entry = { loaded with office := none } := by
  constructor
  · intro listed
    have found := listed
    rw [Cache.get_listCachedEntries] at found
    obtain ⟨row, found, _⟩ := Option.map_eq_some_iff.mp found
    obtain ⟨member, keyed⟩ :=
      (cache.find?_eq_some_iff _ _).mp (Option.filter_eq_some_iff.mp found).1
    obtain ⟨stored, years, rfl⟩ := related.written row member
    have sameIndex : index = .of stored.what stored.date := by
      obtain ⟨what_str, when_str⟩ := index
      obtain ⟨rfl, rfl⟩ := Prod.mk.inj keyed
      rfl
    refine ⟨stored.what, stored.date, years.1, sameIndex, ?_⟩
    rw [sameIndex] at listed
    exact (get_listing_iff_load related sinceYear version _ years.1 entry).mp listed
  · rintro ⟨what, date, dateYear, rfl, shown⟩
    exact (get_listing_iff_load related sinceYear version what dateYear entry).mpr shown

/-- Along every history, `load` returns the last store for the office type and the day unless it
was removed or its version is too old, and the listing shows exactly what `load` finds from its
first day on. -/
theorem cache_behaves_as_versioned_map (operations : List (Operation α))
    (years : ∀ operation ∈ operations, operation.FourDigitYears) (what : OfficeTypes) (date : AelfDate)
    (dateYear : FourDigitYear date.day) (version : Int) :
    (∃ result, (run operations).load what date version = .ok result ∧
      ∀ entry, result = some entry ↔
        ∃ stored later, IsLastStore operations what date.day stored later ∧
          (∀ operation ∈ later, ¬operation.Removes date.day) ∧ version ≤ stored.apiVersion ∧
          entry = stored.entry) ∧
    ∀ since : AelfDate, FourDigitYear since.day → ∀ index entry,
      ((run operations).listCachedEntries since version).get index = some entry ↔
        ∃ what date, FourDigitYear date.day ∧ index = .of what date ∧ since.day ≤ date.day ∧
          ∃ loaded, (run operations).load what date version = .ok (some loaded) ∧
            entry = { loaded with office := none } := by
  have related := represents_run operations years
  refine ⟨⟨_, load_of_represents related what dateYear version, fun entry => ?_⟩, ?_⟩
  · rw [Option.map_eq_some_iff]
    constructor
    · rintro ⟨stored, found, rfl⟩
      obtain ⟨found, recent⟩ := Option.filter_eq_some_iff.mp found
      obtain ⟨later, isLast, kept⟩ := (run_eq_some_iff operations what date.day stored).mp found
      exact ⟨stored, later, isLast, kept, by simpa using recent, rfl⟩
    · rintro ⟨stored, later, isLast, kept, recent, rfl⟩
      have found := (run_eq_some_iff operations what date.day stored).mpr ⟨later, isLast, kept⟩
      exact ⟨stored, by simp [found, recent], rfl⟩
  · intro since sinceYear index entry
    exact listCachedEntries_of_represents related sinceYear version index entry

end Reading

namespace KeptMass

def day : AelfDate := .ofDay ⟨2024, 5, 20, by decide⟩

def mass : Stored Unit := ⟨.messe, day, some (), "checksum", ⟨⟨⟨2024, 5, 19, by decide⟩, 1500, by decide⟩, true⟩, 82⟩

/-- A mass, and a truncation of the days before its own. -/
def history : List (Operation Unit) := [.store mass, .truncateBefore day]

/-- The mass is still there, and its creation date has lost half a second. -/
theorem load_keeps_mass :
    letI : HttpDateFormat := ⟨fun _ => none⟩
    (∀ operation ∈ history, operation.FourDigitYears) ∧ FourDigitYear day.day ∧
      (run history).load .messe day 82 = .ok (some mass.entry) ∧
      mass.entry.creationDate.toString = "2024-05-19T00:00:01" := by
  let _ : HttpDateFormat := ⟨fun _ => none⟩
  have years : ∀ operation ∈ history, operation.FourDigitYears := by
    intro operation member
    obtain rfl | rfl := List.mem_pair.mp member
    · exact ⟨by decide, by decide⟩
    · exact (by decide : FourDigitYear day.day)
  have dateYear : FourDigitYear day.day := by decide
  obtain ⟨⟨result, loaded, isEntry⟩, _⟩ := cache_behaves_as_versioned_map history years .messe day dateYear 82
  have lastStore : IsLastStore history .messe day.day mass [.truncateBefore day] := by
    refine ⟨rfl, rfl, ⟨[], rfl⟩, ?_⟩
    simp [Operation.Stores]
  have kept : ∀ operation ∈ [Operation.truncateBefore (α := Unit) day], ¬operation.Removes day.day := by
    simp [Operation.Removes]
  obtain rfl := (isEntry mass.entry).mpr ⟨mass, _, lastStore, kept, by decide, rfl⟩
  exact ⟨years, dateYear, loaded, by decide⟩

end KeptMass

end Aelf.Lectures.CacheHistory
