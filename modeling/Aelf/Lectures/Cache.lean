import Aelf.Library.Table
import Aelf.Lectures.Dates
import Aelf.Lectures.Office

/-! # The lectures cache

The `lectures` table of `Cache`, its two writers and its two read paths.  The
code is generic in the office it stores: nothing in `Cache` looks inside.

SQLite is modelled by `Library.Table` with the primary key `(date, office)`, text
columns compare as text and `create_version` as a number.  A blob is represented
by what `ObjectInputStream.readObject` does on it, so a blob written by this
version of the application is `.ok` of the object that was written. -/

namespace Aelf.Lectures

open Aelf.Library

variable {α : Type}

abbrev Blob (α : Type) := Except JavaException (Option α)

structure Row (α : Type) where
  date : String
  office : String
  lectures : Blob α
  checksum : String
  create_date : String
  create_version : Int

namespace Row

/-- `PRIMARY KEY (date, office)` -/
def key (row : Row α) : String × String := (row.date, row.office)

end Row

abbrev Cache (α : Type) := Table (Row.key (α := α))

structure CacheEntry (α : Type) where
  office : Option α
  checksum : String
  creationDate : IsoDate

structure CacheEntryIndex where
  what_str : String
  when_str : String
deriving DecidableEq

namespace CacheEntryIndex

def of (what : OfficeTypes) (date : AelfDate) : CacheEntryIndex := ⟨what.toString, date.toIsoString⟩

end CacheEntryIndex

/-- `HashMap<CacheEntryIndex, CacheEntry>` -/
def CacheEntries (α : Type) := CacheEntryIndex → Option (CacheEntry α)

namespace CacheEntries

def empty : CacheEntries α := fun _ => none

def put (entries : CacheEntries α) (index : CacheEntryIndex) (entry : CacheEntry α) : CacheEntries α :=
  Function.update entries index (some entry)

def get (entries : CacheEntries α) (index : CacheEntryIndex) : Option (CacheEntry α) := entries index

def containsKey (entries : CacheEntries α) (index : CacheEntryIndex) : Bool := (entries.get index).isSome

theorem get_put_self (entries : CacheEntries α) (index : CacheEntryIndex) (entry : CacheEntry α) :
    (entries.put index entry).get index = some entry :=
  Function.update_self _ _ _

theorem get_put_of_ne (entries : CacheEntries α) {index other : CacheEntryIndex} (entry : CacheEntry α)
    (different : other ≠ index) : (entries.put index entry).get other = entries.get other :=
  Function.update_of_ne different _ _

end CacheEntries

/-- What the device answers to a write: SQLite reports a full disk or a locked or broken database
with an unchecked exception. -/
inductive SqliteOutcome where
  | done
  | sqliteException
deriving DecidableEq, Repr

namespace Cache

/-! ## Operations -/

/-- The row that `store` binds to `DB_CACHE_ENTRY_SET`. -/
def newRow (what : OfficeTypes) (date : AelfDate) (office : Option α) (checksum : String)
    (createDate : IsoDate) (apiVersion : Int) : Row α where
  date := date.toIsoString
  office := what.toString
  lectures := .ok office
  checksum := checksum
  create_date := createDate.toString
  create_version := apiVersion

/-- `store`, with the cache it leaves behind. -/
def store (sqlite : SqliteOutcome) (cache : Cache α) (what : OfficeTypes) (date : AelfDate)
    (office : Option α) (checksum : String) (createDate : IsoDate) (apiVersion : Int) :
    Except JavaException Unit × Cache α :=
  match sqlite with
  | .done => (.ok (), cache.insertOrReplace (newRow what date office checksum createDate apiVersion))
  | .sqliteException => (.error .runtimeException, cache)

def truncateBefore (cache : Cache α) (date : AelfDate) : Cache α :=
  cache.deleteWhere fun row => row.date < date.toIsoString

/-- The database file is deleted, and the next access creates an empty table. -/
def dropDatabase (_ : Cache α) : Cache α := Table.empty

/-- The query of `load`: the row it reads, if any. -/
def queryRow (cache : Cache α) (what : OfficeTypes) (date : AelfDate) (minLoadVersion : Int) :
    Option (Row α) :=
  (cache.select fun row =>
    row.key = (date.toIsoString, what.toString) && minLoadVersion ≤ row.create_version).head?

variable [HttpDateFormat]

def load (cache : Cache α) (what : OfficeTypes) (date : AelfDate) (minLoadVersion : Int) :
    Except JavaException (Option (CacheEntry α)) :=
  match cache.queryRow what date minLoadVersion with
  | none => .ok none
  | some row =>
    match row.lectures with
    | .ok office => .ok (some ⟨office, row.checksum, IsoDate.ofString row.create_date⟩)
    -- catch (ClassNotFoundException | InvalidClassException e)
    | .error .classNotFoundException | .error .invalidClassException => .error .ioException
    | .error other => .error other

/-- The entry that `listCachedEntries` makes of a row: the office itself is not read. -/
def listedEntry (row : Row α) : CacheEntry α :=
  ⟨none, row.checksum, IsoDate.ofString row.create_date⟩

/-- `date >= ? AND create_version >= ?` -/
def isListed (since : AelfDate) (minLoadVersion : Int) (row : Row α) : Bool :=
  since.toIsoString ≤ row.date && minLoadVersion ≤ row.create_version

def listCachedEntries (cache : Cache α) (since : AelfDate) (minLoadVersion : Int) : CacheEntries α :=
  (cache.select (isListed since minLoadVersion)).foldl
    (fun entries row => entries.put ⟨row.office, row.date⟩ (listedEntry row)) CacheEntries.empty

omit [HttpDateFormat] in
theorem queryRow_eq (cache : Cache α) (what : OfficeTypes) (date : AelfDate) (minLoadVersion : Int) :
    cache.queryRow what date minLoadVersion =
      (cache.find? (date.toIsoString, what.toString)).filter fun row => minLoadVersion ≤ row.create_version :=
  Table.head?_select_key cache _ _

/-! ## Reading the listing back -/

theorem get_foldl_put (rows : List (Row α)) (unique : (rows.map Row.key).Nodup)
    (entries : CacheEntries α) (index : CacheEntryIndex) :
    (rows.foldl (fun entries row => entries.put ⟨row.office, row.date⟩ (listedEntry row)) entries).get index =
      match rows.find? fun row => row.key = (index.when_str, index.what_str) with
      | some row => some (listedEntry row)
      | none => entries.get index := by
  induction rows generalizing entries with
  | nil => rfl
  | cons row rows inductionHypothesis =>
    rw [List.map_cons, List.nodup_cons] at unique
    rw [List.foldl_cons, inductionHypothesis unique.2]
    by_cases keyed : row.key = (index.when_str, index.what_str)
    · -- a later row with this key would be a second row with the primary key of `row`
      have absent : rows.find? (fun row => row.key = (index.when_str, index.what_str)) = none := by
        rw [List.find?_eq_none]
        intro other member same
        apply unique.1
        rw [keyed, ← of_decide_eq_true same]
        exact List.mem_map_of_mem member
      obtain ⟨dates, offices⟩ := Prod.mk.injEq .. ▸ keyed
      have sameIndex : (⟨row.office, row.date⟩ : CacheEntryIndex) = index := by rw [dates, offices]
      rw [absent, List.find?_cons_of_pos (by simpa using keyed), ← sameIndex]
      exact CacheEntries.get_put_self _ _ _
    -- the put of this row is at another index, so what the later rows left is unchanged by it
    · have otherIndex : index ≠ ⟨row.office, row.date⟩ := by
        rintro rfl
        exact keyed rfl
      rw [List.find?_cons_of_neg (by simpa using keyed)]
      cases rows.find? fun row => row.key = (index.when_str, index.what_str) with
      | some _ => rfl
      | none => exact CacheEntries.get_put_of_ne _ _ otherIndex

/-- The listing maps an index to the row stored under it, when its date and version pass. -/
theorem get_listCachedEntries (cache : Cache α) (since : AelfDate) (minLoadVersion : Int)
    (index : CacheEntryIndex) :
    (cache.listCachedEntries since minLoadVersion).get index =
      ((cache.find? (index.when_str, index.what_str)).filter (isListed since minLoadVersion)).map
        listedEntry := by
  have unique : ((cache.select (isListed since minLoadVersion)).map Row.key).Nodup :=
    cache.unique.sublist (List.filter_sublist.map Row.key)
  rw [listCachedEntries, get_foldl_put _ unique]
  cases found : (cache.select (isListed since minLoadVersion)).find?
      fun row => row.key = (index.when_str, index.what_str) with
  | some row =>
    have member := (cache.mem_select _ row).mp (List.mem_of_find?_eq_some found)
    have keyed : row.key = (index.when_str, index.what_str) := by simpa using List.find?_some found
    rw [← keyed, member.1]
    simp [member.2]
  | none =>
    cases stored : cache.find? (index.when_str, index.what_str) with
    | none => rfl
    | some row =>
      -- the row is in the table but was not selected, so the filter hides it on both sides
      have keyed := ((cache.find?_eq_some_iff _ row).mp stored).2
      have hidden : isListed since minLoadVersion row = false := by
        by_contra listed
        rw [Bool.not_eq_false] at listed
        refine List.find?_eq_none.mp found row ?_ (by simpa using keyed)
        rw [cache.mem_select]
        exact ⟨keyed ▸ stored, listed⟩
      simp [hidden, CacheEntries.get, CacheEntries.empty]

theorem containsKey_of_absent {cache : Cache α} {what : OfficeTypes} {date : AelfDate}
    (absent : cache.find? (date.toIsoString, what.toString) = none) (since : AelfDate) (minLoadVersion : Int) :
    (cache.listCachedEntries since minLoadVersion).containsKey (.of what date) = false := by
  rw [CacheEntries.containsKey, get_listCachedEntries, CacheEntryIndex.of, absent]
  rfl

end Cache

end Aelf.Lectures
