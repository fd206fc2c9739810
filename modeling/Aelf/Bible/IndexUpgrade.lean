import Aelf.Bible.IndexCopy
import Aelf.Bible.Reference

/-! # The index across upgrades

A copy that is in the cache is never compared with the asset.  What keeps it up to date is
`LecturesActivity.onCreate`: an activity that finds another version in the preferences
deletes the cache before any fragment can open the index.  So an upgrade also replaces a
copy that was interrupted, whatever is in the cache.

The preferences are written behind: the process sees what it has written at once, but what
has not reached the disk is lost when the process ends. -/

namespace Aelf.Bible.IndexUpgrade

open Aelf.Library
open IndexCopy (Bytes Start Whole Unharmed initThread openedDatabase)

/-! ## The cache directory -/

/-- What is in a directory, in the order of `list()`. -/
inductive Files where
  | nil
  | file (name : Text) (content : Bytes) (next : Files)
  | directory (name : Text) (children next : Files)
  /-- Neither a file nor a directory. -/
  | other (name : Text) (next : Files)

/-- Which directories can be listed, and what can be deleted, by path. -/
structure Disk where
  lists : List Text → Bool
  deletes : List Text → Bool

namespace Files

/-- The loop of `deleteDir` over a directory: what is left, and whether everything is gone.  A null list throws,
which ends all the loops as a failure does. -/
def deleteChildren (disk : Disk) (path : List Text) : Files → Files × Bool
  | nil => (nil, true)
  | file name content next =>
    if disk.deletes (path ++ [name]) then next.deleteChildren disk path else (file name content next, false)
  | directory name children next =>
    if disk.lists (path ++ [name]) then
      match children.deleteChildren disk (path ++ [name]) with
      | (left, false) => (directory name left next, false)
      | (_, true) =>
        if disk.deletes (path ++ [name]) then next.deleteChildren disk path else (directory name nil next, false)
    else (directory name children next, false)
  | other name next => (other name next, false)

/-- `deleteCache`.  The directory itself is created again when it is asked for. -/
def deleteCache (disk : Disk) (cache : Files) : Files × Bool :=
  if disk.lists [] then cache.deleteChildren disk [] else (cache, false)

def filename : Text := "bible.db".toList

/-- The copy of the index. -/
def dbFile : Files → Option Bytes
  | nil => none
  | file name content next => if name = filename then some content else next.dbFile
  | directory _ _ next => next.dbFile
  | other _ next => next.dbFile

/-- The copy after `InitThread`, which writes it only when there is none. -/
def withDbFile (cache : Files) (content : Option Bytes) : Files :=
  if cache.dbFile.isSome then cache
  else (content.map fun content => file filename content cache).getD cache

end Files

/-! ## Preferences -/

inductive FontSize where
  | text (size : Text)
  | zoom (percent : Int)

/-- The preferences that `onCreate` reads or writes. -/
structure Preferences where
  version : Option Int
  previous_version : Option Int
  pref_disp_font_size : Option FontSize
  pref_sync_duree : Option Text
  pref_disp_night_mode : Option Bool

namespace Preferences

def migrateVersion (currentVersion : Int) (settings : Preferences) : Preferences :=
  let savedVersion := settings.version.getD (-1)
  if savedVersion ≠ currentVersion then
    { settings with version := some currentVersion, previous_version := some savedVersion }
  else settings

/-- `getString` throws on a number, which is then kept. -/
def migrateFontSize (settings : Preferences) : Preferences :=
  match settings.pref_disp_font_size with
  | some (.zoom _) => settings
  | some (.text size) =>
    let zoom := if size = "big".toList then 150 else if size = "huge".toList then 200 else 100
    { settings with pref_disp_font_size := some (.zoom zoom) }
  | none => { settings with pref_disp_font_size := some (.zoom 100) }

def migrateSyncDuree (settings : Preferences) : Preferences :=
  let syncDuree := settings.pref_sync_duree.getD "mois".toList
  if syncDuree = "auj".toList ∨ syncDuree = "auj-dim".toList then
    { settings with pref_sync_duree := some "semaine".toList }
  else settings

/-- The edits of `onCreate`, which are applied together. -/
def upgrade (currentVersion : Int) (settings : Preferences) : Preferences :=
  let settings := ((settings.migrateVersion currentVersion).migrateFontSize).migrateSyncDuree
  { settings with pref_disp_night_mode := none }

end Preferences

/-! ## The device -/

/-- A process with an activity: its preferences, and the index that `BibleController` has opened. -/
structure Process where
  settings : Preferences
  db : Option Bytes

structure State where
  versionCode : Int
  asset : Bytes
  /-- What of the preferences is on the disk. -/
  stored : Preferences
  cache : Files
  process : Option Process

inductive Event where
  /-- A package is installed, which ends the process. -/
  | install (versionCode : Int) (asset : Bytes)
  | onCreate (disk : Disk)
  /-- The section of the Bible is opened, and with it the controller unless there is one. -/
  | openBible (start : Start)
  | apply
  | kill
  /-- Files come and go, also because the system needs their space. -/
  | cacheChanges (cache : Files)

namespace State

def onCreate (state : State) (disk : Disk) : State :=
  -- the preferences of a new process come from the disk
  let process := state.process.getD ⟨state.stored, none⟩
  let savedVersion := process.settings.version.getD (-1)
  { state with
    cache := if savedVersion ≠ state.versionCode then (state.cache.deleteCache disk).1 else state.cache
    process := some { process with settings := process.settings.upgrade state.versionCode } }

/-- The process does not survive an index that cannot be opened. -/
def openBible (state : State) (start : Start) : State :=
  match state.process with
  | none => state
  | some process =>
    match process.db with
    | some _ => state
    | none =>
      { state with
        cache := state.cache.withDbFile (initThread state.asset state.cache.dbFile start)
        process := (openedDatabase state.asset state.cache.dbFile start).map fun content =>
          { process with db := some content } }

def apply (state : State) : Event → State
  | .install versionCode asset => { state with versionCode := versionCode, asset := asset, process := none }
  | .onCreate disk => state.onCreate disk
  | .openBible start => state.openBible start
  | .apply => { state with stored := (state.process.map Process.settings).getD state.stored }
  | .kill => { state with process := none }
  | .cacheChanges cache => { state with cache := cache }

def run (state : State) (events : List Event) : State := events.foldl apply state

end State

/-! ## Deleting the cache -/

/-- What was deleted to the end is empty. -/
theorem Files.deleteChildren_eq_nil {disk : Disk} {path : List Text} {files : Files}
    (gone : (files.deleteChildren disk path).2 = true) : (files.deleteChildren disk path).1 = .nil := by
  induction files generalizing path with
  | nil => rfl
  | file name content next inductionHypothesis =>
    rw [Files.deleteChildren] at gone ⊢
    split at gone
    next deleted =>
      rw [if_pos deleted]
      exact inductionHypothesis gone
    next => cases gone
  | directory name children next _ inductionHypothesis =>
    rw [Files.deleteChildren] at gone ⊢
    split at gone
    next listed =>
      rw [if_pos listed]
      generalize children.deleteChildren disk (path ++ [name]) = inside at gone ⊢
      obtain ⟨left, emptied⟩ := inside
      cases emptied with
      | false => cases gone
      | true =>
        dsimp only at gone ⊢
        split at gone
        next deleted =>
          rw [if_pos deleted]
          exact inductionHypothesis gone
        next => cases gone
    next => cases gone
  | other name next => cases gone

theorem Files.dbFile_deleteCache {disk : Disk} {cache : Files} (gone : (cache.deleteCache disk).2 = true) :
    (cache.deleteCache disk).1.dbFile = none := by
  rw [Files.deleteCache] at gone ⊢
  split at gone
  next listed =>
    rw [if_pos listed, Files.deleteChildren_eq_nil gone]
    rfl
  next => cases gone

theorem Files.whole_withDbFile {asset : Bytes} {cache : Files} {content : Option Bytes} (old : Whole asset cache.dbFile)
    (new : Whole asset content) : Whole asset (cache.withDbFile content).dbFile := by
  rw [Files.withDbFile]
  split
  next => exact old
  next =>
    cases content with
    | none => exact old
    | some content =>
      have written : (Files.file Files.filename content cache).dbFile = some content := if_pos rfl
      rw [Option.map_some, Option.getD_some, written]
      exact new

/-! ## Upgrades -/

/-- An activity of this version finds the preferences of another one. -/
def State.NeedsUpgrade (state : State) : Prop :=
  (state.process.getD ⟨state.stored, none⟩).settings.version.getD (-1) ≠ state.versionCode

/-- Versions only go up, and a version has one index.  The cache can be deleted when it has to be, and a copy that
is begun is finished. -/
def Guard (state : State) : Event → Prop
  | .install versionCode asset =>
    state.versionCode < versionCode ∨ versionCode = state.versionCode ∧ asset = state.asset
  | .onCreate disk => state.NeedsUpgrade → (state.cache.deleteCache disk).2 = true
  | .openBible start => Unharmed state.asset state.cache.dbFile start
  | .apply | .kill => True
  | .cacheChanges cache => cache.dbFile = none ∨ cache.dbFile = state.cache.dbFile

/-- The preferences on the disk are those of an earlier version, or there are none.  Anything may be in the cache. -/
structure UpgradePending (state : State) : Prop where
  positive : 0 < state.versionCode
  stopped : state.process = none
  earlier : ∀ version, state.stored.version = some version → version < state.versionCode

/-- What a process shows: a zoom for the text, and no other index than the one it was installed with. -/
structure Process.UpToDate (asset : Bytes) (versionCode : Int) (process : Process) : Prop where
  version : process.settings.version = some versionCode
  fontSize : ∃ percent, process.settings.pref_disp_font_size = some (.zoom percent)
  index : ∀ content, process.db = some content → content = asset

structure State.Invariant (state : State) : Prop where
  positive : 0 < state.versionCode
  known : ∀ version, state.stored.version = some version → version ≤ state.versionCode
  stored : state.stored.version = some state.versionCode → Whole state.asset state.cache.dbFile
  process : ∀ process, state.process = some process →
    process.UpToDate state.asset state.versionCode ∧ Whole state.asset state.cache.dbFile

theorem UpgradePending.invariant {state : State} (pending : UpgradePending state) : state.Invariant where
  positive := pending.positive
  known version isVersion := (pending.earlier version isVersion).le
  stored isVersion := absurd (pending.earlier _ isVersion) (lt_irrefl _)
  process process running := by
    rw [pending.stopped] at running
    cases running

theorem upgrade_version (currentVersion : Int) (settings : Preferences)
    (valid : 0 < currentVersion) : (settings.upgrade currentVersion).version = some currentVersion := by
  have migrated : (settings.migrateVersion currentVersion).version = some currentVersion := by
    rw [Preferences.migrateVersion]
    split
    next => rfl
    next same =>
      rw [not_not] at same
      cases version : settings.version with
      | none =>
        rw [version, Option.getD_none] at same
        omega
      | some saved =>
        rw [version, Option.getD_some] at same
        rw [same]
  have fontSize (settings : Preferences) : settings.migrateFontSize.version = settings.version := by
    rw [Preferences.migrateFontSize]
    split <;> rfl
  have duree (settings : Preferences) : settings.migrateSyncDuree.version = settings.version := by
    rw [Preferences.migrateSyncDuree]
    split <;> rfl
  rw [Preferences.upgrade]
  dsimp only
  rw [duree, fontSize, migrated]

theorem upgrade_fontSize (currentVersion : Int) (settings : Preferences) :
    ∃ percent, (settings.upgrade currentVersion).pref_disp_font_size = some (.zoom percent) := by
  have duree (settings : Preferences) : settings.migrateSyncDuree.pref_disp_font_size = settings.pref_disp_font_size := by
    rw [Preferences.migrateSyncDuree]
    split <;> rfl
  rw [Preferences.upgrade]
  dsimp only
  rw [duree, Preferences.migrateFontSize]
  split
  next percent isZoom => exact ⟨percent, isZoom⟩
  next => exact ⟨_, rfl⟩
  next => exact ⟨_, rfl⟩

theorem whole_none (asset : Bytes) : Whole asset none := by
  intro content isContent
  cases isContent

/-- Behind `onCreate` there is no other index in the cache than the installed one. -/
theorem whole_onCreate {state : State} {disk : Disk}
    (deletes : state.NeedsUpgrade → (state.cache.deleteCache disk).2 = true) (invariant : state.Invariant) :
    Whole state.asset (state.onCreate disk).cache.dbFile := by
  rw [State.onCreate]
  dsimp only
  split
  next needsUpgrade =>
    rw [Files.dbFile_deleteCache (deletes needsUpgrade)]
    exact whole_none state.asset
  next same =>
    rw [not_not] at same
    cases running : state.process with
    | some process => exact (invariant.process process running).2
    | none =>
      refine invariant.stored ?_
      rw [running, Option.getD_none] at same
      have positive := invariant.positive
      cases version : state.stored.version with
      | none =>
        rw [version, Option.getD_none] at same
        omega
      | some saved =>
        rw [version, Option.getD_some] at same
        rw [same]

theorem invariant_onCreate {state : State} {disk : Disk}
    (deletes : state.NeedsUpgrade → (state.cache.deleteCache disk).2 = true) (invariant : state.Invariant) :
    (state.onCreate disk).Invariant := by
  have whole := whole_onCreate deletes invariant
  refine ⟨invariant.positive, invariant.known, fun _ => whole, ?_⟩
  intro process isProcess
  obtain rfl := Option.some.inj isProcess
  refine ⟨⟨upgrade_version _ _ invariant.positive, upgrade_fontSize _ _, ?_⟩, whole⟩
  intro content isContent
  cases running : state.process with
  | none =>
    rw [running] at isContent
    cases isContent
  | some process =>
    rw [running] at isContent
    exact (invariant.process process running).1.index content isContent

theorem invariant_openBible {state : State} {start : Start} (unharmed : Unharmed state.asset state.cache.dbFile start)
    (invariant : state.Invariant) : (state.openBible start).Invariant := by
  rw [State.openBible]
  split
  next => exact invariant
  next process running =>
    split
    next => exact invariant
    next =>
      obtain ⟨upToDate, whole⟩ := invariant.process process running
      have copied := IndexCopy.whole_initThread unharmed whole
      have wholeAfter := Files.whole_withDbFile whole copied
      refine ⟨invariant.positive, invariant.known, fun _ => wholeAfter, ?_⟩
      intro other isOther
      obtain ⟨content, isOpened, rfl⟩ := Option.map_eq_some_iff.mp isOther
      refine ⟨⟨upToDate.version, upToDate.fontSize, ?_⟩, wholeAfter⟩
      intro shown isShown
      obtain rfl := Option.some.inj isShown
      exact copied content (IndexCopy.openedDatabase_mem isOpened)

theorem invariant_apply {state : State} {event : Event} (allowed : Guard state event) (invariant : state.Invariant) :
    (state.apply event).Invariant := by
  cases event with
  | install versionCode asset =>
    have noProcess : ∀ process : Process, (none : Option Process) = some process →
        process.UpToDate asset versionCode ∧ Whole asset state.cache.dbFile := nofun
    obtain later | ⟨rfl, rfl⟩ := allowed
    · have positive := invariant.positive
      refine ⟨later.trans' positive, fun version isVersion => (invariant.known version isVersion).trans later.le, ?_, noProcess⟩
      -- what is stored is not yet of this version
      intro isVersion
      exact absurd (invariant.known versionCode isVersion) (not_le.mpr later)
    · exact ⟨invariant.positive, invariant.known, invariant.stored, noProcess⟩
  | onCreate disk => exact invariant_onCreate allowed invariant
  | openBible start => exact invariant_openBible allowed invariant
  | apply =>
    cases running : state.process with
    | none =>
      have written : (state.apply .apply).stored = state.stored := by
        rw [State.apply, running]
        rfl
      refine ⟨invariant.positive, ?_, ?_, invariant.process⟩
      · rw [written]
        exact invariant.known
      · rw [written]
        exact invariant.stored
    | some process =>
      obtain ⟨upToDate, whole⟩ := invariant.process process running
      have written : (state.apply .apply).stored = process.settings := by
        rw [State.apply, running]
        rfl
      refine ⟨invariant.positive, ?_, fun _ => whole, invariant.process⟩
      intro version isVersion
      rw [written, upToDate.version] at isVersion
      exact (Option.some.inj isVersion).ge
  | kill => exact ⟨invariant.positive, invariant.known, invariant.stored, nofun⟩
  | cacheChanges cache =>
    have kept (whole : Whole state.asset state.cache.dbFile) : Whole state.asset cache.dbFile := by
      obtain gone | same := allowed
      · rw [gone]
        exact whole_none state.asset
      · rw [same]
        exact whole
    refine ⟨invariant.positive, invariant.known, fun isVersion => kept (invariant.stored isVersion), ?_⟩
    intro process running
    obtain ⟨upToDate, whole⟩ := invariant.process process running
    exact ⟨upToDate, kept whole⟩

/-- From an upgrade on, whatever the cache has in it by then, no process opens another index than the whole one of
the version that is installed, through later upgrades, processes that end at any time, and preferences that are
lost with them. -/
theorem upgrade_heals_index {state : State} (pending : UpgradePending state) {events : List Event}
    (allowed : Runs.Allowed State.apply Guard state events) (process : Process)
    (running : (state.run events).process = some process) :
    process.UpToDate (state.run events).asset (state.run events).versionCode := by
  have invariant := Runs.invariant_run State.apply State.Invariant (fun _ _ => invariant_apply) allowed pending.invariant
  exact (invariant.process process running).1

namespace Interrupted

/-- The first byte of the index of version 85 is in the cache. -/
def before : State where
  versionCode := 86
  asset := [1, 2, 3]
  stored := ⟨some 85, none, some (.text ['b', 'i', 'g']), none, none⟩
  cache := .directory ['W'] (.file ['d'] [0] .nil) (.file Files.filename [9] .nil)
  process := none

def disk : Disk := ⟨fun _ => true, fun _ => true⟩

/-- The first process ends before its preferences are written. -/
def events : List Event :=
  [.onCreate disk, .openBible ⟨.opened, [.copies 2]⟩, .kill, .onCreate disk, .openBible ⟨.opened, []⟩]

theorem pending : UpgradePending before where
  positive := by decide
  stopped := rfl
  earlier := by
    intro version isVersion
    obtain rfl := Option.some.inj isVersion
    decide

theorem allowed : Runs.Allowed State.apply Guard before events :=
  ⟨fun _ => rfl, fun _ _ => rfl, trivial, fun _ => rfl, fun _ _ => rfl, trivial⟩

theorem interrupted_index_replaced :
    ∃ process, (before.run events).process = some process ∧ process.db = some [1, 2, 3] ∧
      process.UpToDate (before.run events).asset (before.run events).versionCode :=
  ⟨_, rfl, rfl, upgrade_heals_index pending allowed _ rfl⟩

end Interrupted

end Aelf.Bible.IndexUpgrade
