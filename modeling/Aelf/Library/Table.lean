import Mathlib.Data.List.Nodup

/-! # Tables with a primary key

A table is a list of rows in which no two rows share their key.  The three
operations are the ones a relational store offers on such a table: insert or
replace on the primary key, delete the rows that satisfy a predicate, and select
rows.  Reading back a key after any of them is a rewriting rule. -/

namespace Aelf.Library

universe u v

variable {κ : Type u} {ρ : Type v}

structure Table (key : ρ → κ) where
  rows : List ρ
  unique : (rows.map key).Nodup

namespace Table

variable {key : ρ → κ}

def empty : Table key := ⟨[], by simp⟩

/-- Two rows of a table with the same key are the same row. -/
theorem eq_of_key_eq (table : Table key) {first second : ρ} (firstMember : first ∈ table.rows)
    (secondMember : second ∈ table.rows) (same : key first = key second) : first = second :=
  List.inj_on_of_nodup_map table.unique firstMember secondMember same

variable [DecidableEq κ]

def find? (table : Table key) (wanted : κ) : Option ρ :=
  table.rows.find? fun row => key row = wanted

theorem find?_eq_some_iff (table : Table key) (wanted : κ) (row : ρ) :
    table.find? wanted = some row ↔ row ∈ table.rows ∧ key row = wanted := by
  constructor
  · intro found
    exact ⟨List.mem_of_find?_eq_some found, by simpa using List.find?_some found⟩
  · rintro ⟨member, keyed⟩
    cases found : table.find? wanted with
    | none =>
      have missing := List.find?_eq_none.mp found row member
      simp [keyed] at missing
    | some other =>
      have otherMember := List.mem_of_find?_eq_some found
      have otherKeyed : key other = wanted := by simpa using List.find?_some found
      rw [table.eq_of_key_eq otherMember member (otherKeyed.trans keyed.symm)]

theorem find?_key_of_mem (table : Table key) {row : ρ} (member : row ∈ table.rows) :
    table.find? (key row) = some row :=
  (table.find?_eq_some_iff _ _).mpr ⟨member, rfl⟩

@[simp] theorem find?_empty (wanted : κ) : (empty : Table key).find? wanted = none := rfl

/-! ## Insert or replace -/

/-- The rows after an insertion: an existing row with the same key is overwritten where it
stands, otherwise the new row goes to the end. -/
def replaceRows (key : ρ → κ) (row : ρ) (rows : List ρ) : List ρ :=
  if key row ∈ rows.map key then rows.map fun old => if key old = key row then row else old
  else rows ++ [row]

theorem replaceRows_unique (row : ρ) (rows : List ρ) (unique : (rows.map key).Nodup) :
    ((replaceRows key row rows).map key).Nodup := by
  unfold replaceRows
  split
  next present =>
    have sameKeys : (rows.map fun old => if key old = key row then row else old).map key =
        rows.map key := by
      rw [List.map_map]
      refine List.map_congr_left fun old _ => ?_
      simp only [Function.comp_apply]
      split
      next same => exact same.symm
      next => rfl
    rw [sameKeys]
    exact unique
  next absent =>
    rw [List.map_append, List.map_singleton, List.nodup_append]
    refine ⟨unique, by simp, ?_⟩
    rintro first firstMember second secondMember rfl
    rw [List.mem_singleton] at secondMember
    exact absent (secondMember ▸ firstMember)

theorem mem_replaceRows (row candidate : ρ) (rows : List ρ) :
    candidate ∈ replaceRows key row rows ↔
      candidate = row ∨ candidate ∈ rows ∧ key candidate ≠ key row := by
  unfold replaceRows
  split
  next present =>
    rw [List.mem_map] at present
    obtain ⟨old, oldMember, oldKeyed⟩ := present
    rw [List.mem_map]
    constructor
    · rintro ⟨source, sourceMember, rfl⟩
      split
      next => exact .inl rfl
      next different => exact .inr ⟨sourceMember, different⟩
    · rintro (rfl | ⟨member, different⟩)
      · exact ⟨old, oldMember, by simp [oldKeyed]⟩
      · exact ⟨candidate, member, by simp [different]⟩
  next absent =>
    rw [List.mem_append, List.mem_singleton]
    constructor
    · rintro (member | rfl)
      · refine .inr ⟨member, fun same => absent ?_⟩
        rw [← same]
        exact List.mem_map_of_mem member
      · exact .inl rfl
    · rintro (rfl | ⟨member, _⟩)
      · exact .inr rfl
      · exact .inl member

def insertOrReplace (table : Table key) (row : ρ) : Table key :=
  ⟨replaceRows key row table.rows, replaceRows_unique row table.rows table.unique⟩

theorem find?_insertOrReplace (table : Table key) (row : ρ) (wanted : κ) :
    (table.insertOrReplace row).find? wanted =
      if key row = wanted then some row else table.find? wanted := by
  split
  next same =>
    rw [find?_eq_some_iff]
    exact ⟨(mem_replaceRows row row table.rows).mpr (.inl rfl), same⟩
  next different =>
    refine Option.ext fun candidate => ?_
    rw [find?_eq_some_iff, find?_eq_some_iff]
    simp only [insertOrReplace, mem_replaceRows]
    constructor
    · rintro ⟨rfl | ⟨member, _⟩, keyed⟩
      · exact absurd keyed different
      · exact ⟨member, keyed⟩
    · rintro ⟨member, keyed⟩
      exact ⟨.inr ⟨member, fun same => different (same.symm.trans keyed)⟩, keyed⟩

/-- Inserting a row leaves the table unchanged exactly when that very row is already there. -/
theorem insertOrReplace_eq_self_iff (table : Table key) (row : ρ) :
    table.insertOrReplace row = table ↔ row ∈ table.rows := by
  constructor
  · intro unchanged
    rw [← unchanged]
    exact (mem_replaceRows row row table.rows).mpr (.inl rfl)
  · intro member
    have present : key row ∈ table.rows.map key := List.mem_map_of_mem member
    have sameRows : replaceRows key row table.rows = table.rows := by
      rw [replaceRows, if_pos present]
      refine (List.map_congr_left fun old oldMember => ?_).trans (List.map_id _)
      split
      next same => exact (table.eq_of_key_eq oldMember member same).symm
      next => rfl
    cases table
    simpa [insertOrReplace] using sameRows

/-! ## Delete and select -/

def deleteWhere (table : Table key) (condition : ρ → Bool) : Table key :=
  ⟨table.rows.filter fun row => !condition row, table.unique.sublist (List.filter_sublist.map key)⟩

theorem find?_deleteWhere (table : Table key) (condition : ρ → Bool) (wanted : κ) :
    (table.deleteWhere condition).find? wanted =
      (table.find? wanted).filter fun row => !condition row := by
  refine Option.ext fun candidate => ?_
  rw [find?_eq_some_iff, Option.filter_eq_some_iff, find?_eq_some_iff]
  simp only [deleteWhere, List.mem_filter]
  tauto

/-- The rows of a query, in the order the store scans them. -/
def select (table : Table key) (condition : ρ → Bool) : List ρ :=
  table.rows.filter condition

theorem mem_select (table : Table key) (condition : ρ → Bool) (row : ρ) :
    row ∈ table.select condition ↔ table.find? (key row) = some row ∧ condition row := by
  rw [find?_eq_some_iff]
  simp [select]

/-- A query that fixes the primary key returns at most one row. -/
theorem head?_select_key (table : Table key) (wanted : κ) (condition : ρ → Bool) :
    (table.select fun row => key row = wanted && condition row).head? =
      (table.find? wanted).filter condition := by
  refine Option.ext fun candidate => ?_
  constructor
  · intro first
    have member := List.mem_of_mem_head? first
    rw [mem_select] at member
    simp only [Bool.and_eq_true, decide_eq_true_eq] at member
    rw [Option.filter_eq_some_iff]
    exact ⟨member.2.1 ▸ member.1, member.2.2⟩
  · intro found
    rw [Option.filter_eq_some_iff, find?_eq_some_iff] at found
    obtain ⟨⟨member, keyed⟩, accepted⟩ := found
    have selected : candidate ∈ table.select fun row => key row = wanted && condition row := by
      rw [mem_select]
      exact ⟨table.find?_key_of_mem member, by simp [keyed, accepted]⟩
    cases rows : table.select fun row => key row = wanted && condition row with
    | nil => simp [rows] at selected
    | cons first rest =>
      have firstSelected : first ∈ table.select fun row => key row = wanted && condition row := by
        simp [rows]
      simp only [select, List.mem_filter, Bool.and_eq_true, decide_eq_true_eq] at firstSelected
      rw [List.head?_cons, table.eq_of_key_eq firstSelected.1 member
        (firstSelected.2.1.trans keyed.symm)]

end Table

end Aelf.Library
