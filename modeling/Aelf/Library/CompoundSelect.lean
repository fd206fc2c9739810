import Aelf.Library.SqlText

/-! # Compound selects

Selects joined by `UNION` and ordered as a whole, inside a select that orders them again.
The terms of an `ORDER BY` see different columns at each level: those of the table in a
plain select, the result columns of the arms in a compound, and around it only the
columns that the first arm names. -/

namespace Aelf.Library.CompoundSelect

open Aelf.Library.SqlText

/-- The expressions of a statement, as far as they name columns. -/
inductive Expr where
  | column (name : List Char)
  | literal (text : List Char)
  | scaled (name factor : List Char)
  /-- `CAST(name AS INTEGER)`, with the keyword as it is spelt. -/
  | cast (name keyword : List Char)
  /-- A function whose arguments name no column. -/
  | call (text : List Char)
deriving DecidableEq

def Expr.columns : Expr → List (List Char)
  | .column name | .scaled name _ | .cast name _ => [name]
  | .literal _ | .call _ => []

structure ResultColumn where
  expression : Expr
  label : Option (List Char)
deriving DecidableEq

/-- The name under which a result column is seen from outside. -/
def ResultColumn.name (column : ResultColumn) : Option (List Char) :=
  match column.label, column.expression with
  | some label, _ => some label
  | none, .column name => some name
  | none, _ => none

structure Select where
  columns : List ResultColumn
  table : List Char
  searched : List Char
  /-- What the column that is searched has to match. -/
  matched : List Char
deriving DecidableEq

structure Order where
  terms : List Expr
  limit : Option (List Char)
deriving DecidableEq

structure Compound where
  first : Select
  others : List Select
  order : Order

def Compound.arms (compound : Compound) : List Select := compound.first :: compound.others

/-- `SELECT *` from a compound. -/
structure Nested where
  inner : Compound
  order : Order

/-! ## Scoping -/

/-- A term that is the name of a result column, or its expression. -/
def ResultColumn.Provides (column : ResultColumn) (term : Expr) : Prop :=
  (∃ name, term = .column name ∧ column.name = some name) ∨ column.expression = term

/-- In a plain select a term sees the columns of the table and the names of the result columns. -/
def Select.Sees (select : Select) (table : List (List Char)) (term : Expr) : Prop :=
  ∀ name ∈ term.columns, name ∈ table ∨ ∃ column ∈ select.columns, column.name = some name

def Compound.SameWidth (compound : Compound) : Prop :=
  ∀ arm ∈ compound.arms, arm.columns.length = compound.first.columns.length

def Compound.Ordered (compound : Compound) : Prop :=
  ∀ term ∈ compound.order.terms, ∃ arm ∈ compound.arms, ∃ column ∈ arm.columns, column.Provides term

/-- The columns that a compound has for what is around it. -/
def Compound.exposed (compound : Compound) : List (List Char) := compound.first.columns.filterMap ResultColumn.name

def Nested.Ordered (nested : Nested) : Prop :=
  ∀ term ∈ nested.order.terms, ∀ name ∈ term.columns, name ∈ nested.inner.exposed

structure Nested.Scoped (nested : Nested) : Prop where
  sameWidth : nested.inner.SameWidth
  ordered : nested.inner.Ordered
  orderedAround : nested.Ordered

/-! ## Text -/

def quoted (text : List Char) : List Char := quote :: text ++ [quote]

def Expr.render : Expr → List Char
  | .column name => name
  | .literal text => quoted text
  | .scaled name factor => name ++ chars " * " ++ factor
  | .cast name keyword => chars "CAST(" ++ name ++ chars " " ++ keyword ++ chars " INTEGER)"
  | .call text => text

def ResultColumn.render (column : ResultColumn) : List Char :=
  match column.label with
  | none => column.expression.render
  | some label => column.expression.render ++ chars " AS " ++ label

def Select.render (select : Select) : List Char :=
  chars " SELECT " ++ (chars ", ").intercalate (select.columns.map ResultColumn.render) ++ chars " FROM " ++ select.table ++
    chars " WHERE " ++ select.searched ++ chars " MATCH " ++ quoted select.matched

def Order.render (order : Order) : List Char :=
  chars " ORDER BY " ++ (chars ",").intercalate (order.terms.map Expr.render) ++
    match order.limit with
    | none => []
    | some limit => chars " LIMIT " ++ limit

def Compound.render (compound : Compound) : List Char :=
  compound.first.render ++ compound.others.flatMap (fun arm => chars " UNION" ++ arm.render) ++ compound.order.render

def Nested.render (nested : Nested) : List Char :=
  chars "SELECT * FROM (" ++ nested.inner.render ++ chars ")" ++ nested.order.render ++ chars ";"

end Aelf.Library.CompoundSelect
