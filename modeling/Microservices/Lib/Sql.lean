import Mathlib.Data.List.Basic

/-!
# What the columns of a table take

A table definition says of each column which values it takes, whether null is one
of them, and whether the value has to be the key of a row of another table. An
`INSERT` gives a value to every column, if need be its default or null, and an
`UPDATE` to those it names. The violations of a statement are those of its values.

Keys are of a type `κ` and moments of a type `τ`. What the other tables hold is a
parameter: `rows table key` says whether there is a row.
-/

namespace Sql

inductive Value (κ τ : Type*) where
  | null
  | uuid (id : κ)
  | text (s : String)
  /-- Of an enum. -/
  | label (name : String)
  | boolean (b : Bool)
  | timestamp (t : τ)

inductive ColumnType where
  | uuid
  | varchar (max : Nat)
  | text
  | enum (labels : List String)
  | boolean
  | timestamptz
  deriving DecidableEq, Repr

structure Column where
  name : String
  type : ColumnType
  nullable : Bool := false
  hasDefault : Bool := false
  /-- The table whose primary key it refers to. -/
  references : Option String := none
  deriving DecidableEq, Repr

structure TableDef where
  name : String
  columns : List Column
  deriving DecidableEq, Repr

inductive Violation where
  | notNull (column : String)
  | tooLong (column : String)
  | notALabel (column : String) (label : String)
  | noSuchRow (column : String)
  | wrongType (column : String)
  | noSuchColumn (column : String)
  deriving DecidableEq, Repr

variable {κ τ : Type*}

/-- The columns a statement gives a value to. -/
abbrev Assignments (κ τ : Type*) := List (String × Value κ τ)

/-- SQL's null for a missing value. -/
def Value.ofOption {α : Type*} (f : α → Value κ τ) : Option α → Value κ τ
  | none => .null
  | some a => f a

def ColumnType.violations (column : String) : ColumnType → Value κ τ → List Violation
  | .uuid, .uuid _ | .text, .text _ | .boolean, .boolean _ | .timestamptz, .timestamp _ => []
  | .varchar max, .text s => if s.length ≤ max then [] else [.tooLong column]
  | .enum labels, .label name => if name ∈ labels then [] else [.notALabel column name]
  | _, _ => [.wrongType column]

variable (rows : String → κ → Bool)

def Column.foreignKeyViolations (c : Column) : Value κ τ → List Violation
  | .uuid id =>
      match c.references with
      | some table => if rows table id then [] else [.noSuchRow c.name]
      | none => []
  | _ => []

def Column.violations (c : Column) : Value κ τ → List Violation
  | .null => if c.nullable then [] else [.notNull c.name]
  | v => c.type.violations c.name v ++ c.foreignKeyViolations rows v

/-- The assignments to columns that the table does not have. -/
def TableDef.unknownColumns (t : TableDef) (as : Assignments κ τ) : List Violation :=
  (as.filter fun a => a.1 ∉ t.columns.map Column.name).map fun a => .noSuchColumn a.1

def TableDef.insertViolations (t : TableDef) (as : Assignments κ τ) : List Violation :=
  t.unknownColumns as ++ t.columns.flatMap fun c =>
    match as.lookup c.name with
    | some v => c.violations rows v
    | none => if c.hasDefault then [] else c.violations rows (.null : Value κ τ)

def TableDef.updateViolations (t : TableDef) (as : Assignments κ τ) : List Violation :=
  t.unknownColumns as ++ t.columns.flatMap fun c =>
    match as.lookup c.name with
    | some v => c.violations rows v
    | none => []

variable {rows} {t : TableDef} {as : Assignments κ τ}

theorem unknownColumns_eq_nil_iff :
    t.unknownColumns as = [] ↔ ∀ a ∈ as, a.1 ∈ t.columns.map Column.name := by
  rw [TableDef.unknownColumns, List.map_eq_nil_iff, List.filter_eq_nil_iff]
  simp

/-- An `UPDATE` of columns the table has passes if each of them takes its value. -/
theorem updateViolations_eq_nil_iff (h : ∀ a ∈ as, a.1 ∈ t.columns.map Column.name) :
    t.updateViolations rows as = [] ↔
      ∀ c ∈ t.columns, ∀ v, as.lookup c.name = some v → c.violations rows v = [] := by
  rw [TableDef.updateViolations, unknownColumns_eq_nil_iff.mpr h, List.nil_append,
    List.flatMap_eq_nil_iff]
  refine forall₂_congr fun c _ => ?_
  cases as.lookup c.name with
  | none => simp
  | some v => simp

end Sql
