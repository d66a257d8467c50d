import EntityQuery.Sql.Statement
import EntityQuery.Proofs.Aliases.Hops

/-!
# Column references

The columns that an expression or a select refers to, and what makes such a reference well typed
over the entries of an alias table: its qualifier is an alias of the table, and its name that of a
column of the entity that the alias stands for (`HasColumn`).

A part of a query is resolved from one alias table to a later one if hops lead from one to the other
and its references are well typed over the later one (`Resolved`). Such parts can be put one after
another (`Resolved.append`).
-/

set_option autoImplicit false

namespace EntityQuery

/-! ## The references of expressions -/

namespace Sql

mutual

/-- The columns that an expression refers to. -/
def Expr.references : Expr → List ColumnRef
  | .column reference => [reference]
  | .named expr _ => expr.references
  | .call _ arguments => Expr.referencesOf arguments
  | .equation left right => left.references ++ right.references
  | .assignment left right => left.references ++ right.references
  | .literal _ => []
  | .raw _ => []

/-- The columns that expressions refer to. -/
def Expr.referencesOf : List Expr → List ColumnRef
  | [] => []
  | expr :: rest => expr.references ++ Expr.referencesOf rest

end

theorem Expr.referencesOf_append (exprs more : List Expr) :
    Expr.referencesOf (exprs ++ more) = Expr.referencesOf exprs ++ Expr.referencesOf more := by
  induction exprs with
  | nil => rfl
  | cons expr rest ih => simp only [List.cons_append, Expr.referencesOf, ih, List.append_assoc]

theorem Expr.mem_referencesOf {exprs : List Expr} {reference : ColumnRef} :
    reference ∈ Expr.referencesOf exprs ↔ ∃ expr ∈ exprs, reference ∈ expr.references := by
  induction exprs with
  | nil => simp [Expr.referencesOf]
  | cons expr rest ih => simp [Expr.referencesOf, ih]

/-- The columns that a part of a table clause refers to. -/
def TableItem.references : TableItem → List ColumnRef
  | .table _ => []
  | .token expr => expr.references

/-- The columns that a select refers to in its select list, in what follows its joins, in its
condition and in its order. -/
def Select.references (select : Select) : List ColumnRef :=
  Expr.referencesOf select.columns ++ select.tail.flatMap TableItem.references
    ++ Expr.referencesOf select.filter ++ Expr.referencesOf select.order

end Sql

/-! ## Well-typed references -/

/-- The reference is to a column of the entity that its qualifier stands for. -/
def Registry.HasColumn (registry : Registry) (entries : List (String × Occurrence))
    (reference : Sql.ColumnRef) : Prop :=
  ∃ alias_ occurrence entity column,
    reference = .of alias_ column.columnName ∧ entries.lookup alias_ = some occurrence ∧
      registry.lookup occurrence.entity = some entity ∧ column ∈ entity.columns

namespace Aliases

variable {registry : Registry}

theorem hasColumn_of_standsFor {aliases : Aliases} {alias_ : String} {entity : Entity}
    {column : Column} (stands : aliases.StandsFor alias_ entity.name)
    (registered : registry.lookup entity.name = some entity) (member : column ∈ entity.columns) :
    registry.HasColumn aliases.entries (.of alias_ column.columnName) := by
  obtain ⟨source?, entry⟩ := stands
  exact ⟨alias_, ⟨entity.name, source?⟩, entity, column, rfl,
    lookup_entries_iff.mpr entry, registered, member⟩

theorem hasColumn_mono {earlier later : Aliases} (more : earlier.Extends later)
    {reference : Sql.ColumnRef} (typed : registry.HasColumn earlier.entries reference) :
    registry.HasColumn later.entries reference := by
  obtain ⟨alias_, occurrence, entity, column, same, found, registered, member⟩ := typed
  have entry := mem_entries_mono more (lookup_entries_iff.mp found)
  exact ⟨alias_, occurrence, entity, column, same, lookup_entries_iff.mpr entry, registered, member⟩

/-- Hops lead from one table to the other, and the references are well typed over the latter. -/
structure Resolved (registry : Registry) (aliases : Aliases) (references : List Sql.ColumnRef)
    (later : Aliases) : Prop where
  hops : Hops registry aliases later
  typed : ∀ reference ∈ references, registry.HasColumn later.entries reference

namespace Resolved

theorem nil (aliases : Aliases) : Resolved registry aliases [] aliases :=
  ⟨.refl, fun _ member => nomatch member⟩

theorem append {aliases middle later : Aliases} {references more : List Sql.ColumnRef}
    (first : Resolved registry aliases references middle)
    (second : Resolved registry middle more later) :
    Resolved registry aliases (references ++ more) later := by
  refine ⟨first.hops.trans second.hops, fun reference member => ?_⟩
  rcases List.mem_append.mp member with early | late
  · exact hasColumn_mono second.hops.extends (first.typed reference early)
  · exact second.typed reference late

/-- Fewer references are resolved as well. -/
theorem subset {aliases later : Aliases} {references fewer : List Sql.ColumnRef}
    (resolved : Resolved registry aliases references later) (inside : fewer ⊆ references) :
    Resolved registry aliases fewer later :=
  ⟨resolved.hops, fun reference member => resolved.typed reference (inside member)⟩

theorem reached {aliases later : Aliases} {references : List Sql.ColumnRef}
    (resolved : Resolved registry aliases references later) (before : Reached registry aliases) :
    Reached registry later :=
  before.hops resolved.hops

end Resolved

end Aliases

end EntityQuery
