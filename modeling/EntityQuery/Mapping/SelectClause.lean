import EntityQuery.Query.SelectList
import EntityQuery.Text.Lowercase
import EntityQuery.Mapping.Expansion

/-!
# Select clauses

An item of a select list is a call, a path to a column, or a path to an entity, which is selected in
full. The arguments of a call that are paths or written names stand for columns, all others for
themselves. Of fragments with the same text only the first is kept (`keepFirst_nodup`).
-/

set_option autoImplicit false

namespace EntityQuery

open Query (SelectItem)

/-- The expressions whose text is neither in `seen` nor that of an earlier one. -/
def keepFirstFrom (seen : List String) : List Sql.Expr → List Sql.Expr
  | [] => []
  | expr :: rest =>
    if expr.render ∈ seen then keepFirstFrom seen rest
    else expr :: keepFirstFrom (expr.render :: seen) rest

/-- The expressions without those whose text an earlier one has. -/
def keepFirst (exprs : List Sql.Expr) : List Sql.Expr :=
  keepFirstFrom [] exprs

theorem notMem_of_mem_keepFirstFrom {seen : List String} {expr : Sql.Expr} {exprs : List Sql.Expr}
    (mem : expr ∈ keepFirstFrom seen exprs) : expr.render ∉ seen := by
  induction exprs generalizing seen with
  | nil => cases mem
  | cons first rest ih =>
    unfold keepFirstFrom at mem
    split at mem
    · exact ih mem
    · next fresh =>
      rcases List.mem_cons.1 mem with rfl | later
      · exact fresh
      · exact fun old => ih later (List.mem_cons_of_mem _ old)

theorem keepFirstFrom_nodup (seen : List String) (exprs : List Sql.Expr) :
    ((keepFirstFrom seen exprs).map Sql.Expr.render).Nodup := by
  induction exprs generalizing seen with
  | nil => exact List.nodup_nil
  | cons first rest ih =>
    unfold keepFirstFrom
    split
    · exact ih seen
    · refine List.nodup_cons.2 ⟨fun mem => ?_, ih _⟩
      obtain ⟨later, memLater, same⟩ := List.mem_map.1 mem
      exact notMem_of_mem_keepFirstFrom memLater (same ▸ List.mem_cons_self ..)

/-- No two of the expressions kept have the same text. -/
theorem keepFirst_nodup (exprs : List Sql.Expr) : ((keepFirst exprs).map Sql.Expr.render).Nodup :=
  keepFirstFrom_nodup [] exprs

namespace Schema

/-- An argument of a call. -/
def argument (schema : Schema) (text : String) (aliases : Aliases) :
    Except MappingError (Sql.Expr × Aliases) :=
  if Query.isPath text.toList || (aliases.resolve? text).isSome then
    schema.field .identifier text aliases
  else .ok (.raw text, aliases)

/-- The arguments of a call one after another. -/
def arguments (schema : Schema) :
    List String → Aliases → Except MappingError (List Sql.Expr × Aliases)
  | [], aliases => .ok ([], aliases)
  | text :: rest, aliases => do
    let (expr, aliases) ← schema.argument text aliases
    let (exprs, aliases) ← schema.arguments rest aliases
    return (expr :: exprs, aliases)

/-- The fragments that an item of a select list stands for. -/
def selectItem (schema : Schema) (item : String) (aliases : Aliases) :
    Except MappingError (List Sql.Expr × Aliases) :=
  match SelectItem.ofText? item with
  | none => .error (.malformedQuery ("unsupported select expression '" ++ item ++ "'"))
  | some (.call name texts) => do
    let (exprs, aliases) ← schema.arguments texts aliases
    return ([.call (String.ofList (Text.lowercase name.toList)) exprs], aliases)
  | some (.path text) => do
    let (destination, aliases) ← schema.walk (Path.ofText text) aliases
    match destination with
    | .column reference => return ([.column reference], aliases)
    | .entity entity alias_ _ => schema.expand entity alias_ aliases

/-- The fragments of the items of a select list one after another. -/
def selectItems (schema : Schema) :
    List String → Aliases → Except MappingError (List Sql.Expr × Aliases)
  | [], aliases => .ok ([], aliases)
  | item :: rest, aliases => do
    let (exprs, aliases) ← schema.selectItem item aliases
    let (more, aliases) ← schema.selectItems rest aliases
    return (exprs ++ more, aliases)

/-- The columns of a select clause, of which there must be one. -/
def selectClause (schema : Schema) (text : String) (aliases : Aliases) :
    Except MappingError (List Sql.Expr × Aliases) := do
  let items ← (Query.splitSelectList text).mapError .ofText
  let (exprs, aliases) ← schema.selectItems items aliases
  if exprs.isEmpty then
    .error (.malformedQuery ("select list '" ++ text ++ "' resolves to no columns"))
  else return (keepFirst exprs, aliases)

end Schema

end EntityQuery
