import EntityQuery.Proofs.Renaming.SelectList
import EntityQuery.Proofs.SelectList.Calls

/-!
# Select clauses under other names

A select clause is compiled over a table that binds its names. If only such names become others, if
no two of them become the same, and if none becomes an argument that is no name itself
(`Aliases.Admits`), then an argument is resolved under the other names if it was resolved before,
and copied if it was copied (`Aliases.looksLikeField_rename`). So the clause with other names has
the columns of the old one (`Schema.selectClause_carries`).
-/

set_option autoImplicit false

namespace EntityQuery

open Query (SelectItem renameText renameSelect isIdentifier)

variable {σ : String → String}

namespace Aliases

/-- The names of a table may become others, where the given texts are arguments of calls: only names
that are bound do, no two of them become the same, and what becomes one of the texts was a name. -/
structure Admits (σ : String → String) (arguments : List String) (aliases : Aliases) : Prop where
  separates : aliases.Separates σ
  bound : ∀ name, σ name ≠ name → (aliases.resolve? name).isSome = true
  fresh : ∀ argument ∈ arguments, ∀ binding ∈ aliases.bindings, σ binding.written = argument →
    (aliases.resolve? argument).isSome = true

variable {arguments : List String} {aliases : Aliases}

theorem Admits.of_keeps {later : Aliases} (admits : aliases.Admits σ arguments)
    (keeps : aliases.Keeps later) :
    later.Admits σ arguments := by
  refine ⟨fun one bound other => ?_, fun name moved => ?_,
    fun argument listed binding bound same => ?_⟩
  · rw [keeps.bindings] at bound ⊢
    exact admits.separates one bound other
  · rw [keeps.resolve?_eq]
    exact admits.bound name moved
  · rw [keeps.bindings] at bound
    rw [keeps.resolve?_eq]
    exact admits.fresh argument listed binding bound same

/-- A name that is bound, alone or with a dot behind it, looks like a field. -/
theorem looksLikeField_of_head {text : List Char}
    (identifier : isIdentifier (headOf text).toList = true)
    (bound : (aliases.resolve? (headOf text)).isSome = true) :
    aliases.looksLikeField text = true := by
  have whole := text.takeWhile_append_dropWhile (p := (· ≠ '.'))
  rw [headOf, String.toList_ofList] at identifier
  rw [looksLikeField, Query.isPath_eq, identifier, Bool.and_true]
  cases rest : text.dropWhile (· ≠ '.') with
  | nil =>
      rw [rest, List.append_nil] at whole
      rw [headOf, whole] at bound
      rw [bound, Bool.or_true]
  | cons c more =>
      rw [rest] at whole
      obtain rfl : c = '.' := Text.eq_of_head?_dropWhile (by rw [rest]; rfl)
      have dot : text.contains '.' = true := by
        rw [← whole, List.contains_iff_mem]
        exact List.mem_append_right _ (List.mem_cons_self ..)
      rw [dot, Bool.true_or]

/-- An argument that begins with a name which becomes another looks like a field, before and after.
-/
theorem looksLikeField_of_moved (renames : Renames σ) (admits : aliases.Admits σ arguments)
    {text : List Char} (moved : σ (headOf text) ≠ headOf text) :
    aliases.looksLikeField text = true ∧
      (aliases.rename σ).looksLikeField (renameHead σ text) = true := by
  obtain ⟨identifier, becomes⟩ := (renames _).resolve_left moved
  have bound := admits.bound _ moved
  refine ⟨looksLikeField_of_head identifier bound, looksLikeField_of_head ?_ ?_⟩
  · rw [(headOf_renameHead renames text).1]
    exact becomes.newName.identifier
  · obtain ⟨binding, found⟩ := Option.isSome_iff_exists.mp bound
    rw [(headOf_renameHead renames text).1, resolve?_rename admits.separates found]
    rfl

/-- **An argument looks like a field under the other names if it did under the old ones.** -/
theorem looksLikeField_rename (renames : Renames σ) (admits : aliases.Admits σ arguments)
    {text : List Char} (listed : String.ofList text ∈ arguments) :
    (aliases.rename σ).looksLikeField (renameHead σ text) = aliases.looksLikeField text := by
  by_cases kept : σ (headOf text) = headOf text
  · have sameName : σ (String.ofList text) = String.ofList text := by
      rcases renames (String.ofList text) with same | ⟨identifier, _⟩
      · exact same
      · rw [String.toList_ofList] at identifier
        have head := @Query.takeWhile_of_isIdentifier _ [] identifier nofun
        rw [List.append_nil] at head
        rwa [headOf, head] at kept
    rw [renameHead_of_eq kept, looksLikeField, looksLikeField]
    congr 1
    rw [Bool.eq_iff_iff]
    constructor
    · intro resolved
      obtain ⟨binding, found⟩ := Option.isSome_iff_exists.mp resolved
      have isWritten := List.find?_some found
      obtain ⟨old, bound, rfl⟩ := List.mem_map.mp (List.mem_of_find?_eq_some found)
      exact admits.fresh _ listed old bound (beq_iff_eq.mp isWritten)
    · intro resolved
      obtain ⟨binding, found⟩ := Option.isSome_iff_exists.mp resolved
      rw [← sameName, resolve?_rename admits.separates found]
      rfl
  · obtain ⟨before, after⟩ := looksLikeField_of_moved renames admits kept
    rw [before, after]

end Aliases

/-- The arguments of the calls among the items of a select list. -/
def Query.callArguments (items : List String) : List String :=
  items.flatMap fun item =>
    match SelectItem.ofText? item with
    | some (.call _ arguments) => arguments
    | _ => []

namespace Schema

variable {schema : Schema} {aliases : Aliases} {arguments : List String}

/-- **An argument stands under the other names for what it stood for.** -/
theorem argument_carries (renames : Renames σ) (admits : aliases.Admits σ arguments) {text : String}
    (listed : text ∈ arguments) :
    Carries σ (schema.argument text aliases)
      (schema.argument (renameText σ text) (aliases.rename σ)) := by
  have before : (Query.isPath text.toList || (aliases.resolve? text).isSome) =
      aliases.looksLikeField text.toList := by
    rw [Aliases.looksLikeField, String.ofList_toList]
  have after : (Query.isPath (renameText σ text).toList ||
      ((aliases.rename σ).resolve? (renameText σ text)).isSome) =
        (aliases.rename σ).looksLikeField (renameHead σ text.toList) := by
    rw [Aliases.looksLikeField, renameText, String.toList_ofList]
  unfold argument
  rw [before, after, Aliases.looksLikeField_rename renames admits (by rwa [String.ofList_toList])]
  by_cases isField : aliases.looksLikeField text.toList = true
  · have field := schema.field_carries renames admits.separates .identifier text.toList
    rw [String.ofList_toList] at field
    rw [if_pos isField, if_pos isField]
    exact field
  · have kept : σ (headOf text.toList) = headOf text.toList := by
      by_contra moved
      exact isField (Aliases.looksLikeField_of_moved renames admits moved).1
    rw [if_neg isField, if_neg isField, renameText, renameHead_of_eq kept, String.ofList_toList]
    exact .ok _ _

theorem arguments_carry (renames : Renames σ) (admits : aliases.Admits σ arguments)
    {texts : List String} (listed : ∀ text ∈ texts, text ∈ arguments) :
    Carries σ (schema.arguments texts aliases)
      (schema.arguments (texts.map (renameText σ)) (aliases.rename σ)) := by
  induction texts generalizing aliases with
  | nil => exact .ok _ _
  | cons text rest ih =>
      apply (argument_carries renames admits (listed text (List.mem_cons_self ..))).bind
      intro expr later firstOk
      apply (ih (admits.of_keeps (argument_keeps firstOk))
        fun other member => listed other (List.mem_cons_of_mem _ member)).bind
      intro exprs last _
      exact .ok _ _

/-- **An item stands under the other names for the same columns.** -/
theorem selectItem_carries (renames : Renames σ) (admits : aliases.Admits σ arguments)
    {item other : String} (reads : ∀ read, SelectItem.ofText? item = some read →
      SelectItem.ofText? other = some (read.rename σ))
    (listed : ∀ name texts, SelectItem.ofText? item = some (.call name texts) →
      ∀ text ∈ texts, text ∈ arguments) :
    Carries σ (schema.selectItem item aliases) (schema.selectItem other (aliases.rename σ)) := by
  unfold selectItem
  cases found : SelectItem.ofText? item with
  | none => exact .error _ _
  | some read =>
      rw [reads read found]
      cases read with
      | call name texts =>
          apply (arguments_carry renames admits (listed name texts found)).bind
          intro exprs later _
          exact .ok _ _
      | path text =>
          have walked := schema.walk_carries admits.separates (Path.ofText text)
          have renamed := Path.ofText_renameHead renames text.toList
          rw [String.ofList_toList] at renamed
          simp only [SelectItem.rename, renameText, renamed]
          apply walked.bind
          intro destination later _
          cases destination with
          | column reference => exact .ok _ _
          | entity entity alias_ lastHop? => exact expandColumns_carries _ _ _ _ _

theorem selectItems_carry (renames : Renames σ) (admits : aliases.Admits σ arguments)
    {items others : List String}
    (reads : List.Forall₂ (fun item other => ∀ read, SelectItem.ofText? item = some read →
      SelectItem.ofText? other = some (read.rename σ)) items others)
    (listed : ∀ argument ∈ Query.callArguments items, argument ∈ arguments) :
    Carries σ (schema.selectItems items aliases)
      (schema.selectItems others (aliases.rename σ)) := by
  induction reads generalizing aliases with
  | nil => exact .ok _ _
  | @cons item other items others one more ih =>
      rw [Query.callArguments, List.flatMap_cons] at listed
      have first : Carries σ (schema.selectItem item aliases)
          (schema.selectItem other (aliases.rename σ)) := by
        refine selectItem_carries renames admits one fun name texts found text member => ?_
        refine listed text (List.mem_append_left _ ?_)
        rw [found]
        exact member
      apply first.bind
      intro exprs later firstOk
      apply (ih (admits.of_keeps (selectItem_keeps firstOk))
        fun argument member => listed argument (List.mem_append_right _ member)).bind
      intro moreExprs last _
      exact .ok _ _

/-- **A select clause with other names has the columns of the old one.** -/
theorem selectClause_carries (renames : Renames σ) {text : String} {items : List String}
    (split : Query.splitSelectList text = .ok items)
    (admits : aliases.Admits σ (Query.callArguments items)) :
    Carries σ (schema.selectClause text aliases)
      (schema.selectClause (String.ofList (renameSelect σ text.toList)) (aliases.rename σ)) := by
  obtain ⟨others, splitOthers, reads⟩ := Query.splitSelectList_renameSelect renames split
  unfold selectClause
  rw [split, splitOthers]
  have carries := schema.selectItems_carry renames admits reads fun _ member => member
  apply carries.bind
  intro exprs later _
  dsimp only
  split
  · exact .error _ _
  · exact .ok _ _

end Schema

end EntityQuery
