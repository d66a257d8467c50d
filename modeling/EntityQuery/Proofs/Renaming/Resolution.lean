import EntityQuery.Mapping.Query
import EntityQuery.Proofs.Renaming.Tokens
import EntityQuery.Proofs.Resolution.Expansion
import EntityQuery.Proofs.Text.Pieces
import Mathlib.Data.List.TakeWhile

/-!
# Resolution under other names

Written names become others (`Renames`), and everything that begins with such a name is read with
the other one in its place (`renameHead`). Of the alias table only the written names change
(`Aliases.rename`), and as long as no two of them become the same, each stands for what it stood for
(`Aliases.resolve?_rename`).

So what is resolved under the old names is resolved under the new ones, to the same columns under
the same aliases, and the tables that are left differ in the written names only (`Carries`): a path
(`walk_carries`), a field, the tokens of a clause, and what an entity selected in full stands for.
-/

set_option autoImplicit false

namespace EntityQuery

open Registry
open Query (isIdentifier NewName Renamed)

/-! ## Other names -/

/-- A name that an alias may have: an identifier that is no word of a keyword, and none of the words
that stand between entities. -/
structure NewAlias (name : String) : Prop where
  newName : NewName name.toList
  notJoinWord : joinWords.any (Text.sameIgnoringCase name) = false

instance (name : String) : Decidable (NewAlias name) :=
  decidable_of_iff (NewName name.toList ∧ joinWords.any (Text.sameIgnoringCase name) = false)
    ⟨fun both => ⟨both.1, both.2⟩, fun new => ⟨new.newName, new.notJoinWord⟩⟩

/-- Names are kept, unless they are identifiers, which may become other aliases. -/
def Renames (σ : String → String) : Prop :=
  ∀ name, σ name = name ∨ (isIdentifier name.toList = true ∧ NewAlias (σ name))

/-- The part of a text up to its first dot. -/
def headOf (text : List Char) : String :=
  String.ofList (text.takeWhile (· ≠ '.'))

/-- A text with another name in the place of its head. -/
def renameHead (σ : String → String) (text : List Char) : List Char :=
  (σ (headOf text)).toList ++ text.dropWhile (· ≠ '.')

theorem renameHead_of_eq {σ : String → String} {text : List Char}
    (same : σ (headOf text) = headOf text) : renameHead σ text = text := by
  rw [renameHead, same, headOf, String.toList_ofList, List.takeWhile_append_dropWhile]

variable {σ : String → String} {text : List Char}

/-- Only an identifier at the start of a text becomes another. -/
theorem renamed_renameHead (renames : Renames σ) (text : List Char) :
    Renamed text (renameHead σ text) := by
  rcases renames (headOf text) with same | ⟨identifier, becomes⟩
  · rw [renameHead_of_eq same]
    exact .kept text
  · have whole := text.takeWhile_append_dropWhile (p := (· ≠ '.'))
    have change : Renamed (text.takeWhile (· ≠ '.') ++ text.dropWhile (· ≠ '.'))
        (renameHead σ text) := by
      refine .head ?_ becomes.newName ?_
      · rwa [headOf, String.toList_ofList] at identifier
      · exact fun c isFirst => Text.eq_of_head?_dropWhile isFirst
    rwa [whole] at change

/-- The other name is the head of the new text. -/
theorem headOf_renameHead (renames : Renames σ) (text : List Char) :
    headOf (renameHead σ text) = σ (headOf text) ∧
      (renameHead σ text).dropWhile (· ≠ '.') = text.dropWhile (· ≠ '.') := by
  have noDot : '.' ∉ (σ (headOf text)).toList := by
    rcases renames (headOf text) with same | ⟨_, becomes⟩
    · rw [same, headOf, String.toList_ofList]
      exact Text.notMem_takeWhile '.' text
    · exact Query.notMem_of_isIdentifier becomes.newName.identifier (by decide)
  obtain ⟨before, behind⟩ := @Text.split_append '.' _ (text.dropWhile (· ≠ '.')) noDot
    fun _ isFirst => Text.eq_of_head?_dropWhile isFirst
  constructor
  · rw [headOf, renameHead, before, String.ofList_toList]
  · rw [renameHead, behind]

/-- A path with another name as its head. -/
def Path.rename (σ : String → String) (path : Path) : Path :=
  { path with head := σ path.head }

theorem Path.ofText_eq (text : List Char) :
    Path.ofText (String.ofList text) = ⟨headOf text,
      match text.dropWhile (· ≠ '.') with
      | [] => []
      | _ :: rest => (Text.splitChars '.' rest).map String.ofList⟩ := by
  rw [Path.ofText, Text.splitAtChar, String.toList_ofList, Text.splitChars_eq]
  cases text.dropWhile (· ≠ '.') <;> rfl

/-- The path of a text with another name in the place of its head. -/
theorem Path.ofText_renameHead (renames : Renames σ) (text : List Char) :
    Path.ofText (String.ofList (renameHead σ text)) =
      (Path.ofText (String.ofList text)).rename σ := by
  obtain ⟨head, others⟩ := headOf_renameHead renames text
  rw [Path.ofText_eq, Path.ofText_eq, head, others]
  rfl

/-! ## Alias tables under other names -/

/-- The binding of another name. -/
def Binding.rename (σ : String → String) (binding : Binding) : Binding :=
  { binding with written := σ binding.written }

namespace Aliases

/-- The same occurrences and joins, with other written names. -/
def rename (σ : String → String) (aliases : Aliases) : Aliases :=
  { aliases with bindings := aliases.bindings.map (Binding.rename σ) }

/-- No two written names become the same. -/
def Separates (σ : String → String) (aliases : Aliases) : Prop :=
  ∀ one ∈ aliases.bindings, ∀ other ∈ aliases.bindings,
    σ one.written = σ other.written → one.written = other.written

/-- **Every written name stands under its new form for what it stood for.** -/
theorem resolve?_rename {aliases : Aliases} (separates : aliases.Separates σ) {written : String}
    {binding : Binding} (found : aliases.resolve? written = some binding) :
    (aliases.rename σ).resolve? (σ written) = some (binding.rename σ) := by
  have isWritten : binding.written = written := beq_iff_eq.mp (List.find?_some found :)
  have bound := List.mem_of_find?_eq_some found
  unfold resolve? at found ⊢
  rw [rename, List.find?_map, ← Option.map_some, ← found]
  congr 1
  refine List.find?_congr fun other member => ?_
  rw [Bool.eq_iff_iff, Function.comp_apply, beq_iff_eq, beq_iff_eq, ← isWritten]
  constructor
  · exact separates other member binding bound
  · exact congrArg σ

theorem join_rename (σ : String → String) (aliases : Aliases) (owner : Entity) (ownerAlias : String)
    (column : Column) (target : Entity) :
    (aliases.rename σ).join owner ownerAlias column target =
      ((aliases.join owner ownerAlias column target).1,
        (aliases.join owner ownerAlias column target).2.rename σ) := by
  have first : (aliases.rename σ).first? target.name = aliases.first? target.name := rfl
  unfold join
  rw [first]
  cases aliases.first? target.name <;> rfl

end Aliases

/-! ## Computations under other names -/

variable {α β : Type}

/-- What succeeds under the old names succeeds under the new ones with the same result, and the
tables that are left differ in the written names only. -/
def Carries (σ : String → String) (outcome renamed : Except MappingError (α × Aliases)) : Prop :=
  ∀ value later, outcome = .ok (value, later) → renamed = .ok (value, later.rename σ)

namespace Carries

theorem ok (value : α) (aliases : Aliases) :
    Carries σ (.ok (value, aliases)) (.ok (value, aliases.rename σ)) := by
  rintro _ _ ⟨⟩
  rfl

theorem error (problem : MappingError) (renamed : Except MappingError (α × Aliases)) :
    Carries σ (.error problem) renamed :=
  nofun

/-- Steps one after another carry over if each of them does. -/
theorem bind {first firstRenamed : Except MappingError (α × Aliases)}
    {next nextRenamed : α × Aliases → Except MappingError (β × Aliases)}
    (one : Carries σ first firstRenamed)
    (others : ∀ value later, first = .ok (value, later) →
      Carries σ (next (value, later)) (nextRenamed (value, later.rename σ))) :
    Carries σ (first >>= next) (firstRenamed >>= nextRenamed) := by
  intro value later succeeds
  obtain ⟨⟨middle, between⟩, firstOk, nextOk⟩ := ok_of_bind succeeds
  exact bind_ok (one middle between firstOk) (others middle between firstOk value later nextOk)

/-- A step that reads no names carries over. -/
theorem step {first : Except MappingError α}
    {next nextRenamed : α → Except MappingError (β × Aliases)}
    (others : ∀ value, first = .ok value → Carries σ (next value) (nextRenamed value)) :
    Carries σ (first >>= next) (first >>= nextRenamed) := by
  intro value later succeeds
  obtain ⟨middle, firstOk, nextOk⟩ := ok_of_bind succeeds
  exact bind_ok firstOk (others middle firstOk value later nextOk)

end Carries

namespace Schema

variable {schema : Schema} {aliases : Aliases}

/-- Hops do not depend on the written names. -/
theorem follow_carries (entity : Entity) (alias_ : String) (lastHop? : Option Sql.ColumnRef)
    (segments : List String) (aliases : Aliases) :
    Carries σ (schema.follow entity alias_ lastHop? segments aliases)
      (schema.follow entity alias_ lastHop? segments (aliases.rename σ)) := by
  induction segments generalizing entity alias_ lastHop? aliases with
  | nil => exact .ok _ _
  | cons segment rest ih =>
      simp only [follow]
      split
      · exact .error _ _
      · split
        · apply Carries.step
          intro target _
          rw [Aliases.join_rename]
          exact ih _ _ _ _
        · split
          · exact .ok _ _
          · exact .error _ _

/-- **A path leads under its new head to where it led.** -/
theorem walk_carries (separates : aliases.Separates σ) (path : Path) :
    Carries σ (schema.walk path aliases)
      (schema.walk (path.rename σ) (aliases.rename σ)) := by
  unfold walk
  cases found : aliases.resolve? path.head with
  | none => exact .error _ _
  | some binding =>
      have renamed : (aliases.rename σ).resolve? (path.rename σ).head =
          some (binding.rename σ) := Aliases.resolve?_rename separates found
      rw [renamed]
      apply Carries.step
      intro entity _
      exact follow_carries entity _ _ _ _

theorem field_carries (renames : Renames σ) (separates : aliases.Separates σ)
    (entityEnd : EntityEnd) (text : List Char) :
    Carries σ (schema.field entityEnd (String.ofList text) aliases)
      (schema.field entityEnd (String.ofList (renameHead σ text)) (aliases.rename σ)) := by
  unfold field
  rw [Path.ofText_renameHead renames]
  apply (walk_carries separates _).bind
  intro destination later _
  apply Carries.step
  intro reference _
  exact .ok _ _

/-- What an entity selected in full stands for does not depend on the written names. -/
theorem expandColumns_carries (visiting : List String) (entity : Entity) (alias_ : String)
    (columns : List Column) (aliases : Aliases) :
    Carries σ (schema.expandColumns visiting entity alias_ columns aliases)
      (schema.expandColumns visiting entity alias_ columns (aliases.rename σ)) := by
  fun_induction Schema.expandColumns schema visiting entity alias_ columns aliases with
  | case1 visiting entity alias_ aliases =>
      rw [expandColumns]
      exact .ok _ _
  | case2 visiting entity alias_ aliases column rest ordinary ih =>
      rw [expandColumns, ordinary]
      apply ih.bind
      intro exprs later _
      exact .ok _ _
  | case3 visiting entity alias_ aliases column rest relation leads isLazy ih =>
      rw [expandColumns, leads]
      simp only [isLazy, if_true]
      exact ih
  | case4 visiting entity alias_ aliases column rest relation leads eager visited ih =>
      rw [expandColumns, leads]
      simp only [eager, dif_pos visited]
      exact ih
  | case5 visiting entity alias_ aliases column rest relation leads eager fresh missing =>
      exact .error _ _
  | case6 visiting entity alias_ aliases column rest relation leads eager fresh target found _
      targetAlias joined same ihInside ihOthers =>
      rw [expandColumns_opened leads (by simpa using eager) fresh found, Aliases.join_rename, same]
      apply ihInside.bind
      intro inner later _
      apply (ihOthers later).bind
      intro exprs last _
      exact .ok _ _

end Schema

/-! ## Tokens under other names -/

/-- A token with another name in the place of its head. -/
def Query.Token.rename (σ : String → String) (token : Query.Token) : Query.Token :=
  { token with lexeme := String.ofList (renameHead σ token.lexeme.toList) }

/-- A token of a clause with other names: only paths are read. -/
def Query.Token.renamePath (σ : String → String) (token : Query.Token) : Query.Token :=
  if token.kind = .path then token.rename σ else token

namespace Schema

variable {schema : Schema} {aliases : Aliases}

theorem token_carries (renames : Renames σ) (separates : aliases.Separates σ)
    (entityEnd : EntityEnd) (token : Query.Token) :
    Carries σ (schema.token entityEnd token aliases)
      (schema.token entityEnd (token.renamePath σ) (aliases.rename σ)) := by
  unfold Registry.token Query.Token.renamePath
  by_cases isPath : token.kind = .path
  · have whole := schema.field_carries renames separates entityEnd token.lexeme.toList
    rw [String.ofList_toList] at whole
    rw [if_pos isPath, if_pos isPath, if_pos (show (token.rename σ).kind = .path from isPath)]
    exact whole
  · rw [if_neg isPath, if_neg isPath, if_neg isPath]
    exact .ok _ _

/-- The table is the same as far as the written names go. -/
theorem Separates.of_keeps {later : Aliases} (separates : aliases.Separates σ)
    (keeps : aliases.Keeps later) : later.Separates σ := by
  unfold Aliases.Separates
  rw [keeps.bindings]
  exact separates

theorem tokens_carry (renames : Renames σ) (separates : aliases.Separates σ)
    (entityEnd : EntityEnd) (tokens : List Query.Token) :
    Carries σ (schema.tokens entityEnd tokens aliases)
      (schema.tokens entityEnd (tokens.map (Query.Token.renamePath σ)) (aliases.rename σ)) := by
  induction tokens generalizing aliases with
  | nil => exact .ok _ _
  | cons first rest ih =>
      apply (token_carries renames separates entityEnd first).bind
      intro expr later firstOk
      apply (ih (Separates.of_keeps separates (token_keeps firstOk))).bind
      intro exprs last _
      exact .ok _ _

end Schema

end EntityQuery
