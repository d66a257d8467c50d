import EntityQuery.Proofs.Clauses.Solid
import EntityQuery.Proofs.Resolution.Conditions
import EntityQuery.Proofs.Growth.RepeatedItems
import EntityQuery.Proofs.Text.Lowercase

/-!
# Select lists in normal form

Where the names of a schema have no blanks and no quotation marks (`Schema.BareNames`), the text of
a column is bare (`Schema.BareNames.column`), and so is that of a column under its name in a full
selection.

The arguments of a call are cut out of it without regard to literals, and an argument that is a
field is replaced. Yet this leaves what is open behind it if the written names do so (`Neutral`):
the properties of a path are bare (`Schema.neutral_of_field`). Then the call closes its literals as
the item does, and has no blanks outside of them (`Schema.selectItem_solid`).
-/

set_option autoImplicit false

namespace EntityQuery

open Registry
open Query (Bare Tight Solid afterText isQuote)
open Aliases (Reached)

namespace Query

/-! ## Neutral texts -/

/-- A text behind which the same quotation mark is open as before it. -/
def Neutral (text : List Char) : Prop :=
  ∀ open_ : Option Char, (∀ mark ∈ open_, isQuote mark = true) → afterText open_ text = open_

theorem Bare.neutral {text : List Char} (bare : Bare text) : Neutral text :=
  fun _ marks => bare.afterText_eq marks

theorem neutral_flatten {texts : List (List Char)} (neutral : ∀ text ∈ texts, Neutral text) :
    Neutral texts.flatten := by
  intro open_ marks
  induction texts with
  | nil => rfl
  | cons text rest ih =>
      rw [List.flatten_cons, afterText_append, neutral text List.mem_cons_self open_ marks]
      exact ih fun other member => neutral other (List.mem_cons_of_mem _ member)

/-- A text is neutral if it is so outside literals and in those of either kind. -/
theorem neutral_iff {text : List Char} : Neutral text ↔
    afterText none text = none ∧ afterText (some '\'') text = some '\'' ∧
      afterText (some '"') text = some '"' := by
  constructor
  · intro neutral
    have within : ∀ quote, isQuote quote = true → afterText (some quote) text = some quote :=
      fun quote isMark => neutral (some quote) fun _ same => Option.some.inj same ▸ isMark
    exact ⟨neutral none nofun, within _ rfl, within _ rfl⟩
  · rintro ⟨outside, single, double⟩ open_ marks
    cases open_ with
    | none => exact outside
    | some quote =>
        rcases isQuote_eq_true_iff.mp (marks quote rfl) with rfl | rfl
        · exact single
        · exact double

instance (text : List Char) : Decidable (Neutral text) :=
  decidable_of_iff _ neutral_iff.symm

end Query

open Query (Neutral)

/-- The parts of a path with dots between them. -/
theorem Path.joined_ofText (text : String) :
    Text.joinChars '.'
      (((Path.ofText text).head :: (Path.ofText text).segments).map String.toList) =
      text.toList := by
  have pieces := Text.splitChars_ne_nil '.' text.toList
  have whole := Text.joinChars_splitChars '.' text.toList
  rw [Path.ofText, Text.splitAtChar]
  cases split : Text.splitChars '.' text.toList with
  | nil => exact absurd split pieces
  | cons head segments =>
      rw [split] at whole
      simpa [Function.comp_def] using whole

/-! ## Bare names -/

/-- The names of a schema have no blanks and no quotation marks, and those of tables are not empty.
-/
structure Schema.BareNames (schema : Schema) : Prop where
  tables : ∀ entity ∈ schema.entities, entity.table ≠ "" ∧ Bare entity.table.toList
  columns : ∀ entity ∈ schema.entities, ∀ column ∈ entity.columns, Bare column.columnName.toList
  properties : ∀ entity ∈ schema.entities, ∀ column ∈ entity.columns, Bare column.property.toList
  references : ∀ entity ∈ schema.entities, ∀ column ∈ entity.columns,
    ∀ reference ∈ column.reference?,
    Bare reference.toList

/-- The alias of an occurrence is bare. -/
theorem bare_aliasName (number : Nat) : Bare (aliasName number).toList := by
  intro c member
  have isWord := (Query.all_of_isIdentifier (isIdentifier_aliasName number)).2 c member
  exact ⟨Query.isBlank_of_isWordChar isWord, Query.isQuote_of_isWordChar isWord⟩

/-- A bare name under the alias of an occurrence. -/
theorem bare_reference (number : Nat) {name : String} (bare : Bare name.toList) :
    Bare (Sql.ColumnRef.of (aliasName number) name).render.toList ∧
      (Sql.ColumnRef.of (aliasName number) name).render.toList ≠ [] := by
  have dot : Bare ['.'] := by decide
  have text : (Sql.ColumnRef.of (aliasName number) name).render.toList =
      (aliasName number).toList ++ (['.'] ++ name.toList) := by
    simp [Sql.ColumnRef.render, Sql.ColumnRef.of]
  rw [text]
  exact ⟨(bare_aliasName number).append (dot.append bare), by simp⟩

namespace Schema

variable {schema : Schema} {aliases later : Aliases}

/-- The text of a column is bare. -/
theorem BareNames.column (names : schema.BareNames) {reference : Sql.ColumnRef}
    (typed : schema.HasColumn aliases.entries reference) :
    Bare reference.render.toList ∧ reference.render.toList ≠ [] := by
  obtain ⟨_, occurrence, entity, column, rfl, found, registered, member⟩ := typed
  obtain ⟨number, _, rfl⟩ := Aliases.mem_entries_iff.mp (Aliases.lookup_entries_iff.mp found)
  exact bare_reference number (names.columns entity (mem_of_lookup registered) column member)

theorem BareNames.solid_column (names : schema.BareNames) {reference : Sql.ColumnRef}
    (typed : schema.HasColumn aliases.entries reference) : Solid reference.render.toList :=
  (names.column typed).1.solid (names.column typed).2

/-! ## Fields -/

/-- The segments of a path that is followed are properties of columns. -/
theorem properties_of_following {entity : Entity} {alias_ : String}
    {lastHop? : Option Sql.ColumnRef} {segments : List String} {destination : Destination}
    (following : schema.Following entity alias_ lastHop? segments aliases destination later)
    (registered : entity ∈ schema.entities) :
    ∀ segment ∈ segments, ∃ owner ∈ schema.entities, ∃ column ∈ owner.columns,
      column.property = segment := by
  have own : ∀ {owner : Entity} {segment : String} {column : Column}, owner ∈ schema.entities →
      owner.column? segment = some column →
        ∃ owner ∈ schema.entities, ∃ column ∈ owner.columns, column.property = segment :=
    fun known named => ⟨_, known, _, Entity.mem_of_column? named, Entity.property_of_column? named⟩
  induction following with
  | ends => nofun
  | column _ _ _ named => exact List.forall_mem_singleton.mpr (own registered named)
  | hop _ named _ known _ ih =>
      exact List.forall_mem_cons.mpr
        ⟨own registered named, ih (mem_of_lookup (lookup_of_entity known))⟩

/-- **A field that is accepted is neutral** if the written names are. -/
theorem neutral_of_field (names : schema.BareNames) {entityEnd : EntityEnd} {text : String}
    {expr : Sql.Expr} (neutral : ∀ binding ∈ aliases.bindings, Neutral binding.written.toList)
    (succeeds : schema.field entityEnd text aliases = .ok (expr, later)) : Neutral text.toList := by
  obtain ⟨_, _, walked, _⟩ := field_eq_ok_iff.mp succeeds
  obtain ⟨binding, entity, found, known, followed⟩ := walk_eq_ok_iff.mp walked
  have dot : Bare ['.'] := by decide
  intro open_ marks
  rw [← Path.joined_ofText, (Query.joined_iff_flatten dot _ marks).1]
  refine Query.neutral_flatten (fun part member => ?_) open_ marks
  obtain ⟨piece, listed, rfl⟩ := List.mem_map.mp member
  rcases List.mem_cons.mp listed with rfl | segment
  · have written : binding.written = (Path.ofText text).head := by
      have holds := List.find?_some found
      exact beq_iff_eq.mp holds
    exact written ▸ neutral binding (List.mem_of_find?_eq_some found)
  · obtain ⟨owner, registered, column, inside, rfl⟩ :=
      properties_of_following (following_of_ok followed)
        (mem_of_lookup (lookup_of_entity known)) piece
        segment
    exact (names.properties owner registered column inside).neutral

/-! ## Calls -/

/-- An argument has no blanks outside its literals if its text has none, and the same is open behind
it. -/
theorem argument_tight (names : schema.BareNames) {text : String} {expr : Sql.Expr}
    (reached : Reached schema aliases)
    (neutral : ∀ binding ∈ aliases.bindings, Neutral binding.written.toList)
    (succeeds : schema.argument text aliases = .ok (expr, later)) {open_ : Option Char}
    (marks : ∀ mark ∈ open_, isQuote mark = true) (tight : Tight open_ text.toList) :
    Tight open_ expr.render.toList ∧
      afterText open_ expr.render.toList = afterText open_ text.toList := by
  have resolved := argument_resolved reached succeeds
  unfold argument at succeeds
  split at succeeds
  · obtain ⟨reference, rfl⟩ := exists_column_of_field succeeds
    have bare := (names.column (resolved.typed reference List.mem_cons_self)).1
    refine ⟨bare.tight, ?_⟩
    rw [neutral_of_field names neutral succeeds open_ marks]
    exact bare.afterText_eq marks
  · cases succeeds
    exact ⟨tight, rfl⟩

/-- **The arguments of a call one behind the other** have no blanks outside their literals if their
texts have none, and the same is open behind them. -/
theorem arguments_tight (names : schema.BareNames) {texts : List String} {exprs : List Sql.Expr}
    (reached : Reached schema aliases)
    (neutral : ∀ binding ∈ aliases.bindings, Neutral binding.written.toList)
    (succeeds : schema.arguments texts aliases = .ok (exprs, later)) {open_ : Option Char}
    (marks : ∀ mark ∈ open_, isQuote mark = true)
    (tight : Tight open_ (texts.map String.toList).flatten) :
    Tight open_ (exprs.map fun expr => expr.render.toList).flatten ∧
      afterText open_ (exprs.map fun expr => expr.render.toList).flatten =
        afterText open_ (texts.map String.toList).flatten := by
  induction texts generalizing aliases exprs open_ with
  | nil =>
      cases succeeds
      exact ⟨.nil _, rfl⟩
  | cons text rest ih =>
      obtain ⟨expr, middle, more, first, remaining, rfl⟩ := arguments_cons_eq_ok_iff.mp succeeds
      rw [List.map_cons, List.flatten_cons, Query.tight_append_iff] at tight
      obtain ⟨tightFirst, after⟩ := argument_tight names reached neutral first marks tight.1
      have neutralToo : ∀ binding ∈ middle.bindings, Neutral binding.written.toList := by
        rw [(argument_keeps first).bindings]
        exact neutral
      have reachedToo := (argument_resolved reached first).reached reached
      obtain ⟨tightRest, afterRest⟩ :=
        ih reachedToo neutralToo remaining (Query.isQuote_of_afterText marks _) tight.2
      rw [List.map_cons, List.flatten_cons, List.map_cons, List.flatten_cons,
        Query.tight_append_iff, Query.afterText_append, Query.afterText_append, after]
      exact ⟨⟨tightFirst, tightRest⟩, afterRest⟩

/-- The arguments one behind the other are what stands between the parentheses, without the commas.
-/
theorem flatten_argumentsOf (inner : List Char) :
    ((Query.argumentsOf inner).map String.toList).flatten =
      (Text.splitChars ',' inner).flatten := by
  rw [Query.argumentsOf, List.map_map,
    ← List.flatten_filter_not_isEmpty (L := Text.splitChars ',' inner)]
  congr 1
  exact List.map_id'' (fun _ => String.toList_ofList) _

/-- **A call is solid** if its item has no blanks outside literals and closes them. -/
theorem call_solid (names : schema.BareNames) {item : String} {exprs : List Sql.Expr}
    (reached : Reached schema aliases)
    (neutral : ∀ binding ∈ aliases.bindings, Neutral binding.written.toList)
    (tight : Tight none item.toList) (closed : afterText none item.toList = none)
    (isCall : '(' ∈ item.toList) (accepted : schema.selectItem item aliases = .ok (exprs, later)) :
    ∀ expr ∈ exprs, Solid expr.render.toList := by
  obtain ⟨closes, arguments, rfl, resolved⟩ := exists_call_of_selectItem isCall accepted
  intro expr member
  obtain rfl := List.mem_singleton.mp member
  have comma : Bare [','] := by decide
  rw [Query.eq_callName_append isCall closes, ← List.singleton_append] at tight closed
  obtain ⟨afterName, tightName⟩ := Query.lowercase_keeps (Query.callName item.toList)
  have marks := Query.isQuote_of_afterText
    (Query.isQuote_of_afterText Query.isQuote_of_none (Query.callName item.toList)) ['(']
  simp only [Query.tight_append_iff] at tight
  simp only [Query.afterText_append] at closed
  obtain ⟨nameTight, openingTight, innerTight, closingTight⟩ := tight
  -- what stands between the parentheses is tight, and the same is open behind the arguments
  obtain ⟨afterInner, innerIff⟩ :=
    Query.joined_iff_flatten comma (Text.splitChars ',' (Query.callInner item.toList)) marks
  rw [Text.joinChars_splitChars, ← flatten_argumentsOf] at afterInner innerIff
  obtain ⟨argumentsTight, afterArguments⟩ :=
    arguments_tight names reached neutral resolved marks (innerIff.mp innerTight)
  obtain ⟨afterJoined, joinedIff⟩ :=
    Query.joined_iff_flatten comma (arguments.map fun expr => expr.render.toList) marks
  have afterBoth := afterJoined.trans (afterArguments.trans afterInner.symm)
  rw [render_call, String.toList_ofList, ← List.singleton_append]
  refine .of_tight ?_ ?_ (by simp)
  · simp only [Query.tight_append_iff, afterName, afterBoth]
    exact ⟨tightName nameTight, openingTight, joinedIff.mpr argumentsTight, closingTight⟩
  · simp only [Query.afterText_append, afterName, afterBoth]
    exact closed

/-! ## Full selections -/

/-- The alias of the target of a hop is that of an occurrence. -/
theorem exists_number_join (aliases : Aliases) (owner : Entity) (ownerAlias : String)
    (column : Column) (target : Entity) :
    ∃ number, (aliases.join owner ownerAlias column target).1 = aliasName number := by
  rcases aliases.join_cases owner ownerAlias column target with ⟨alias_, first, same⟩ | ⟨_, same⟩
  · rw [same]
    obtain ⟨number, _, named⟩ := Option.map_eq_some_iff.mp first
    exact ⟨number, named.symm⟩
  · rw [same]
    exact ⟨_, rfl⟩

/-- **A full selection consists of columns of the schema**, each named by an alias and its property.
-/
theorem Expansion.exists_column {visiting : List String} {entity : Entity} {alias_ : String}
    {columns : List Column} {exprs : List Sql.Expr}
    (expansion : schema.Expansion visiting entity alias_ columns aliases exprs later)
    (named : ∃ number, alias_ = aliasName number) (registered : entity ∈ schema.entities)
    (own : columns ⊆ entity.columns) :
    ∀ expr ∈ exprs, ∃ number, ∃ owner ∈ schema.entities, ∃ column ∈ owner.columns,
      expr = namedColumn (aliasName number) column := by
  induction expansion with
  | done => nofun
  | @shown _ entity _ column _ _ _ _ _ _ ih =>
      obtain ⟨number, rfl⟩ := named
      intro expr member
      rcases List.mem_cons.mp member with rfl | later
      · exact ⟨number, entity, registered, column, own List.mem_cons_self, rfl⟩
      · exact ih ⟨number, rfl⟩ registered (List.subset_of_cons_subset own) expr later
  | skipped _ _ _ ih => exact ih named registered (List.subset_of_cons_subset own)
  | opened _ _ _ found _ _ ihInside ihOthers =>
      intro expr member
      rcases List.mem_append.mp member with inside | other
      · exact ihInside (exists_number_join ..) (mem_of_lookup found)
          (List.Subset.refl _) expr inside
      · exact ihOthers named registered (List.subset_of_cons_subset own) expr other

/-- A column under its name in a full selection is solid. -/
theorem BareNames.solid_namedColumn (names : schema.BareNames) (number : Nat) {owner : Entity}
    {column : Column} (registered : owner ∈ schema.entities) (member : column ∈ owner.columns) :
    Solid (namedColumn (aliasName number) column).render.toList := by
  have dot : Bare ['.'] := by decide
  have underscore : Bare ['_'] := by decide
  have word : Bare ['a', 's'] := by decide
  have alias_ := bare_aliasName number
  have qualified := alias_.append (dot.append (names.columns owner registered column member))
  have name := alias_.append (underscore.append (names.properties owner registered column member))
  have text : (namedColumn (aliasName number) column).render.toList =
      ((aliasName number).toList ++ (['.'] ++ column.columnName.toList)) ++
        ' ' ::
          (['a', 's'] ++ ' ' ::
            ((aliasName number).toList ++ (['_'] ++ column.property.toList))) := by
    simp [namedColumn, Sql.Expr.render, Sql.ColumnRef.render, Sql.ColumnRef.of]
  rw [text]
  exact (qualified.solid (by simp)).spaced
    ((word.solid (List.cons_ne_nil _ _)).spaced (name.solid (by simp)))

/-! ## Select clauses -/

/-- **The fragments of an item are solid** if it has no blanks outside literals and closes them. -/
theorem selectItem_solid (names : schema.BareNames) {item : String} {exprs : List Sql.Expr}
    (reached : Reached schema aliases)
    (neutral : ∀ binding ∈ aliases.bindings, Neutral binding.written.toList)
    (tight : Tight none item.toList) (closed : afterText none item.toList = none)
    (accepted : schema.selectItem item aliases = .ok (exprs, later)) :
    ∀ expr ∈ exprs, Solid expr.render.toList := by
  by_cases isCall : '(' ∈ item.toList
  · exact call_solid names reached neutral tight closed isCall accepted
  · have noOpening : item.toList.dropWhile (· ≠ '(') = [] := Text.dropWhile_of_notMem isCall
    cases selectItem_eq_ok_iff.mp accepted with
    | call read =>
        rw [Query.SelectItem.ofText?, noOpening] at read
        cases read
    | column _ walked =>
        cases (walk_lands reached walked).2 with
        | column typed => exact List.forall_mem_singleton.mpr (names.solid_column typed)
    | entity _ walked expanded =>
        cases (walk_lands reached walked).2 with
        | entity stands registered _ =>
            intro expr member
            obtain ⟨_, entry⟩ := stands
            obtain ⟨number, _, named⟩ := Aliases.mem_entries_iff.mp entry
            obtain ⟨shownAs, owner, known, column, inside, rfl⟩ :=
              (expansion_of_ok expanded).exists_column
              ⟨number, named⟩ (mem_of_lookup registered) (List.Subset.refl _) expr member
            exact names.solid_namedColumn shownAs known inside

theorem selectItems_solid (names : schema.BareNames) {items : List String} {exprs : List Sql.Expr}
    (reached : Reached schema aliases)
    (neutral : ∀ binding ∈ aliases.bindings, Neutral binding.written.toList)
    (sound : ∀ item ∈ items, Tight none item.toList ∧ afterText none item.toList = none)
    (accepted : schema.selectItems items aliases = .ok (exprs, later)) :
    ∀ expr ∈ exprs, Solid expr.render.toList := by
  induction items generalizing aliases exprs with
  | nil =>
      cases accepted
      nofun
  | cons item rest ih =>
      obtain ⟨first, middle, more, resolved, remaining, rfl⟩ :=
        selectItems_cons_eq_ok_iff.mp accepted
      obtain ⟨tight, closed⟩ := sound item List.mem_cons_self
      have neutralToo : ∀ binding ∈ middle.bindings, Neutral binding.written.toList := by
        rw [(selectItem_keeps resolved).bindings]
        exact neutral
      intro expr member
      rcases List.mem_append.mp member with early | late
      · exact selectItem_solid names reached neutral tight closed resolved expr early
      · exact ih ((selectItem_resolved reached resolved).reached reached) neutralToo
          (fun other listed => sound other (List.mem_cons_of_mem _ listed)) remaining expr late

/-- **The columns of a select clause are solid**, and there is one. -/
theorem selectClause_solid (names : schema.BareNames) {text : String} {columns : List Sql.Expr}
    (reached : Reached schema aliases)
    (neutral : ∀ binding ∈ aliases.bindings, Neutral binding.written.toList)
    (closed : afterText none text.toList = none)
    (accepted : schema.selectClause text aliases = .ok (columns, later)) :
    columns ≠ [] ∧ ∀ expr ∈ columns, Solid expr.render.toList := by
  obtain ⟨items, exprs, split, resolved, notEmpty, rfl⟩ := selectClause_eq_ok_iff.mp accepted
  refine ⟨keepFirst_ne_nil notEmpty, fun expr kept => ?_⟩
  have uncut := Query.uncut_slices split closed (exists_read_of_selectItems resolved)
  refine selectItems_solid names reached neutral (fun item listed => ?_) resolved expr
    (keepFirst_subset exprs kept)
  rw [(Query.splitSelectList_eq_ok_iff.mp split).2] at listed
  obtain ⟨dropped, inItems, rfl⟩ := List.mem_map.mp listed
  obtain ⟨slice, member, rfl⟩ := List.mem_map.mp inItems
  rw [String.toList_ofList, Query.afterText_dropBlanks]
  exact ⟨Query.tight_dropBlanks none slice, (uncut slice member).afterText_eq⟩

end Schema

end EntityQuery
