import EntityQuery.Proofs.Clauses.Gluing
import EntityQuery.Proofs.Renaming.Query
import EntityQuery.Proofs.SelectList.NormalForm

/-!
# Statements in normal form

A compiled query is put together from solid texts: tokens are solid (`Query.IsToken.solid`), and
over a schema with bare names so are the columns of the select list, the parts of the table clause
(`Schema.tableItems_solid`) and the joins (`Schema.join_solid`). So the statement is in normal form,
with its literals closed, and normalizing it changes nothing (`Schema.compile_normal`).

This needs the names of the entities that are listed without an alias to be neutral. Any other name,
such as the literal `'x"y'`, may be cut out of two neighbouring literals in the arguments of a call,
and its column put in their place leaves a literal open (`Schema.compile_leavesOpen`).
-/

set_option autoImplicit false

namespace EntityQuery

open Registry
open Aliases (Reached)
open Query (Bare Tight Solid Neutral IsToken Lexeme MarkSet afterText)

namespace Query

/-! ## Tokens -/

/-- In a literal nothing is a blank outside of it. -/
theorem Doubled.tight {quote : Char} {text : List Char} (isMark : isQuote quote = true)
    (doubled : Doubled quote text) : Tight (some quote) text := by
  induction doubled with
  | nil => exact .nil _
  | @other c rest differs _ ih =>
      exact .cons nofun ((afterChar_of_ne differs).symm ▸ ih)
  | @pair rest _ ih =>
      refine .cons nofun (.cons (fun _ => isBlank_of_isQuote isMark) ?_)
      rwa [afterChar_self, afterChar_of_isQuote isMark]

/-- **A token is solid**, and bare unless it is a literal. -/
theorem IsToken.solid {marks : MarkSet} {lexeme : Lexeme} (token : IsToken marks lexeme) :
    Solid lexeme.text ∧ (lexeme.kind ≠ .literal → Bare lexeme.text) := by
  obtain ⟨after, first⟩ := token
  have notEmpty : lexeme.text ≠ [] := by
    obtain ⟨c, rest, begins, _⟩ := first.begins
    exact begins ▸ List.cons_ne_nil c rest
  have closed := first.closed
  cases first with
  | @literal quote body _ opens closes =>
      obtain ⟨inner, rfl, doubled⟩ := exists_doubled_of_literalRest? closes
      refine ⟨.of_tight ?_ closed notEmpty, fun noLiteral => absurd rfl noLiteral⟩
      have isOpen := afterChar_of_isQuote opens
      refine .cons (fun _ => isBlank_of_isQuote opens)
        (isOpen ▸ tight_append_iff.mpr ⟨doubled.tight opens, ?_⟩)
      exact tight_of_visible fun c member => List.mem_singleton.mp member ▸ isBlank_of_isQuote opens
  | mark _ _ found =>
      have bare : Bare _ := MarkSet.visible (MarkSet.mem_of_markAt? found).1
      exact ⟨bare.solid notEmpty, fun _ => bare⟩
  | word _ ends =>
      have bare : Bare _ := visible_of_wordRest ends
      exact ⟨bare.solid notEmpty, fun _ => bare⟩

/-- The clauses of a query close their literals. -/
theorem closed_of_splitClauses {query : String} {clauses : Clauses}
    (split : splitClauses query = .ok clauses) :
    ∀ part ∈ clauses.parts, afterText none part.toList = none := by
  obtain ⟨normal, normalized, splitNormal⟩ := ok_of_bind split
  obtain ⟨isNormal, closed⟩ := normal_of_normalize normalized
  obtain ⟨layout, sound, _, rfl⟩ := (splitNormal_eq_ok_iff isNormal closed).mp splitNormal
  exact sound.parts_closed

end Query

namespace Schema

variable {schema : Schema} {aliases later : Aliases} {marks : MarkSet} {entityEnd : EntityEnd}

theorem field_solid (names : schema.BareNames) {text : String} {expr : Sql.Expr}
    (reached : Reached schema aliases)
    (succeeds : schema.field entityEnd text aliases = .ok (expr, later)) :
    Solid expr.render.toList := by
  have resolved := field_resolved reached succeeds
  obtain ⟨reference, rfl⟩ := exists_column_of_field succeeds
  exact names.solid_column (resolved.typed reference List.mem_cons_self)

theorem token_solid (names : schema.BareNames) {token : Query.Token} {expr : Sql.Expr}
    (reached : Reached schema aliases) (isToken : IsToken marks token.toLexeme)
    (succeeds : schema.token entityEnd token aliases = .ok (expr, later)) :
    Solid expr.render.toList := by
  unfold Registry.token at succeeds
  split at succeeds
  · exact field_solid names reached succeeds
  · cases succeeds
    exact isToken.solid.1

theorem tokens_solid (names : schema.BareNames) {tokens : List Query.Token} {exprs : List Sql.Expr}
    (reached : Reached schema aliases) (areTokens : ∀ token ∈ tokens, IsToken marks token.toLexeme)
    (succeeds : schema.tokens entityEnd tokens aliases = .ok (exprs, later)) :
    ∀ expr ∈ exprs, Solid expr.render.toList := by
  induction tokens generalizing aliases exprs with
  | nil =>
      cases succeeds
      nofun
  | cons token rest ih =>
      obtain ⟨expr, middle, more, first, remaining, rfl⟩ := tokens_cons_eq_ok_iff.mp succeeds
      intro other member
      rcases List.mem_cons.mp member with rfl | later
      · exact token_solid names reached (areTokens token List.mem_cons_self) first
      · exact ih ((token_resolved reached first).reached reached)
          (fun one listed => areTokens one (List.mem_cons_of_mem _ listed)) remaining other later

/-- The tokens of a text are tokens. -/
theorem isToken_of_tokenize {text : String} {tokens : List Query.Token}
    (read : Query.tokenize marks text = .ok tokens) :
    ∀ token ∈ tokens, IsToken marks token.toLexeme :=
  fun token member =>
    (Query.lexed_of_tokensFrom read).isToken token.toLexeme (List.mem_map_of_mem member)

/-- **The expressions of a condition are solid.** -/
theorem condition_solid (names : schema.BareNames) {text? : Option String} {exprs : List Sql.Expr}
    (reached : Reached schema aliases)
    (succeeds : schema.condition marks entityEnd text? aliases = .ok (exprs, later)) :
    ∀ expr ∈ exprs, Solid expr.render.toList := by
  cases text? with
  | none =>
      cases succeeds
      nofun
  | some text =>
      obtain ⟨tokens, read, resolves⟩ := ok_of_bind succeeds
      exact tokens_solid names reached (isToken_of_tokenize (ok_of_mapError read)) resolves

/-! ## Tables and joins -/

/-- A table under the alias of an occurrence is solid. -/
theorem BareNames.solid_table (names : schema.BareNames) {entity : Entity}
    (registered : schema.lookup entity.name = some entity) (number : Nat) :
    Solid (Sql.TableRef.render ⟨entity.table, aliasName number⟩).toList := by
  obtain ⟨notEmpty, bare⟩ := names.tables entity (mem_of_lookup registered)
  have text : (Sql.TableRef.render ⟨entity.table, aliasName number⟩).toList =
      entity.table.toList ++ ' ' :: (aliasName number).toList := by
    simp [Sql.TableRef.render]
  have alias_ : (aliasName number).toList ≠ [] :=
    (Query.all_of_isIdentifier (isIdentifier_aliasName number)).1
  rw [text]
  exact (bare.solid (by simpa using notEmpty)).spaced ((bare_aliasName number).solid alias_)

/-- An equation between solid texts is solid. -/
theorem solid_equation (left right : Sql.Expr) (leftSolid : Solid left.render.toList)
    (rightSolid : Solid right.render.toList) :
    Solid (Sql.Expr.equation left right).render.toList := by
  have equals : Bare ['='] := by decide
  have text : (Sql.Expr.equation left right).render.toList =
      left.render.toList ++ ' ' :: (['='] ++ ' ' :: right.render.toList) := by
    simp [Sql.Expr.render]
  rw [text]
  exact leftSolid.spaced ((equals.solid (List.cons_ne_nil _ _)).spaced rightSolid)

/-- **The parts of a table clause are solid.** -/
theorem tableItems_solid (names : schema.BareNames) {state : TableState} {tokens : List Query.Token}
    {items : List Sql.TableItem} (reached : Reached schema aliases)
    (areTokens : ∀ token ∈ tokens, IsToken marks token.toLexeme)
    (succeeds : schema.tableItems state tokens aliases = .ok (items, later)) :
    ∀ item ∈ items, Solid item.render.toList := by
  fun_induction Registry.tableItems schema state tokens aliases generalizing items later with
  | case1 state aliases =>
      cases succeeds
      exact List.forall_mem_nil _
  | case2 state aliases token rest _ ih =>
      obtain ⟨⟨others, after⟩, remaining, same⟩ := ok_of_bind succeeds
      cases same
      have restTokens := fun one listed => areTokens one (List.mem_cons_of_mem _ listed)
      exact List.forall_mem_cons.mpr ⟨(areTokens token List.mem_cons_self).solid.1,
        ih reached restTokens remaining⟩
  | case3 state aliases token rest _ _ ih =>
      obtain ⟨⟨others, after⟩, remaining, same⟩ := ok_of_bind succeeds
      cases same
      have restTokens := fun one listed => areTokens one (List.mem_cons_of_mem _ listed)
      exact List.forall_mem_cons.mpr ⟨(areTokens token List.mem_cons_self).solid.1,
        ih reached restTokens remaining⟩
  | case4 aliases token rest _ _ _ ih =>
      obtain ⟨entity, found, bound⟩ := ok_of_bind succeeds
      obtain ⟨⟨others, after⟩, remaining, same⟩ := ok_of_bind bound
      cases same
      have registered := (registered_of_entity found).2
      have restTokens := fun one listed => areTokens one
        (List.mem_cons_of_mem _ (takeAlias_subset rest listed))
      exact List.forall_mem_cons.mpr ⟨names.solid_table registered _,
        ih _ (.entry reached registered _) restTokens remaining⟩
  | case5 => cases succeeds
  | case6 aliases token rest _ _ right after complete _ ih =>
      obtain ⟨⟨leftColumn, middle⟩, left_ok, rest_ok⟩ := ok_of_bind succeeds
      obtain ⟨⟨rightColumn, last⟩, right_ok, others_ok⟩ := ok_of_bind rest_ok
      obtain ⟨⟨others, final⟩, remaining, same⟩ := ok_of_bind others_ok
      cases same
      have reachedMiddle := (field_resolved reached left_ok).reached reached
      have reachedLast := (field_resolved reachedMiddle right_ok).reached reachedMiddle
      have restTokens := fun one listed => areTokens one
        (List.mem_cons_of_mem _ (takeCondition?_subset complete (List.mem_cons_of_mem _ listed)))
      have condition := solid_equation leftColumn rightColumn (field_solid names reached left_ok)
        (field_solid names reachedMiddle right_ok)
      exact List.forall_mem_cons.mpr ⟨condition, ih last reachedLast restTokens remaining⟩
  | case7 aliases token rest _ _ ih =>
      obtain ⟨⟨expr, middle⟩, first, others_ok⟩ := ok_of_bind succeeds
      obtain ⟨⟨others, after⟩, remaining, same⟩ := ok_of_bind others_ok
      cases same
      have restTokens := fun one listed => areTokens one (List.mem_cons_of_mem _ listed)
      exact List.forall_mem_cons.mpr
        ⟨token_solid names reached (areTokens token List.mem_cons_self) first,
          ih middle ((token_resolved reached first).reached reached) restTokens remaining⟩

/-- **The joins of a table that can be reached are solid.** -/
theorem join_solid (names : schema.BareNames) (reached : Reached schema aliases) :
    ∀ join ∈ aliases.joins, Solid join.toLeftJoin.render.toList := by
  intro join member
  obtain ⟨entry, inside, realizes⟩ := Aliases.exists_related_of_mem reached.sound.joined member
  obtain ⟨number, _, named⟩ := Aliases.mem_entries_iff.mp (List.mem_of_mem_filter inside)
  cases realizes with
  | @hop owner ownerAlias column target hop alias_ =>
      obtain rfl : alias_ = aliasName number := named
      obtain ⟨_, ownerEntry⟩ := hop.stands
      obtain ⟨ownerNumber, _, rfl⟩ := Aliases.mem_entries_iff.mp ownerEntry
      have known := mem_of_lookup hop.registered
      have referenced : Bare column.referenceName.toList := by
        unfold Column.referenceName
        cases reference : column.reference? with
        | none => exact names.columns owner known column hop.leads.1
        | some name => exact names.references owner known column hop.leads.1 name reference
      have key := bare_reference ownerNumber (names.columns owner known column hop.leads.1)
      have reference := bare_reference number referenced
      have equation := solid_equation (.column _) (.column _) (key.1.solid key.2)
        (reference.1.solid reference.2)
      have table := names.solid_table hop.leads.target_registered number
      have left : Bare ['l', 'e', 'f', 't'] := by decide
      have join : Bare ['j', 'o', 'i', 'n'] := by decide
      have on : Bare ['o', 'n'] := by decide
      have whole := (left.solid nofun).spaced ((join.solid nofun).spaced (table.spaced
        ((on.solid nofun).spaced equation)))
      simpa [Sql.LeftJoin.render, Join.toLeftJoin, Aliases.joinOf] using whole

/-! ## Written names -/

end Schema

/-- The alias of an entry is a word of the clause. -/
theorem word_of_tableEntries (state : TableState) (tokens : List Query.Token) :
    ∀ entry ∈ tableEntries state tokens, ∀ alias_ ∈ entry.alias?,
      ∃ token ∈ tokens, token.kind = .word ∧ token.lexeme = alias_ := by
  have amongMore : ∀ {some all : List Query.Token} {alias_ : String}, some ⊆ all →
      (∃ token ∈ some, token.kind = .word ∧ token.lexeme = alias_) →
        ∃ token ∈ all, token.kind = .word ∧ token.lexeme = alias_ := by
    rintro _ _ _ subset ⟨word, member, isWord⟩
    exact ⟨word, subset member, isWord⟩
  fun_induction tableEntries state tokens with
  | case1 => exact List.forall_mem_nil _
  | case2 state token rest _ ih =>
      exact fun entry listed alias_ written =>
        amongMore (List.subset_cons_self _ _) (ih entry listed alias_ written)
  | case3 state token rest _ _ ih =>
      exact fun entry listed alias_ written =>
        amongMore (List.subset_cons_self _ _) (ih entry listed alias_ written)
  | case4 token rest _ _ _ ih =>
      intro entry listed alias_ written
      rcases List.mem_cons.mp listed with rfl | later
      · cases rest with
        | nil => cases written
        | cons next more =>
            simp only [takeAlias] at written
            split at written
            · next isAlias =>
              rw [isAliasToken, Bool.and_eq_true, beq_iff_eq] at isAlias
              exact ⟨next, List.mem_cons_of_mem _ List.mem_cons_self, isAlias.1,
                Option.some.inj written⟩
            · cases written
      · exact amongMore (List.subset_cons_of_subset _ (takeAlias_subset rest))
          (ih entry later alias_ written)
  | case5 => exact List.forall_mem_nil _
  | case6 token rest _ _ right after complete _ ih =>
      have subset :=
        List.Subset.trans (List.subset_cons_self right after) (takeCondition?_subset complete)
      exact fun entry listed alias_ written =>
        amongMore (List.subset_cons_of_subset _ subset) (ih entry listed alias_ written)
  | case7 token rest _ _ ih =>
      exact fun entry listed alias_ written =>
        amongMore (List.subset_cons_self _ _) (ih entry listed alias_ written)

namespace Schema

variable {schema : Schema} {aliases later : Aliases} {marks : MarkSet}

/-- **The written names are neutral** if those of the entities that are listed without an alias are.
-/
theorem neutral_bindings {state : TableState} {tokens : List Query.Token}
    {items : List Sql.TableItem} (areTokens : ∀ token ∈ tokens, IsToken marks token.toLexeme)
    (neutral : ∀ entry ∈ tableEntries state tokens, entry.alias? = none →
      Neutral entry.entity.toList)
    (succeeds : schema.tableItems state tokens .empty = .ok (items, later)) :
    ∀ binding ∈ later.bindings, Neutral binding.written.toList := by
  intro binding bound
  rw [(adds_of_tableItems succeeds).bindings, ← List.map_uncurry_zip_eq_zipWith] at bound
  obtain ⟨⟨entry, reference⟩, paired, rfl⟩ := List.mem_map.mp
    (List.mem_reverse.mp ((List.mem_append.mp bound).resolve_right List.not_mem_nil))
  have listed := (List.of_mem_zip paired).1
  change Neutral entry.written.toList
  unfold TableEntry.written
  cases written : entry.alias? with
  | none => exact neutral entry listed written
  | some alias_ =>
      obtain ⟨token, member, isWord, rfl⟩ :=
        word_of_tableEntries state tokens entry listed alias_ written
      refine ((areTokens token member).solid.2 ?_).neutral
      rw [Query.Token.toLexeme, isWord]
      intro same
      cases same

/-! ## Statements -/

/-- A clause behind a solid text is solid together with it. -/
theorem solid_renderClause {text : List Char} (solid : Solid text) (keyword : String)
    {word : List Char} (spaces : keyword.toList = ' ' :: (word ++ [' '])) (isWord : Solid word)
    {exprs : List Sql.Expr} (each : ∀ expr ∈ exprs, Solid expr.render.toList) :
    Solid (text ++ (Sql.renderClause keyword exprs).toList) := by
  unfold Sql.renderClause
  split
  · rwa [String.toList_empty, List.append_nil]
  · next notEmpty =>
    rw [List.isEmpty_iff] at notEmpty
    have joined : Solid (Text.joinChars ' ' (exprs.map fun expr => expr.render.toList)) :=
      Query.solid_joinChars (.inr rfl) (by simpa using notEmpty) (List.forall_mem_map.mpr each)
    have whole := solid.spaced (isWord.spaced joined)
    rw [String.toList_append, spaces, toList_renderList (c := ' ') rfl]
    simpa using whole

/-- The text of a select is solid if its parts are. -/
theorem select_solid {select : Sql.Select} (notEmpty : select.columns ≠ [])
    (columns : ∀ expr ∈ select.columns, Solid expr.render.toList)
    (first : Solid select.first.render.toList)
    (joins : ∀ join ∈ select.joins, Solid join.render.toList)
    (tail : ∀ item ∈ select.tail, Solid item.render.toList)
    (filter : ∀ expr ∈ select.filter, Solid expr.render.toList)
    (order : ∀ expr ∈ select.order, Solid expr.render.toList) : Solid select.render.toList := by
  have list : Solid (Sql.renderList "," select.columns).toList := by
    rw [toList_renderList (c := ',') rfl]
    exact Query.solid_joinChars (.inl rfl) (by simpa using notEmpty)
      (List.forall_mem_map.mpr columns)
  have tables : Solid select.renderTables.toList := by
    rw [Sql.Select.renderTables, toList_intercalate (c := ' ') rfl]
    refine Query.solid_joinChars (.inr rfl) (by simp)
      (List.forall_mem_map.mpr fun text member => ?_)
    rcases List.mem_append.mp member with front | behind
    · rcases List.mem_cons.mp front with rfl | joined
      · exact first
      · obtain ⟨join, listed, rfl⟩ := List.mem_map.mp joined
        exact joins join listed
    · obtain ⟨item, listed, rfl⟩ := List.mem_map.mp behind
      exact tail item listed
  have selects : Bare ['s', 'e', 'l', 'e', 'c', 't'] := by decide
  have from_ : Bare ['f', 'r', 'o', 'm'] := by decide
  have where_ : Bare ['w', 'h', 'e', 'r', 'e'] := by decide
  have ordered : Bare ['o', 'r', 'd', 'e', 'r'] := by decide
  have by_ : Bare ['b', 'y'] := by decide
  have front := (selects.solid nofun).spaced (list.spaced ((from_.solid nofun).spaced tables))
  have filtered := solid_renderClause front " where " rfl (where_.solid nofun) filter
  have whole := solid_renderClause filtered " order by " rfl
    ((ordered.solid nofun).spaced (by_.solid nofun)) order
  simpa [Sql.Select.render] using whole

/-- **The statement of a compiled query is in normal form** over a schema with bare names:
normalizing it succeeds and changes nothing. Its literals are closed, and outside of them it has no
other blank than single spaces, and none at its ends. The names of the entities that are listed
without an alias must be neutral. -/
theorem compile_normal (schema : Schema) (query : String) (compiled : Compiled)
    (names : schema.BareNames)
    (neutral : ∀ entry ∈ Query.entries query, entry.alias? = none → Neutral entry.entity.toList)
    (accepted : schema.compile query = .ok compiled) :
    Query.normalize compiled.sql = .ok compiled.sql ∧ afterText none compiled.sql.toList = none ∧
      Query.Normal .start none compiled.sql.toList := by
  obtain ⟨clauses, split, stages⟩ := exists_stages accepted
  suffices solid : Solid compiled.sql.toList by
    have unchanged := solid.normalize_eq
    rw [String.ofList_toList] at unchanged
    exact ⟨unchanged, solid.closed, solid.normal.of_pending .start⟩
  cases stages with
  | @clauses first tail columns filter order bound selected filtered last table select
      filterOk orderOk =>
      obtain ⟨tokens, items, read, itemsOk, splitFirst⟩ := exists_items_of_tableClause table
      have areTokens := isToken_of_tokenize read
      rw [Query.entries_eq split read] at neutral
      have reachedBound := (tableRun_of_ok .empty itemsOk).reached .empty
      have reachedSelected := (selectClause_resolved reachedBound select).reached reachedBound
      have reachedFiltered := (condition_resolved reachedSelected filterOk).reached reachedSelected
      have reachedLast := (condition_resolved reachedFiltered orderOk).reached reachedFiltered
      have parts := tableItems_solid names .empty areTokens itemsOk
      obtain ⟨before, after, rfl, rfl, _⟩ := splitFirstTable?_eq_some splitFirst
      obtain ⟨notEmpty, columnsSolid⟩ := selectClause_solid names reachedBound
        (neutral_bindings areTokens neutral itemsOk)
        (Query.closed_of_splitClauses split clauses.select List.mem_cons_self) select
      refine select_solid notEmpty columnsSolid (parts (.table first) (by simp)) ?_ ?_
        (condition_solid names reachedSelected filterOk)
          (condition_solid names reachedFiltered orderOk)
      · exact List.forall_mem_map.mpr (join_solid names reachedLast)
      · intro item member
        refine parts item ?_
        rw [List.mem_append, List.mem_cons]
        exact (List.mem_append.mp member).imp id .inr

/-- A call with a literal, a hop and a condition with a literal. -/
theorem compile_normal_shops :
    ∃ compiled, Sample.schema.compile
        "select F( 'a , b' ,s.id), s.area.name from Shop s where s.area.name='  '" = .ok compiled ∧
      compiled.sql = "select f('a , b',t0.id),t1.name from t_shop t0"
        ++ " left join t_area t1 on t0.area_id = t1.id where t1.name = '  '" ∧
      Query.normalize compiled.sql = .ok compiled.sql ∧ afterText none compiled.sql.toList = none ∧
        Query.Normal .start none compiled.sql.toList := by
  have shown : (Sample.schema.compile
      "select F( 'a , b' ,s.id), s.area.name from Shop s where s.area.name='  '").toOption.map
        Compiled.sql = some ("select f('a , b',t0.id),t1.name from t_shop t0"
          ++ " left join t_area t1 on t0.area_id = t1.id where t1.name = '  '") := by
    decide +kernel
  obtain ⟨compiled, accepted, text⟩ := exists_ok_of_shown shown
  have names : Sample.schema.BareNames :=
    ⟨by decide +kernel, by decide +kernel, by decide +kernel, by decide +kernel⟩
  exact ⟨compiled, accepted, text,
    compile_normal Sample.schema _ compiled names (by decide +kernel) accepted⟩

/-- The schema of one entity whose name is a literal with a quotation mark of the other kind. -/
def Sample.quoted : Schema where
  entities := [⟨"'x\"y'", "t_x", some "id", [⟨"id", none, .number, false, none⟩], .empty⟩]
  distinct := by decide
  wellFormed := by
    intro entity member
    obtain rfl := List.mem_singleton.mp member
    exact Entity.validate_eq_ok_iff.mp rfl

/-- The name of an entity is cut out of two literals, and its identifier put in their place leaves a
literal open. -/
theorem compile_leavesOpen :
    Sample.quoted.BareNames ∧
      ∃ compiled, Sample.quoted.compile "select f('a,'x\"y',b\") from 'x\"y'" = .ok compiled ∧
        compiled.sql = "select f('a,t0.id,b\") from t_x t0" ∧
        Query.normalize compiled.sql = .error (.unterminatedLiteral 9) := by
  have shown : (Sample.quoted.compile "select f('a,'x\"y',b\") from 'x\"y'").toOption.map
      Compiled.sql =
      some "select f('a,t0.id,b\") from t_x t0" := by
    decide +kernel
  obtain ⟨compiled, accepted, text⟩ := exists_ok_of_shown shown
  refine ⟨⟨by decide +kernel, by decide +kernel, by decide +kernel, by decide +kernel⟩,
    compiled, accepted, text, ?_⟩
  rw [text]
  decide +kernel

end Schema

end EntityQuery
