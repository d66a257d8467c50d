import EntityQuery.Proofs.Renaming.Layout
import EntityQuery.Proofs.Renaming.SelectClause
import EntityQuery.Proofs.Resolution.Query
import EntityQuery.Proofs.Tokens.Places

/-!
# Queries under other aliases

The aliases of a query are written anew wherever they are resolved: in their entries, in the
conditions of joins, at the start of paths in the table clause, the condition and the order, and in
the items of the select list and the arguments of its calls (`Query.renameAliases`).

The new query is compiled to the statement and the aliases of the old one, if the names of the
entries are distinct and no new alias is a name that has been there
(`Schema.compile_renameAliases`). An argument of a call is read without its blanks, so it may be a
name that is not written as one (`compile_capturesArgument`).
-/

set_option autoImplicit false

namespace EntityQuery

open Registry

namespace Query

/-! ## The names of a query -/

/-- The entries of the table clause of a query. -/
def entries (query : String) : List TableEntry :=
  Option.getD (Except.toOption do
    let clauses ← splitClauses query
    let tokens ← tokenize .table clauses.table
    return tableEntries .entity tokens) []

/-- The aliases that are written in a query. -/
def aliases (query : String) : List String :=
  (entries query).filterMap TableEntry.alias?

/-- The arguments of the calls in the select list of a query. -/
def arguments (query : String) : List String :=
  Option.getD (Except.toOption do
    let clauses ← splitClauses query
    let items ← splitSelectList clauses.select
    return callArguments items) []

/-- Some names become others, the rest are kept. -/
def onNames (names : List String) (rename : String → String) (name : String) : String :=
  if name ∈ names then rename name else name

/-- The normal form of a query in which its aliases are written anew. -/
def renameAliases (rename : String → String) (query : String) : Except TextError String := do
  let normal ← normalize query
  let clauses ← splitNormal normal.toList
  let σ := onNames (aliases query) rename
  return String.ofList ((Layout.ofClauses normal.toList clauses).mapTexts (renameClause σ)).text

/-- The aliases of a query may be written anew. They are identifiers, and so are the new ones. No
new alias is a keyword or a word between entities, no two of them are the same, and none is a name
that the query has: that of an entity listed without an alias, or an argument of a call. -/
structure MayRename (rename : String → String) (query : String) : Prop where
  identifiers : ∀ alias_ ∈ aliases query, isIdentifier alias_.toList = true
  becomes : ∀ alias_ ∈ aliases query, NewAlias (rename alias_)
  injective : ∀ one ∈ aliases query, ∀ other ∈ aliases query,
    rename one = rename other → one = other
  fresh : ∀ alias_ ∈ aliases query, rename alias_ ∈ aliases query ∨
    (rename alias_ ∉ (entries query).map TableEntry.written ∧ rename alias_ ∉ arguments query)

instance (rename : String → String) (query : String) : Decidable (MayRename rename query) :=
  decidable_of_iff
    ((∀ alias_ ∈ aliases query, isIdentifier alias_.toList = true) ∧
      (∀ alias_ ∈ aliases query, NewAlias (rename alias_)) ∧
      (∀ one ∈ aliases query, ∀ other ∈ aliases query, rename one = rename other → one = other) ∧
      ∀ alias_ ∈ aliases query, rename alias_ ∈ aliases query ∨
        (rename alias_ ∉ (entries query).map TableEntry.written ∧ rename alias_ ∉ arguments query))
    ⟨fun ⟨identifiers, becomes, injective, fresh⟩ => ⟨identifiers, becomes, injective, fresh⟩,
      fun may => ⟨may.identifiers, may.becomes, may.injective, may.fresh⟩⟩

variable {query : String} {clauses : Clauses} {tokens : List Token}

theorem entries_eq (split : splitClauses query = .ok clauses)
    (scanned : tokenize .table clauses.table = .ok tokens) :
    entries query = tableEntries .entity tokens := by
  rw [entries, bind_of_ok split, bind_of_ok scanned]
  rfl

theorem arguments_eq {items : List String} (split : splitClauses query = .ok clauses)
    (listed : splitSelectList clauses.select = .ok items) :
    arguments query = callArguments items := by
  rw [arguments, bind_of_ok split, bind_of_ok listed]
  rfl

end Query

open Query (Clauses Token onNames)

/-! ## Names and entries -/

/-- The names of some entries may become others, where the given texts are arguments of calls. -/
structure Admissible (σ : String → String) (entries : List TableEntry)
    (arguments : List String) : Prop where
  renames : Renames σ
  apart : Apart σ (entries.map TableEntry.written)
  known : ∀ entry ∈ entries, entry.Known σ (entries.map TableEntry.written)
  listed : ∀ name, σ name ≠ name → name ∈ entries.map TableEntry.written
  fresh : ∀ argument ∈ arguments, ∀ name ∈ entries.map TableEntry.written, σ name = argument →
    argument ∈ entries.map TableEntry.written

theorem TableEntry.mem_written_of_alias {entries : List TableEntry} {alias_ : String}
    (member : alias_ ∈ entries.filterMap TableEntry.alias?) :
    alias_ ∈ entries.map TableEntry.written := by
  obtain ⟨entry, listed, isAlias⟩ := List.mem_filterMap.mp member
  refine List.mem_map.mpr ⟨entry, listed, ?_⟩
  rw [TableEntry.written, isAlias, Option.getD_some]

/-- If the names of entries are distinct, no alias is the name of an entity listed without one. -/
theorem TableEntry.not_mem_aliases {entries : List TableEntry}
    (distinct : (entries.map TableEntry.written).Nodup) {entry : TableEntry}
    (member : entry ∈ entries) (plain : entry.alias? = none) :
    entry.entity ∉ entries.filterMap TableEntry.alias? := by
  intro isAlias
  obtain ⟨other, listed, otherAlias⟩ := List.mem_filterMap.mp isAlias
  have same : other.written = entry.written := by
    rw [TableEntry.written, TableEntry.written, otherAlias, plain]
    rfl
  obtain rfl := List.inj_on_of_nodup_map distinct listed member same
  rw [plain] at otherAlias
  cases otherAlias

theorem Query.MayRename.admissible {rename : String → String} {query : String}
    (may : MayRename rename query) (distinct : ((entries query).map TableEntry.written).Nodup) :
    Admissible (onNames (aliases query) rename) (entries query) (arguments query) := by
  have moved : ∀ name ∈ aliases query, onNames (aliases query) rename name = rename name :=
    fun name isAlias => if_pos isAlias
  have kept : ∀ name, name ∉ aliases query → onNames (aliases query) rename name = name :=
    fun name notAlias => if_neg notAlias
  constructor
  case renames =>
    intro name
    by_cases isAlias : name ∈ aliases query
    · rw [moved name isAlias]
      exact .inr ⟨may.identifiers name isAlias, may.becomes name isAlias⟩
    · exact .inl (kept name isAlias)
  case apart =>
    -- an alias cannot become a name that is kept, since such a name has been there
    have crossing : ∀ one ∈ aliases query, ∀ other ∈ (entries query).map TableEntry.written,
        other ∉ aliases query → rename one ≠ other := by
      rintro one isAlias other listed notAlias rfl
      rcases may.fresh one isAlias with again | ⟨unused, _⟩
      · exact notAlias again
      · exact unused listed
    intro one listed other listedToo same
    by_cases isAlias : one ∈ aliases query <;> by_cases isAliasToo : other ∈ aliases query
    · rw [moved one isAlias, moved other isAliasToo] at same
      exact may.injective one isAlias other isAliasToo same
    · rw [moved one isAlias, kept other isAliasToo] at same
      exact absurd same (crossing one isAlias other listedToo isAliasToo)
    · rw [kept one isAlias, moved other isAliasToo] at same
      exact absurd same.symm (crossing other isAliasToo one listed isAlias)
    · rwa [kept one isAlias, kept other isAliasToo] at same
  case known =>
    exact fun entry member =>
      ⟨List.mem_map_of_mem member, fun plain =>
        kept _ (TableEntry.not_mem_aliases distinct member plain)⟩
  case listed =>
    intro name changed
    by_cases isAlias : name ∈ aliases query
    · exact TableEntry.mem_written_of_alias isAlias
    · exact absurd (kept name isAlias) changed
  case fresh =>
    rintro argument isArgument name listed same
    by_cases isAlias : name ∈ aliases query
    · rw [moved name isAlias] at same
      subst same
      rcases may.fresh name isAlias with again | ⟨_, unused⟩
      · exact TableEntry.mem_written_of_alias again
      · exact absurd isArgument unused
    · rw [kept name isAlias] at same
      exact same ▸ listed

/-- An alias of entries becomes what it is renamed to. -/
theorem TableEntry.map_rename_onNames (rename : String → String) (entries : List TableEntry) :
    entries.map (TableEntry.rename (onNames (entries.filterMap TableEntry.alias?) rename)) =
      entries.map (TableEntry.rename rename) := by
  refine List.map_congr_left fun entry member => ?_
  rw [TableEntry.rename, TableEntry.rename]
  cases isAlias : entry.alias? with
  | none => rfl
  | some alias_ =>
      have moved : onNames (entries.filterMap TableEntry.alias?) rename alias_ = rename alias_ :=
        if_pos (List.mem_filterMap.mpr ⟨entry, member, isAlias⟩)
      rw [Option.map_some, Option.map_some, moved]

/-! ## Clauses -/

/-- The clauses of a query with other names. -/
def Query.Clauses.rename (σ : String → String) (clauses : Clauses) : Clauses where
  select := String.ofList (renameClause σ .select clauses.select.toList)
  table := String.ofList (renameClause σ .table clauses.table.toList)
  filter? := clauses.filter?.map fun text => String.ofList (renameClause σ .filter text.toList)
  order? := clauses.order?.map fun text => String.ofList (renameClause σ .order text.toList)

theorem Query.Layout.clauses_mapTexts (σ : String → String) (layout : Layout) :
    (layout.mapTexts (renameClause σ)).clauses = layout.clauses.rename σ := by
  have texts : ∀ (clause : Clause) (phrase? : Option Phrase),
      ((phrase?.map (Phrase.mapText (renameClause σ clause))).map fun phrase =>
          String.ofList phrase.text) =
        (phrase?.map fun phrase => String.ofList phrase.text).map fun text =>
          String.ofList (renameClause σ clause text.toList) := by
    intro clause phrase?
    cases phrase? with
    | none => rfl
    | some phrase => simp [Phrase.mapText]
  simp only [clauses, mapTexts, Clauses.rename, texts, Phrase.mapText, String.toList_ofList]

/-- **A query with other names is split into the clauses with other names.** -/
theorem Query.splitClauses_rename {σ : String → String} (renames : Renames σ)
    {query normal : String} {clauses : Clauses} (normalized : normalize query = .ok normal)
    (split : splitNormal normal.toList = .ok clauses) :
    ∃ renamed,
      String.ofList ((Layout.ofClauses normal.toList clauses).mapTexts (renameClause σ)).text =
        renamed ∧
      normalize renamed = .ok renamed ∧ splitClauses renamed = .ok (clauses.rename σ) := by
  obtain ⟨isNormal, closed⟩ := normal_of_normalize normalized
  obtain ⟨layout, sound, text⟩ := exists_layout closed split
  rw [← text] at isNormal closed
  have same : clauses = layout.clauses := by
    rw [← text, sound.splitNormal_layout isNormal] at split
    exact (Except.ok.inj split).symm
  rw [← text, same, Layout.ofClauses_text sound]
  have respelled := sound.respelled_text (respelled_renameClause renames)
  have renamedNormal := respelled.normal (.inl rfl) isQuote_of_none isNormal
  have renamedClosed := (respelled.afterText_eq isQuote_of_none).trans closed
  have own := normalize_of_normal renamedNormal renamedClosed
  refine ⟨_, rfl, own, bind_ok own ?_⟩
  rw [String.toList_ofList,
    (sound.mapTexts (respelled_renameClause renames)).splitNormal_layout renamedNormal,
    Layout.clauses_mapTexts]

/-- The entries of a query with other names are the old ones with other aliases. -/
theorem Query.entries_rename {σ : String → String} (renames : Renames σ) {renamed : String}
    {clauses : Clauses} {tokens : List Token}
    (split : splitClauses renamed = .ok (clauses.rename σ))
    (scanned : tokenize .table clauses.table = .ok tokens) :
    entries renamed = (tableEntries .entity tokens).map (TableEntry.rename σ) := by
  obtain ⟨others, scannedToo, same⟩ :=
    exists_tokens_of_rewriteTokens scanned (renamed_renameTable renames .entity tokens)
  rw [entries_eq split scannedToo, tableEntries_of_sameLexemes .entity same,
    tableEntries_renameTable renames]

namespace Schema

variable {schema : Schema} {σ : String → String} {aliases : Aliases}

/-- **A condition or an order with other names stands for what it stood for.** -/
theorem condition_carries (renames : Renames σ) (separates : aliases.Separates σ)
    (marks : Query.MarkSet) (entityEnd : EntityEnd) (text? : Option String) :
    Carries σ (schema.condition marks entityEnd text? aliases)
      (schema.condition marks entityEnd
        (text?.map fun text => String.ofList
          (Query.rewriteTokens marks (List.map (Token.renamePath σ)) text.toList))
        (aliases.rename σ)) := by
  cases text? with
  | none => exact .ok _ _
  | some text =>
      intro exprs later succeeds
      obtain ⟨tokens, scanned, resolved⟩ := ok_of_bind succeeds
      obtain ⟨others, scannedToo, same⟩ := Query.exists_tokens_of_rewriteTokens
        (ok_of_mapError scanned) (Query.renamed_renamePaths renames tokens)
      rw [Option.map_some, condition, scannedToo]
      refine bind_ok rfl ?_
      rw [tokens_of_sameLexemes schema entityEnd same]
      exact tokens_carry renames separates entityEnd tokens exprs later resolved

/-- The table after a table clause admits other names. -/
theorem admits_of_adds {entries : List TableEntry} {references : List Sql.TableRef}
    {bound : Aliases} {arguments : List String} (adds : schema.Adds entries references .empty bound)
    (admissible : Admissible σ entries arguments) : bound.Admits σ arguments := by
  have listed : ∀ binding ∈ bound.bindings, binding.written ∈ entries.map TableEntry.written :=
    fun binding member => adds.mem_written_iff.mp (List.mem_map_of_mem member)
  have resolved : ∀ name ∈ entries.map TableEntry.written, (bound.resolve? name).isSome = true := by
    intro name member
    obtain ⟨binding, inside, same⟩ := List.mem_map.mp (adds.mem_written_iff.mpr member)
    exact List.find?_isSome.mpr ⟨binding, inside, beq_iff_eq.mpr same⟩
  constructor
  · exact fun one bound other boundToo =>
      admissible.apart _ (listed one bound) _ (listed other boundToo)
  · exact fun name changed => resolved name (admissible.listed name changed)
  · exact fun argument isArgument binding inside same =>
      resolved argument (admissible.fresh argument isArgument _ (listed binding inside) same)

/-- **A table clause with other names has the tables and conditions of the old one**, and admits the
other names. -/
theorem tableClause_renamed {text : String} {tokens : List Token} {arguments : List String}
    (scanned : Query.tokenize .table text = .ok tokens)
    (admissible : Admissible σ (tableEntries .entity tokens) arguments) :
    Carries σ (schema.tableClause text .empty)
      (schema.tableClause (String.ofList (Query.renameClause σ .table text.toList)) .empty) ∧
      ∀ parts bound, schema.tableClause text .empty = .ok (parts, bound) →
        bound.Admits σ arguments := by
  obtain ⟨others, scannedToo, same⟩ := Query.exists_tokens_of_rewriteTokens scanned
    (renamed_renameTable admissible.renames .entity tokens)
  constructor
  · rw [tableClause_eq_bind scanned, Query.renameClause, tableClause_eq_bind scannedToo,
      tableItems_of_sameLexemes schema .entity .empty same]
    have none : Aliases.empty.Among ((tableEntries .entity tokens).map TableEntry.written) := nofun
    apply (tableItems_carry admissible.renames admissible.apart .entity tokens .empty none
      admissible.known).bind
    intro items bound _
    dsimp only
    split
    · exact .ok _ _
    · exact .error _ _
  · intro parts bound accepted
    obtain ⟨tokensToo, items, scannedAgain, itemsOk⟩ := exists_tokens_of_tableClause accepted
    obtain rfl := Except.ok.inj (scanned.symm.trans scannedAgain)
    exact admits_of_adds (adds_of_tableItems itemsOk) admissible

/-- Clauses that are compiled have tokens of a table clause and items of a select list. -/
theorem Stages.exists_parts {clauses : Clauses} {compiled : Compiled}
    (stages : schema.Stages clauses compiled) :
    ∃ tokens items, Query.tokenize .table clauses.table = .ok tokens ∧
      Query.splitSelectList clauses.select = .ok items := by
  obtain ⟨tableOk, selectOk, _, _⟩ := stages
  obtain ⟨tokens, _, scanned, _⟩ := exists_tokens_of_tableClause tableOk
  obtain ⟨items, _, listed, _⟩ := selectClause_eq_ok_iff.mp selectOk
  exact ⟨tokens, items, scanned, listed⟩

/-- **Clauses with other names are compiled to what the old ones are compiled to.** -/
theorem Stages.rename {clauses : Clauses} {compiled : Compiled} {tokens : List Token}
    {items : List String} (stages : schema.Stages clauses compiled)
    (scanned : Query.tokenize .table clauses.table = .ok tokens)
    (listed : Query.splitSelectList clauses.select = .ok items)
    (admissible : Admissible σ (tableEntries .entity tokens) (Query.callArguments items)) :
    schema.Stages (clauses.rename σ) compiled := by
  have renames := admissible.renames
  obtain ⟨tableOk, selectOk, filterOk, orderOk⟩ := stages
  rename_i bound selected filtered last
  obtain ⟨tableCarries, admitted⟩ := schema.tableClause_renamed scanned admissible
  have admits := admitted _ _ tableOk
  have selectCarries := schema.selectClause_carries renames listed admits
  have separates := Separates.of_keeps admits.separates (selectClause_keeps selectOk)
  have filterCarries :=
    schema.condition_carries renames separates .filter .identifier clauses.filter?
  have separatesToo := Separates.of_keeps separates (condition_keeps filterOk)
  have orderCarries :=
    schema.condition_carries renames separatesToo .order .referencingKey clauses.order?
  -- the last table differs in the written names only, of which a compiled query has none
  have whole : schema.Stages (clauses.rename σ) _ :=
    .clauses (tableCarries _ _ tableOk) (selectCarries _ _ selectOk) (filterCarries _ _ filterOk)
      (orderCarries _ _ orderOk)
  exact whole

/-! ## Queries -/

/-- What a query is compiled to depends on its normal form only. -/
theorem compile_of_normalize {query other : String}
    (same : Query.normalize other = Query.normalize query) :
    schema.compile other = schema.compile query := by
  rw [compile, compile, Query.splitClauses, Query.splitClauses, same]

/-- **A query whose aliases are written anew is compiled to what it was compiled to.** Its entries
are the old ones with the new aliases, and what is compiled is the same, to the last alias that is
generated. So are all texts that differ from the new query in blanks only. -/
theorem compile_renameAliases (schema : Schema) (query : String) (rename : String → String)
    (compiled : Compiled) (accepted : schema.compile query = .ok compiled)
    (distinct : ((Query.entries query).map TableEntry.written).Nodup)
    (may : Query.MayRename rename query) :
    ∃ renamed, Query.renameAliases rename query = .ok renamed ∧
      Query.entries renamed = (Query.entries query).map (TableEntry.rename rename) ∧
      schema.compile renamed = .ok compiled ∧
      ∀ other, Query.normalize other = .ok renamed → schema.compile other = .ok compiled := by
  obtain ⟨clauses, split, stages⟩ := exists_stages accepted
  obtain ⟨tokens, items, scanned, listed⟩ := stages.exists_parts
  have admissible := may.admissible distinct
  have entries := Query.entries_eq split scanned
  rw [entries, Query.arguments_eq split listed] at admissible
  obtain ⟨normal, normalized, splitNormal⟩ := ok_of_bind split
  obtain ⟨renamed, text, own, splitToo⟩ :=
    Query.splitClauses_rename admissible.renames normalized splitNormal
  have compiledToo : schema.compile renamed = .ok compiled := by
    rw [compile, splitToo]
    exact (stages.rename scanned listed admissible).compileClauses_eq
  refine ⟨renamed, ?_, ?_, compiledToo, fun other same => ?_⟩
  · exact bind_ok normalized (bind_ok splitNormal (congrArg Except.ok text))
  · rw [Query.entries_rename admissible.renames splitToo scanned, ← entries]
    exact TableEntry.map_rename_onNames rename (Query.entries query)
  · rw [compile_of_normalize (same.trans own.symm), compiledToo]

/-- The aliases of a shop and its area become the generated aliases of each other. -/
theorem compile_renameAliases_shops :
    ∃ compiled renamed,
      Sample.schema.compile
          "select a.name, count( s ) from Shop s join Area a on s.area = a where s.area.id = 1" =
        .ok compiled ∧
      Query.MayRename (fun alias_ => if alias_ = "s" then "t1" else "t0")
        "select a.name, count( s ) from Shop s join Area a on s.area = a where s.area.id = 1" ∧
      renamed =
        "select t0.name, count( t1 ) from Shop t1 join Area t0 on t1.area = t0 " ++
          "where t1.area.id = 1" ∧
      Query.entries renamed = [⟨"Shop", some "t1"⟩, ⟨"Area", some "t0"⟩] ∧
      Sample.schema.compile renamed = .ok compiled := by
  have shown : (Sample.schema.compile
      "select a.name, count( s ) from Shop s join Area a on s.area = a where s.area.id = 1").isOk =
        true := by
    decide +kernel
  have entries : Query.entries
      "select a.name, count( s ) from Shop s join Area a on s.area = a where s.area.id = 1" =
        [⟨"Shop", some "s"⟩, ⟨"Area", some "a"⟩] := by
    decide +kernel
  have may : Query.MayRename (fun alias_ => if alias_ = "s" then "t1" else "t0")
      "select a.name, count( s ) from Shop s join Area a on s.area = a where s.area.id = 1" := by
    decide +kernel
  have text : Query.renameAliases (fun alias_ => if alias_ = "s" then "t1" else "t0")
      "select a.name, count( s ) from Shop s join Area a on s.area = a where s.area.id = 1" =
        .ok ("select t0.name, count( t1 ) from Shop t1 join Area t0 on t1.area = t0 " ++
          "where t1.area.id = 1") := by
    decide +kernel
  cases accepted : Sample.schema.compile
      "select a.name, count( s ) from Shop s join Area a on s.area = a where s.area.id = 1" with
  | error problem =>
      rw [accepted] at shown
      cases shown
  | ok compiled =>
      obtain ⟨renamed, same, entriesToo, compiledToo, _⟩ :=
        compile_renameAliases Sample.schema _ _ compiled accepted (by rw [entries]; decide) may
      obtain rfl := Except.ok.inj (text.symm.trans same)
      rw [entries] at entriesToo
      exact ⟨compiled, _, rfl, may, rfl, entriesToo, compiledToo⟩

/-- A new alias that is written nowhere in a query captures an argument that is read without its
blanks. -/
theorem compile_capturesArgument :
    (Sample.schema.compile "select count(x y) from Tag a").toOption.map Compiled.sql =
        some "select count(xy) from t_tag t0" ∧
      Query.entries "select count(x y) from Tag a" = [⟨"Tag", some "a"⟩] ∧
      Query.isIdentifier "a".toList = true ∧ NewAlias "xy" ∧
      ¬ "xy".toList <:+: "select count(x y) from Tag a".toList ∧
      Query.renameAliases (fun _ => "xy") "select count(x y) from Tag a" =
        .ok "select count(x y) from Tag xy" ∧
      Sample.schema.compile "select count(x y) from Tag xy" =
        .error (.missingIdentifierConfig "Tag") := by
  have fails : (Sample.schema.compile "select count(x y) from Tag xy").map Compiled.sql =
      .error (.missingIdentifierConfig "Tag") := by
    decide +kernel
  exact ⟨by decide +kernel, by decide +kernel, by decide +kernel, by decide +kernel,
    by decide +kernel, by decide +kernel, error_of_shown fails⟩

end Schema

end EntityQuery
