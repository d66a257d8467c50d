import EntityQuery.Proofs.Tables.Grammar
import EntityQuery.Proofs.Tables.Introduction

/-!
# Names of table entries

The entities that a table clause lists are its entries (`tableEntries`), each known by the alias
written after it, or else by its own name. Reading the clause gives a table, a binding and an
occurrence for each entry, in order, and keeps all that was there (`adds_of_tableItems`).

All entries of a query are bound in one list, where the latest binding of a name counts. So an entry
is addressed by its name exactly if no later entry of the clause has the same name
(`tableClause_addresses_iff`). A later entry takes the name away without notice: an alias may be
given twice, it may be the name of an entity listed without one, and an entity may be listed twice
without an alias.
-/

set_option autoImplicit false

namespace EntityQuery

open Query (Token)

/-- An entity of a table clause and the alias written after it. -/
structure TableEntry where
  entity : String
  alias? : Option String
  deriving DecidableEq, Repr

/-- The name that an entry is known by. -/
def TableEntry.written (entry : TableEntry) : String :=
  entry.alias?.getD entry.entity

/-- The entries of what is left of a table clause in a state. -/
def tableEntries (state : TableState) (tokens : List Token) : List TableEntry :=
  match tokens with
  | [] => []
  | token :: rest =>
    if token.isSeparator then tableEntries .entity rest
    else if token.isOn then tableEntries .condition rest
    else
      match state with
      | .entity =>
        have := length_takeAlias rest
        ⟨token.lexeme, (takeAlias rest).1⟩ :: tableEntries .any (takeAlias rest).2
      | .condition =>
        match found : takeCondition? token rest with
        | none => []
        | some (_, after) =>
          have := length_takeCondition? found
          tableEntries .any after
      | .any => tableEntries .any rest
termination_by tokens.length

section

variable {token : Token} {rest : List Token}

theorem tableEntries_separator (separator : token.isSeparator = true) (state : TableState) :
    tableEntries state (token :: rest) = tableEntries .entity rest := by
  rw [tableEntries.eq_def]
  simp only [separator, if_true]

theorem tableEntries_on (on : token.isOn = true) (state : TableState) :
    tableEntries state (token :: rest) = tableEntries .condition rest := by
  rw [tableEntries.eq_def]
  simp only [Token.not_isSeparator_of_isOn on, Bool.false_eq_true, if_false, on, if_true]

theorem tableEntries_entity (plain : token.isConnective = false) :
    tableEntries .entity (token :: rest) =
      ⟨token.lexeme, (takeAlias rest).1⟩ :: tableEntries .any (takeAlias rest).2 := by
  rw [tableEntries]
  simp only [Token.not_isSeparator_of_plain plain, Token.not_isOn_of_plain plain,
    Bool.false_eq_true, if_false]

theorem tableEntries_condition (plain : token.isConnective = false) {right : Token}
    {after : List Token} (complete : takeCondition? token rest = some (right, after)) :
    tableEntries .condition (token :: rest) = tableEntries .any after := by
  rw [tableEntries]
  simp only [Token.not_isSeparator_of_plain plain, Token.not_isOn_of_plain plain,
    Bool.false_eq_true, if_false]
  split
  · next incomplete =>
    rw [incomplete] at complete
    cases complete
  · next same =>
    rw [same] at complete
    cases complete
    rfl

theorem tableEntries_incomplete (plain : token.isConnective = false)
    (incomplete : takeCondition? token rest = none) :
    tableEntries .condition (token :: rest) = [] := by
  rw [tableEntries]
  simp only [Token.not_isSeparator_of_plain plain, Token.not_isOn_of_plain plain,
    Bool.false_eq_true, if_false]
  split
  · rfl
  · next complete =>
    rw [incomplete] at complete
    cases complete

theorem tableEntries_any (plain : token.isConnective = false) :
    tableEntries .any (token :: rest) = tableEntries .any rest := by
  rw [tableEntries]
  simp only [Token.not_isSeparator_of_plain plain, Token.not_isOn_of_plain plain,
    Bool.false_eq_true, if_false]

end

/-! ## What entries add -/

/-- The binding of an entry under the alias of its table. -/
def TableEntry.binding (entry : TableEntry) (reference : Sql.TableRef) : Binding :=
  ⟨entry.written, entry.entity, reference.alias_⟩

/-- The occurrence of an entry under the alias of its table. -/
def TableEntry.presented (entry : TableEntry) (reference : Sql.TableRef) : String × Occurrence :=
  (reference.alias_, ⟨entry.entity, none⟩)

/-- The table is that of the entity which the entry names. -/
def Registry.TableOf (registry : Registry) (entry : TableEntry) (reference : Sql.TableRef) : Prop :=
  ∃ entity, registry.lookup entry.entity = some entity ∧ reference.table = entity.table

/-- One alias table has in addition to another the given entries with their tables: a binding for
each, and an occurrence in the same order, between which joins may have been added. -/
structure Registry.Adds (registry : Registry) (entries : List TableEntry)
    (references : List Sql.TableRef) (aliases later : Aliases) : Prop where
  tables : List.Forall₂ registry.TableOf entries references
  bindings : later.bindings =
    (List.zipWith TableEntry.binding entries references).reverse ++ aliases.bindings
  occurrences : ∃ added, later.entries = aliases.entries ++ added ∧
    (List.zipWith TableEntry.presented entries references).Sublist added

namespace Registry

variable {registry : Registry} {entries : List TableEntry} {references : List Sql.TableRef}
  {aliases middle later : Aliases}

theorem Adds.nil (aliases : Aliases) : registry.Adds [] [] aliases aliases :=
  ⟨.nil, rfl, [], (List.append_nil _).symm, .slnil⟩

/-- What is added after some hops is added to the table before them. -/
theorem Adds.of_keeps (adds : registry.Adds entries references middle later)
    (keeps : aliases.Keeps middle) : registry.Adds entries references aliases later := by
  obtain ⟨added, whole, inOrder⟩ := adds.occurrences
  obtain ⟨joined, first⟩ := Aliases.Extends.entries_begin keeps.more
  refine ⟨adds.tables, keeps.bindings ▸ adds.bindings, joined ++ added, ?_, ?_⟩
  · rw [whole, ← first, List.append_assoc]
  · exact inOrder.trans (List.sublist_append_right _ _)

/-- What is added after an entry is added to the table before it, together with that entry. -/
theorem Adds.of_bind {entity : Entity} {written? : Option String}
    (registered : registry.lookup entity.name = some entity)
    (adds : registry.Adds entries references (aliases.bind entity.name written?).2 later) :
    registry.Adds (⟨entity.name, written?⟩ :: entries) (⟨entity.table, aliases.next⟩ :: references)
      aliases later := by
  obtain ⟨added, whole, inOrder⟩ := adds.occurrences
  refine ⟨.cons ⟨entity, registered, rfl⟩ adds.tables, ?_,
    (aliases.next, ⟨entity.name, none⟩) :: added, ?_, inOrder.cons_cons _⟩
  · rw [adds.bindings, List.zipWith_cons_cons, List.reverse_cons, List.append_assoc]
    rfl
  · rw [whole, Aliases.entries_bind, List.append_assoc, List.singleton_append]

/-- The bindings after a table clause are those of its entries. -/
theorem Adds.mem_written_iff (adds : registry.Adds entries references .empty later)
    {name : String} :
    name ∈ later.bindings.map Binding.written ↔ name ∈ entries.map TableEntry.written := by
  have written : ∀ {entries : List TableEntry} {references : List Sql.TableRef},
      List.Forall₂ registry.TableOf entries references →
      (List.zipWith TableEntry.binding entries references).map Binding.written =
        entries.map TableEntry.written := by
    intro entries references tables
    induction tables with
    | nil => rfl
    | cons _ _ ih => exact congrArg (_ :: ·) ih
  rw [adds.bindings, ← written adds.tables]
  simp [Aliases.empty]

/-- **The parts of a table clause add its entries, one for each table.** -/
theorem adds_of_tableItems {state : TableState} {tokens : List Token} {items : List Sql.TableItem}
    (succeeds : registry.tableItems state tokens aliases = .ok (items, later)) :
    registry.Adds (tableEntries state tokens) (items.filterMap Sql.TableItem.table?)
      aliases later := by
  fun_induction Registry.tableItems registry state tokens aliases generalizing items later with
  | case1 state aliases =>
      cases succeeds
      rw [tableEntries]
      exact .nil aliases
  | case2 state aliases token rest separator ih =>
      obtain ⟨⟨others, after⟩, remaining, same⟩ := ok_of_bind succeeds
      cases same
      rw [tableEntries_separator separator, List.filterMap_cons_none rfl]
      exact ih remaining
  | case3 state aliases token rest notSeparator on ih =>
      obtain ⟨⟨others, after⟩, remaining, same⟩ := ok_of_bind succeeds
      cases same
      rw [tableEntries_on on, List.filterMap_cons_none rfl]
      exact ih remaining
  | case4 aliases token rest notSeparator notOn _ ih =>
      obtain ⟨entity, found, bound⟩ := ok_of_bind succeeds
      obtain ⟨⟨others, after⟩, remaining, same⟩ := ok_of_bind bound
      cases same
      obtain ⟨name, registered⟩ := registered_of_entity found
      rw [tableEntries_entity (Token.plain_of_tests notSeparator notOn), ← name]
      exact .of_bind registered (ih _ remaining)
  | case5 => cases succeeds
  | case6 aliases token rest notSeparator notOn right after complete _ ih =>
      obtain ⟨⟨leftColumn, middle⟩, left_ok, rest_ok⟩ := ok_of_bind succeeds
      obtain ⟨⟨rightColumn, last⟩, right_ok, others_ok⟩ := ok_of_bind rest_ok
      obtain ⟨⟨others, final⟩, remaining, same⟩ := ok_of_bind others_ok
      cases same
      rw [tableEntries_condition (Token.plain_of_tests notSeparator notOn) complete]
      exact (ih last remaining).of_keeps ((field_keeps left_ok).trans (field_keeps right_ok))
  | case7 aliases token rest notSeparator notOn ih =>
      obtain ⟨⟨expr, middle⟩, first, others_ok⟩ := ok_of_bind succeeds
      obtain ⟨⟨others, after⟩, remaining, same⟩ := ok_of_bind others_ok
      cases same
      rw [tableEntries_any (Token.plain_of_tests notSeparator notOn)]
      exact (ih middle remaining).of_keeps (token_keeps first)

/-! ## Names that hold -/

/-- The name of an entry stands for the entity of the entry under the alias of its table. -/
def Addressed (aliases : Aliases) (entry : TableEntry) (reference : Sql.TableRef) : Prop :=
  aliases.resolve? entry.written = some (entry.binding reference)

instance (aliases : Aliases) (entry : TableEntry) (reference : Sql.TableRef) :
    Decidable (Addressed aliases entry reference) :=
  inferInstanceAs (Decidable (_ = _))

/-- Each of the added entries presents its table under the alias of the table. -/
theorem Adds.aliases_presented (adds : registry.Adds entries references aliases later) :
    (List.zipWith TableEntry.presented entries references).map Prod.fst =
      references.map Sql.TableRef.alias_ := by
  have tables := adds.tables
  clear adds
  induction tables with
  | nil => rfl
  | cons _ _ ih =>
      rw [List.zipWith_cons_cons, List.map_cons, ih]
      rfl

/-- No two of the added entries have tables under one alias. -/
theorem Adds.aliases_nodup (adds : registry.Adds entries references aliases later) :
    (references.map Sql.TableRef.alias_).Nodup := by
  obtain ⟨added, whole, inOrder⟩ := adds.occurrences
  have within : (List.zipWith TableEntry.presented entries references).Sublist later.entries :=
    whole ▸ inOrder.trans (List.sublist_append_right _ _)
  rw [← adds.aliases_presented]
  exact (within.map Prod.fst).nodup later.keys_nodup

section

variable {before after : List (TableEntry × Sql.TableRef)} {entry : TableEntry}
  {reference : Sql.TableRef}

/-- The bindings after a clause, around that of one entry. -/
theorem Adds.bindings_eq (adds : registry.Adds entries references aliases later)
    (split : entries.zip references = before ++ (entry, reference) :: after) :
    later.bindings =
      (after.map fun pair => pair.1.binding pair.2).reverse ++
        entry.binding reference ::
          ((before.map fun pair => pair.1.binding pair.2).reverse ++ aliases.bindings) := by
  rw [adds.bindings, ← List.map_uncurry_zip_eq_zipWith, split]
  simp only [List.map_append, List.map_cons, List.reverse_append, List.reverse_cons,
    List.append_assoc, List.cons_append, List.nil_append, Function.uncurry_def]

/-- The table of an entry has another alias than those of the entries after it. -/
theorem Adds.alias_ne (adds : registry.Adds entries references aliases later)
    (split : entries.zip references = before ++ (entry, reference) :: after) :
    ∀ other ∈ after, other.2.alias_ ≠ reference.alias_ := by
  have nodup := adds.aliases_nodup
  rw [← List.map_snd_zip (Nat.le_of_eq adds.tables.length_eq.symm), split, List.map_append,
    List.map_cons, List.map_append, List.map_cons] at nodup
  have fresh := (List.nodup_cons.mp (List.nodup_append.mp nodup).2.1).1
  intro other member same
  exact fresh (same ▸ List.mem_map_of_mem (List.mem_map_of_mem member))

/-- **An entry is addressed by its name exactly if no later one has the same name.** -/
theorem Adds.addressed_iff (adds : registry.Adds entries references aliases later)
    (split : entries.zip references = before ++ (entry, reference) :: after) :
    Addressed later entry reference ↔ ∀ other ∈ after, other.1.written ≠ entry.written := by
  unfold Addressed Aliases.resolve?
  rw [adds.bindings_eq split, List.find?_append]
  cases found : (after.map fun pair => pair.1.binding pair.2).reverse.find?
      fun binding => binding.written == entry.written with
  | none =>
      have fresh : ∀ other ∈ after, other.1.written ≠ entry.written := by
        intro other member same
        have differs := List.find?_eq_none.mp found (other.1.binding other.2)
          (List.mem_reverse.mpr (List.mem_map_of_mem member))
        exact differs (beq_iff_eq.mpr same)
      have own : ((entry.binding reference).written == entry.written) = true := beq_self_eq_true _
      rw [Option.none_or, List.find?_cons, own]
      exact iff_of_true rfl fresh
  | some binding =>
      obtain ⟨other, member, rfl⟩ :=
        List.mem_map.mp (List.mem_reverse.mp (List.mem_of_find?_eq_some found))
      have same : other.1.written = entry.written := by
        have holds := List.find?_some found
        exact beq_iff_eq.mp holds
      have elsewhere : other.1.binding other.2 ≠ entry.binding reference :=
        fun equal => adds.alias_ne split other member (congrArg Binding.alias_ equal)
      rw [Option.some_or, Option.some.injEq]
      exact iff_of_false elsewhere fun fresh => fresh other member same

end

/-! ## Table clauses -/

/-- **Over any registry, each entry of an accepted table clause has a table of its own, and is
addressed by its name exactly if no later entry of the clause has the same name.** -/
theorem tableClause_addresses_iff (registry : Registry) (text : String) (aliases later : Aliases)
    (first : Sql.TableRef) (tail : List Sql.TableItem)
    (accepted : registry.tableClause text aliases = .ok ((first, tail), later)) :
    ∃ tokens, Query.tokenize .table text = .ok tokens ∧
      registry.Adds (tableEntries .entity tokens)
        (first :: tail.filterMap Sql.TableItem.table?) aliases
        later ∧
      ∀ before entry reference after,
        (tableEntries .entity tokens).zip (first :: tail.filterMap Sql.TableItem.table?) =
            before ++ (entry, reference) :: after →
          (Addressed later entry reference ↔ ∀ other ∈ after, other.1.written ≠ entry.written) := by
  obtain ⟨tokens, items, scanned, parts, split⟩ := exists_items_of_tableClause accepted
  have adds := adds_of_tableItems parts
  rw [tables_of_splitFirstTable? split] at adds
  refine ⟨tokens, scanned, adds, ?_⟩
  intro before entry reference after around
  exact adds.addressed_iff around

/-- The second entry loses its name to the fourth, which is listed under the name of its entity. The
others keep theirs. -/
theorem tableClause_addresses_shops :
    ∃ first tail later,
      Sample.schema.tableClause "Shop s, Tag Area, Tag, Area" .empty = .ok ((first, tail), later) ∧
        Addressed later ⟨"Shop", some "s"⟩ ⟨"t_shop", "t0"⟩ ∧
        ¬ Addressed later ⟨"Tag", some "Area"⟩ ⟨"t_tag", "t1"⟩ ∧
        Addressed later ⟨"Tag", none⟩ ⟨"t_tag", "t2"⟩ ∧
        Addressed later ⟨"Area", none⟩ ⟨"t_area", "t3"⟩ := by
  have entries : (Query.tokenize .table "Shop s, Tag Area, Tag, Area").toOption.map
      (tableEntries .entity) =
      some [⟨"Shop", some "s"⟩, ⟨"Tag", some "Area"⟩, ⟨"Tag", none⟩, ⟨"Area", none⟩] := by
    decide +kernel
  have tables : (Sample.schema.tableClause "Shop s, Tag Area, Tag, Area" .empty).toOption.map
      (fun result => result.1.1 :: result.1.2.filterMap Sql.TableItem.table?) =
        some [⟨"t_shop", "t0"⟩, ⟨"t_tag", "t1"⟩, ⟨"t_tag", "t2"⟩, ⟨"t_area", "t3"⟩] := by
    decide +kernel
  obtain ⟨tokens, scanned, listed⟩ := exists_ok_of_shown entries
  obtain ⟨⟨⟨first, tail⟩, later⟩, accepted, introduced⟩ := exists_ok_of_shown tables
  obtain ⟨_, same, _, addressed⟩ :=
    tableClause_addresses_iff Sample.schema _ .empty later first tail accepted
  cases scanned.symm.trans same
  rw [listed, introduced] at addressed
  refine ⟨first, tail, later, accepted, ?_, ?_, ?_, ?_⟩
  · exact (addressed [] _ _ _ rfl).mpr (by decide)
  · exact fun holds =>
      (addressed [_] _ _ _ rfl).mp holds (⟨"Area", none⟩, ⟨"t_area", "t3"⟩) (by decide) rfl
  · exact (addressed [_, _] _ _ _ rfl).mpr (by decide)
  · exact (addressed [_, _, _] _ _ _ rfl).mpr (by decide)

/-- A clause that gives one alias to two entries is accepted, and the alias does not address the
first. -/
theorem tableClause_takesName :
    ∃ first tail later tokens,
      Sample.schema.tableClause "Area a, Shop a" .empty = .ok ((first, tail), later) ∧
        Query.tokenize .table "Area a, Shop a" = .ok tokens ∧
          ¬ ∀ pair ∈
            (tableEntries .entity tokens).zip (first :: tail.filterMap Sql.TableItem.table?),
              Addressed later pair.1 pair.2 := by
  have entries : (Query.tokenize .table "Area a, Shop a").toOption.map (tableEntries .entity) =
      some [⟨"Area", some "a"⟩, ⟨"Shop", some "a"⟩] := by
    decide +kernel
  have resolved : (Sample.schema.tableClause "Area a, Shop a" .empty).toOption.map
      (fun result => (result.1.1, result.2.resolve? "a")) =
        some (⟨"t_area", "t0"⟩, some ⟨"a", "Shop", "t1"⟩) := by
    decide +kernel
  obtain ⟨tokens, scanned, listed⟩ := exists_ok_of_shown entries
  obtain ⟨⟨⟨first, tail⟩, later⟩, accepted, same⟩ := exists_ok_of_shown resolved
  obtain ⟨rfl, taken⟩ := Prod.mk.inj same
  refine ⟨_, tail, later, tokens, accepted, scanned, fun addressed => ?_⟩
  rw [listed] at addressed
  have own := addressed (⟨"Area", some "a"⟩, ⟨"t_area", "t0"⟩) (List.mem_cons_self ..)
  exact absurd (taken.symm.trans own) (by decide)

end Registry

end EntityQuery
