import EntityQuery.Proofs.Growth.LongerQuery
import EntityQuery.Proofs.Resolution.Repetition
import EntityQuery.Proofs.SelectList.Copies

/-!
# Queries with repeated items

An item of a select list that is resolved again stands for the same fragments and adds no join and
no alias (`Schema.selectItem_settled`), and of fragments with the same text only the first is kept.
So further copies of items in a select list make no difference (`Schema.selectClause_withCopies`): a
query that repeats items of another one behind their first places (`Query.Repeats`) is compiled to
the same (`compile_repeats`).
-/

set_option autoImplicit false

namespace EntityQuery

/-! ## Fragments that are kept -/

/-- Only which texts have been seen counts, and not in which order. -/
theorem keepFirstFrom_congr {seen other : List String} (same : ∀ text, text ∈ seen ↔ text ∈ other)
    (exprs : List Sql.Expr) : keepFirstFrom seen exprs = keepFirstFrom other exprs := by
  induction exprs generalizing seen other with
  | nil => rfl
  | cons expr rest ih =>
      have sameToo : ∀ text, text ∈ expr.render :: seen ↔ text ∈ expr.render :: other := by
        intro text
        rw [List.mem_cons, List.mem_cons, same]
      rw [keepFirstFrom, keepFirstFrom, ih same, ih sameToo]
      simp only [same]

/-- What is kept of fragments behind others. -/
theorem keepFirstFrom_append_eq (seen : List String) (exprs more : List Sql.Expr) :
    keepFirstFrom seen (exprs ++ more) =
      keepFirstFrom seen exprs ++ keepFirstFrom (exprs.map Sql.Expr.render ++ seen) more := by
  induction exprs generalizing seen with
  | nil => rfl
  | cons expr rest ih =>
      rw [List.cons_append, keepFirstFrom, keepFirstFrom, List.map_cons]
      split
      · next old =>
        rw [ih]
        congr 1
        refine keepFirstFrom_congr (fun text => ?_) more
        simp only [List.cons_append, List.mem_cons, List.mem_append]
        constructor
        · exact .inr
        · rintro (rfl | known)
          · exact .inr old
          · exact known
      · rw [ih, List.cons_append]
        congr 2
        refine keepFirstFrom_congr (fun text => ?_) more
        simp only [List.cons_append, List.mem_cons, List.mem_append]
        exact or_left_comm

/-- Nothing is kept of fragments whose texts have been seen. -/
theorem keepFirstFrom_of_seen {seen : List String} {exprs : List Sql.Expr}
    (old : ∀ expr ∈ exprs, expr.render ∈ seen) : keepFirstFrom seen exprs = [] := by
  induction exprs with
  | nil => rfl
  | cons expr rest ih =>
      rw [keepFirstFrom, if_pos (old expr List.mem_cons_self)]
      exact ih fun other member => old other (List.mem_cons_of_mem _ member)

/-- The first fragment is kept. -/
theorem keepFirst_ne_nil {exprs : List Sql.Expr} (notEmpty : exprs ≠ []) :
    keepFirst exprs ≠ [] := by
  obtain ⟨expr, rest, rfl⟩ := List.exists_cons_of_ne_nil notEmpty
  rw [keepFirst, keepFirstFrom, if_neg List.not_mem_nil]
  exact List.cons_ne_nil _ _

namespace Schema

variable {schema : Schema} {aliases later : Aliases}

/-! ## Items that are repeated -/

/-- An item has been resolved, to fragments whose texts have been seen. -/
def Known (schema : Schema) (aliases : Aliases) (texts : List String) (item : String) : Prop :=
  ∃ exprs, Settled (schema.selectItem item) exprs aliases ∧ ∀ expr ∈ exprs, expr.render ∈ texts

theorem Known.mono {texts more : List String} {item : String}
    (known : schema.Known aliases texts item) (kept : aliases.Keeps later) (subset : texts ⊆ more) :
    schema.Known later more item := by
  obtain ⟨exprs, settled, seen⟩ := known
  exact ⟨exprs, settled.mono kept, fun expr member => subset (seen expr member)⟩

/-- **Copies of items make no difference**: they leave the alias table as it is, and none of their
fragments is kept. -/
theorem selectItems_withCopies {seen items longer : List String}
    (copies : WithCopies Eq seen items longer) {texts : List String}
    (known : ∀ item ∈ seen, schema.Known aliases texts item) {exprs : List Sql.Expr}
    (succeeds : schema.selectItems items aliases = .ok (exprs, later)) :
    ∃ all, schema.selectItems longer aliases = .ok (all, later) ∧
      keepFirstFrom texts all = keepFirstFrom texts exprs := by
  induction copies generalizing aliases texts exprs with
  | nil =>
      cases succeeds
      exact ⟨[], rfl, rfl⟩
  | @keep seen items longer first _ ih =>
      obtain ⟨one, middle, more, resolved, remaining, rfl⟩ := selectItems_cons_eq_ok_iff.mp succeeds
      have knownToo : ∀ item ∈ first :: seen,
          schema.Known middle (one.map Sql.Expr.render ++ texts) item := by
        intro item member
        rcases List.mem_cons.mp member with rfl | old
        · refine ⟨one, selectItem_settled resolved, fun expr inside => ?_⟩
          exact List.mem_append_left _ (List.mem_map_of_mem inside)
        · exact (known item old).mono (selectItem_keeps resolved) (List.subset_append_right _ _)
      obtain ⟨all, allOk, kept⟩ := ih knownToo remaining
      refine ⟨one ++ all,
        selectItems_cons_eq_ok_iff.mpr ⟨one, middle, all, resolved, allOk, rfl⟩, ?_⟩
      rw [keepFirstFrom_append_eq, keepFirstFrom_append_eq, kept]
  | @copy seen items longer item copy old same _ ih =>
      cases same
      obtain ⟨again, settled, texts_seen⟩ := known item old
      obtain ⟨all, allOk, kept⟩ := ih known succeeds
      refine ⟨again ++ all, selectItems_cons_eq_ok_iff.mpr
        ⟨again, aliases, all, settled aliases (.refl aliases), allOk, rfl⟩, ?_⟩
      rw [keepFirstFrom_append_eq, keepFirstFrom_of_seen texts_seen, List.nil_append, ← kept]
      refine keepFirstFrom_congr (fun text => ?_) all
      rw [List.mem_append, or_iff_right_of_imp]
      intro member
      obtain ⟨expr, inside, rfl⟩ := List.mem_map.mp member
      exact texts_seen expr inside

/-- The items of a select list that is accepted have a form that is known. -/
theorem exists_read_of_selectItems {items : List String} {exprs : List Sql.Expr}
    (succeeds : schema.selectItems items aliases = .ok (exprs, later)) :
    ∀ item ∈ items, ∃ read, Query.SelectItem.ofText? item = some read := by
  induction items generalizing aliases exprs with
  | nil => nofun
  | cons first rest ih =>
      obtain ⟨_, _, _, resolved, remaining, rfl⟩ := selectItems_cons_eq_ok_iff.mp succeeds
      refine List.forall_mem_cons.mpr ⟨?_, ih remaining⟩
      cases selectItem_eq_ok_iff.mp resolved with
      | call read | column read | entity read => exact ⟨_, read⟩

/-- **A select clause with copies of items has the same columns.** -/
theorem selectClause_withCopies {text more : String} {items longer : List String}
    {columns : List Sql.Expr} (split : Query.splitSelectList text = .ok items)
    (splitLonger : Query.splitSelectList more = .ok longer) (copies : WithCopies Eq [] items longer)
    (succeeds : schema.selectClause text aliases = .ok (columns, later)) :
    schema.selectClause more aliases = .ok (columns, later) := by
  obtain ⟨_, exprs, splitText, resolved, notEmpty, rfl⟩ := selectClause_eq_ok_iff.mp succeeds
  cases split.symm.trans splitText
  obtain ⟨all, resolvedToo, kept⟩ :=
    selectItems_withCopies copies (fun _ member => nomatch member) resolved
  refine selectClause_eq_ok_iff.mpr ⟨longer, all, splitLonger, resolvedToo, ?_, kept.symm⟩
  rintro rfl
  exact keepFirst_ne_nil notEmpty kept.symm

end Schema

/-! ## Queries -/

namespace Query

/-- A query repeats items of another one behind their first places, and is the same otherwise.
Either this is what the two are split into, or it is how they are written: in the normal form of the
query, with the keyword of the select clause in front, copies of items are put into the select list.
-/
inductive Repeats (query other : String) : Prop where
  | parsed {clauses : Clauses} {list : String} {items longer : List String}
      (split : splitClauses query = .ok clauses)
      (splitOther : splitClauses other = .ok { clauses with select := list })
      (listed : splitSelectList clauses.select = .ok items)
      (listedOther : splitSelectList list = .ok longer)
      (copies : WithCopies Eq [] items longer)
  | written {clauses : Clauses} {normal : String} {front rest : List Char}
      {others : List (List Char)}
      (split : splitClauses query = .ok clauses) (normalized : normalize query = .ok normal)
      (whole : normal.toList = front ++ (clauses.select.toList ++ rest))
      (keyword : front.length = "select ".toList.length)
      (copies : WithCopies WrittenAgain [] (slicesFrom 0 none clauses.select.toList) others)
      (same : normalize other =
        normalize (String.ofList (front ++ (Text.joinChars ',' others ++ rest))))

end Query

namespace Schema

variable {schema : Schema}

/-- A compiled query has columns, and no two of them have the same text. -/
theorem Stages.columns_sound {clauses : Query.Clauses} {compiled : Compiled}
    (stages : schema.Stages clauses compiled) :
    compiled.select.columns ≠ [] ∧ (compiled.select.columns.map Sql.Expr.render).Nodup := by
  cases stages with
  | clauses _ select =>
      obtain ⟨_, exprs, _, _, notEmpty, rfl⟩ := selectClause_eq_ok_iff.mp select
      exact ⟨keepFirst_ne_nil notEmpty, keepFirst_nodup exprs⟩

/-- Clauses with copies of items in the select list are compiled to the same. -/
theorem Stages.withCopies {clauses : Query.Clauses} {compiled : Compiled} {list : String}
    {items longer : List String} (stages : schema.Stages clauses compiled)
    (split : Query.splitSelectList clauses.select = .ok items)
    (splitLonger : Query.splitSelectList list = .ok longer)
    (copies : WithCopies Eq [] items longer) :
    schema.Stages { clauses with select := list } compiled := by
  cases stages with
  | clauses table select filter order =>
      exact .clauses table (selectClause_withCopies split splitLonger copies select) filter order

/-- The items of a query that is accepted have a form that is known. -/
theorem Stages.exists_items {clauses : Query.Clauses} {compiled : Compiled}
    (stages : schema.Stages clauses compiled) :
    ∃ items, Query.splitSelectList clauses.select = .ok items ∧
      ∀ item ∈ items, ∃ read, Query.SelectItem.ofText? item = some read := by
  cases stages with
  | clauses _ select =>
      obtain ⟨items, _, split, resolved, _⟩ := selectClause_eq_ok_iff.mp select
      exact ⟨items, split, exists_read_of_selectItems resolved⟩

/-- **Repeated items make no difference.** A query that is accepted has columns, and no two of them
have the same text. A query that repeats its items behind their first places is compiled to the
same, with the same aliases. -/
theorem compile_repeats (schema : Schema) (query : String) (compiled : Compiled)
    (accepted : schema.compile query = .ok compiled) :
    compiled.select.columns ≠ [] ∧ (compiled.select.columns.map Sql.Expr.render).Nodup ∧
      ∀ other, Query.Repeats query other → schema.compile other = .ok compiled := by
  obtain ⟨_, splitQuery, stages⟩ := exists_stages accepted
  obtain ⟨notEmpty, distinct⟩ := stages.columns_sound
  refine ⟨notEmpty, distinct, fun other repeats => ?_⟩
  cases repeats with
  | parsed split splitOther listed listedOther copies =>
      cases split.symm.trans splitQuery
      exact bind_ok (congrArg _ splitOther)
        (stages.withCopies listed listedOther copies).compileClauses_eq
  | written split normalized whole keyword copies same =>
      cases split.symm.trans splitQuery
      obtain ⟨items, listed, known⟩ := stages.exists_items
      obtain ⟨longer, splitOther, listedOther, copied⟩ :=
        Query.splitClauses_withCopies split listed known normalized whole keyword copies same
      exact bind_ok (congrArg _ splitOther)
        (stages.withCopies listed listedOther copied).compileClauses_eq

/-- A path and a call of a function, and both of them once more. -/
theorem compile_repeats_shops :
    ∃ compiled,
      Sample.schema.compile "select s.area.name, Count(s.id) from Shop s" = .ok compiled ∧
      compiled.sql =
        "select t1.name,count(t0.id) from t_shop t0 left join t_area t1 on t0.area_id = t1.id" ∧
      Query.Repeats "select s.area.name, Count(s.id) from Shop s"
        "select s.area.name, Count(s.id),s.area.name, Count(s.id) from Shop s" ∧
      Sample.schema.compile "select s.area.name, Count(s.id),s.area.name, Count(s.id) from Shop s" =
        .ok compiled := by
  have shown :
      (Sample.schema.compile "select s.area.name, Count(s.id) from Shop s").toOption.map
        Compiled.sql =
        some ("select t1.name,count(t0.id) from t_shop t0 " ++
          "left join t_area t1 on t0.area_id = t1.id") := by
    decide +kernel
  have split : Query.splitClauses "select s.area.name, Count(s.id) from Shop s" =
      .ok ⟨"s.area.name, Count(s.id)", "Shop s", none, none⟩ := by
    decide +kernel
  have normalized : Query.normalize "select s.area.name, Count(s.id) from Shop s" =
      .ok "select s.area.name, Count(s.id) from Shop s" := by
    decide +kernel
  have slices : Query.slicesFrom 0 none "s.area.name, Count(s.id)".toList =
      ["s.area.name".toList, " Count(s.id)".toList] := by
    decide +kernel
  have path : Query.WrittenAgain "s.area.name".toList "s.area.name".toList := .plain
  have call : Query.WrittenAgain " Count(s.id)".toList " Count(s.id)".toList :=
    .spaced (by decide +kernel)
  have copies : WithCopies Query.WrittenAgain []
      (Query.slicesFrom 0 none "s.area.name, Count(s.id)".toList)
      ["s.area.name".toList, " Count(s.id)".toList, "s.area.name".toList,
        " Count(s.id)".toList] := by
    rw [slices]
    exact .keep _ (.keep _ (.copy (.tail _ (.head _)) path (.copy (.head _) call (.nil _))))
  have whole : "select s.area.name, Count(s.id) from Shop s".toList =
      "select ".toList ++ ("s.area.name, Count(s.id)".toList ++ " from Shop s".toList) := by
    decide +kernel
  have written : "select s.area.name, Count(s.id),s.area.name, Count(s.id) from Shop s" =
      String.ofList ("select ".toList ++
        (Text.joinChars ',' ["s.area.name".toList, " Count(s.id)".toList, "s.area.name".toList,
          " Count(s.id)".toList] ++ " from Shop s".toList)) := by
    decide +kernel
  have repeats : Query.Repeats "select s.area.name, Count(s.id) from Shop s"
      "select s.area.name, Count(s.id),s.area.name, Count(s.id) from Shop s" :=
    .written split normalized whole rfl copies (congrArg Query.normalize written)
  obtain ⟨compiled, accepted, text⟩ := exists_ok_of_shown shown
  exact ⟨compiled, accepted, text, repeats,
    (compile_repeats Sample.schema _ compiled accepted).2.2 _ repeats⟩

end Schema

end EntityQuery
