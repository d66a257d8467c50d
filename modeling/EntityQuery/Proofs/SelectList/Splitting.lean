import EntityQuery.Proofs.SelectList.Copies

/-!
# Select lists taken apart

The items of a text, with commas between them, make up the text without its blanks outside literals
(`joinChars_itemsFrom`). They are cut at these commas and nowhere else (`sliced_itemsFrom`), so an
item by itself is not cut again (`itemsFrom_of_mem`).

A comma behind a text that ends outside literals and parentheses is a cut, and the items of what is
on either side of it stand one after the other (`itemsFrom_append_comma`). So a list that is put
together from two such lists is accepted if and only if both are, and has the items of both
(`splitSelectList_exact`).
-/

set_option autoImplicit false

namespace EntityQuery.Query

open Text (joinChars)

variable {depth : Nat} {open_ : Option Char} {text item : List Char} {slices : List (List Char)}

/-- How many parentheses are open after a text. In a literal none is opened or closed. -/
def depthFrom : Nat → Option Char → List Char → Nat
  | depth, _, [] => depth
  | depth, open_, c :: rest => depthFrom (depthWith open_ depth c) (afterChar open_ c) rest

/-- A text at whose end no literal and no parenthesis is open. -/
structure EndsOutside (text : List Char) : Prop where
  literals : afterText none text = none
  parentheses : depthFrom 0 none text = 0

/-- The parts into which a select list is taken apart: joined with commas they are the list without
its blanks outside literals, and it is cut at these commas and nowhere else. -/
structure TakesApart (list : String) (items : List (List Char)) : Prop where
  joined : joinChars ',' items = dropBlanks none list.toList
  cut : Sliced 0 none items

/-! ## Items and cuts -/

/-- Slices without their blanks are cut where the slices are. -/
theorem Sliced.blanksDropped (sliced : Sliced depth open_ slices) :
    Sliced depth open_ (blanksDropped open_ slices) := by
  induction sliced with
  | last uncut => exact .last uncut.dropBlanks
  | cons uncut _ ih =>
      rw [blanksDropped_none] at ih
      exact .cons uncut.dropBlanks ih

theorem Sliced.joinChars_blanksDropped (sliced : Sliced depth open_ slices) :
    joinChars ',' (Query.blanksDropped open_ slices) = dropBlanks open_ (joinChars ',' slices) := by
  induction sliced with
  | last => rfl
  | cons uncut _ ih =>
      rw [blanksDropped_none] at ih
      rw [joinChars, dropBlanks_append, uncut.afterText_eq, dropBlanks_cons (by decide)]
      exact congrArg (dropBlanks _ _ ++ ',' :: ·) ih

/-- **The items are cut at the commas between them, and nowhere else.** -/
theorem sliced_itemsFrom (depth : Nat) (open_ : Option Char) (text : List Char) :
    Sliced depth open_ (itemsFrom depth open_ text) := by
  rw [itemsFrom_eq]
  exact (sliced_slicesFrom depth open_ text).blanksDropped

/-- **The items with commas between them are the text without its blanks outside literals.** -/
theorem joinChars_itemsFrom (depth : Nat) (open_ : Option Char) (text : List Char) :
    joinChars ',' (itemsFrom depth open_ text) = dropBlanks open_ text := by
  rw [itemsFrom_eq, (sliced_slicesFrom depth open_ text).joinChars_blanksDropped,
    joinChars_slicesFrom]

/-- There are no other parts at whose commas a list is cut. -/
theorem TakesApart.unique {list : String} {items others : List (List Char)}
    (apart : TakesApart list items) (apartToo : TakesApart list others) : items = others := by
  rw [← slicesFrom_joinChars apart.cut, ← slicesFrom_joinChars apartToo.cut, apart.joined,
    apartToo.joined]

theorem Sliced.exists_uncut (sliced : Sliced 0 none slices) :
    ∀ slice ∈ slices, ∃ last lastOpen, Uncut 0 none slice last lastOpen := by
  induction slices with
  | nil => nofun
  | cons first others ih =>
      cases sliced with
      | last uncut => exact List.forall_mem_singleton.mpr ⟨_, _, uncut⟩
      | cons uncut sliced => exact List.forall_mem_cons.mpr ⟨⟨_, _, uncut⟩, ih sliced⟩

/-- **An item by itself is one item.** -/
theorem itemsFrom_of_mem (listed : item ∈ itemsFrom 0 none text) :
    itemsFrom 0 none item = [item] := by
  obtain ⟨last, lastOpen, uncut⟩ := (sliced_itemsFrom 0 none text).exists_uncut item listed
  have whole := slicesFrom_uncut uncut []
  rw [itemsFrom_eq, blanksDropped_none] at listed
  obtain ⟨slice, _, rfl⟩ := List.mem_map.mp listed
  rw [List.append_nil, slicesFrom, List.modifyHead_cons, List.append_nil] at whole
  rw [itemsFrom_eq, blanksDropped_none, whole, List.map_singleton, dropBlanks_dropBlanks]

/-! ## Lists put together -/

theorem inFront_append (c : Char) (notEmpty : slices ≠ []) (others : List (List Char)) :
    inFront c (slices ++ others) = inFront c slices ++ others := by
  obtain ⟨first, rest, rfl⟩ := List.exists_cons_of_ne_nil notEmpty
  rfl

/-- A comma behind a text that ends outside literals and parentheses is a cut. -/
theorem slicesFrom_append_comma (closed : afterText open_ text = none)
    (level : depthFrom depth open_ text = 0) (more : List Char) :
    slicesFrom depth open_ (text ++ ',' :: more) =
      slicesFrom depth open_ text ++ slicesFrom 0 none more := by
  induction text generalizing depth open_ with
  | nil =>
      obtain rfl : open_ = none := closed
      obtain rfl : depth = 0 := level
      rfl
  | cons c rest ih =>
      rw [List.cons_append, slicesFrom, slicesFrom]
      split
      · next cut =>
        obtain ⟨rfl, rfl, rfl⟩ := cut
        exact congrArg ([] :: ·) (ih closed level)
      · rw [ih closed level, inFront_append c (slicesFrom_ne_nil _ _ _)]

/-- **The items of a list that is put together are those of its parts.** -/
theorem itemsFrom_append_comma (ends : EndsOutside text) (more : List Char) :
    itemsFrom 0 none (text ++ ',' :: more) = itemsFrom 0 none text ++ itemsFrom 0 none more := by
  simp only [itemsFrom_eq, blanksDropped_none,
    slicesFrom_append_comma ends.literals ends.parentheses, List.map_append]

/-- A list is accepted if none of its items is empty. -/
theorem splitSelectList_eq (list : String) :
    splitSelectList list =
      if [] ∈ itemsFrom 0 none list.toList then .error (.emptyClause .select)
      else .ok ((itemsFrom 0 none list.toList).map String.ofList) := by
  have anyEmpty : (itemsFrom 0 none list.toList).any List.isEmpty = true ↔
      [] ∈ itemsFrom 0 none list.toList := by
    simp
  rw [splitSelectList]
  simp only [anyEmpty]

/-- **A select list is taken apart at the commas outside literals and parentheses.** There is one
way to do so; the list fails if and only if a part is empty, and otherwise its items are the parts,
each of which by itself is one item. A list that is put together from one that ends outside literals
and parentheses and another one has the items of both, and fails if and only if one of them does. -/
theorem splitSelectList_exact (list : String) :
    (∃! items, TakesApart list items ∧
      (∀ item ∈ items, item ≠ [] →
        splitSelectList (String.ofList item) = .ok [String.ofList item]) ∧
      splitSelectList list =
        if [] ∈ items then .error (.emptyClause .select) else .ok (items.map String.ofList)) ∧
    ∀ more, EndsOutside list.toList →
      splitSelectList (list ++ "," ++ more) = do
        let items ← splitSelectList list
        let others ← splitSelectList more
        return items ++ others := by
  constructor
  · refine ⟨itemsFrom 0 none list.toList, ⟨⟨joinChars_itemsFrom _ _ _, sliced_itemsFrom _ _ _⟩, ?_,
      splitSelectList_eq list⟩,
      fun others same => same.1.unique ⟨joinChars_itemsFrom _ _ _, sliced_itemsFrom _ _ _⟩⟩
    intro item listed notEmpty
    rw [splitSelectList_eq, String.toList_ofList, itemsFrom_of_mem listed, if_neg]
    · rfl
    · exact fun empty => notEmpty (List.mem_singleton.mp empty).symm
  · intro more ends
    have whole : (list ++ "," ++ more).toList = list.toList ++ ',' :: more.toList := by simp
    rw [splitSelectList_eq, whole, itemsFrom_append_comma ends, splitSelectList_eq list,
      splitSelectList_eq more]
    by_cases first : [] ∈ itemsFrom 0 none list.toList
    · rw [if_pos (List.mem_append_left _ first), if_pos first]
      rfl
    · by_cases second : [] ∈ itemsFrom 0 none more.toList
      · rw [if_pos (List.mem_append_right _ second), if_neg first, if_pos second]
        rfl
      · have neither : [] ∉ itemsFrom 0 none list.toList ++ itemsFrom 0 none more.toList :=
          fun either =>
          (List.mem_append.mp either).elim first second
        rw [if_neg neither, if_neg first, if_neg second, List.map_append]
        rfl

/-- Two lists put together, where the first has a comma and a parenthesis in a literal and closes a
parenthesis that is not open, so that this parenthesis stands in an item of its own. -/
theorem splitSelectList_exact_concat :
    EndsOutside "f( 'a ,(' , a.id) , ) b".toList ∧
      splitSelectList ("f( 'a ,(' , a.id) , ) b" ++ "," ++ "c.name") =
        .ok (["f('a ,(',a.id)", ")b"] ++ ["c.name"]) ∧
      ")b".toList ≠ [] ∧ splitSelectList ")b" = .ok [")b"] := by
  have ends : EndsOutside "f( 'a ,(' , a.id) , ) b".toList := ⟨by decide, by decide⟩
  have items : splitSelectList "f( 'a ,(' , a.id) , ) b" =
      .ok ["f('a ,(',a.id)", ")b"] := by decide +kernel
  obtain ⟨⟨parts, ⟨_, alone, taken⟩, _⟩, together⟩ :=
    splitSelectList_exact "f( 'a ,(' , a.id) , ) b"
  refine ⟨ends, (together "c.name" ends).trans (by decide +kernel), by decide, ?_⟩
  rw [items] at taken
  split at taken
  · cases taken
  · have listed : ")b" ∈ parts.map String.ofList := by
      rw [← Except.ok.inj taken]
      decide
    obtain ⟨part, inParts, same⟩ := List.mem_map.mp listed
    have notEmpty : part ≠ [] := by
      rintro rfl
      exact absurd same (by decide)
    rw [← same]
    exact alone part inParts notEmpty

end EntityQuery.Query
