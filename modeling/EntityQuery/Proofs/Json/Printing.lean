import EntityQuery.Json.Node
import EntityQuery.Proofs.Json.Literals
import Mathlib.Data.List.Forall2

/-!
# Printed values

A text that prints a value is read as its tree (`Json.node`), wherever a value may come next: the
reader, which has got to some state, goes on behind the text as if the value had been completed
there (`ReadAs`). This is shown for strings and integers, for the items of an array and the members
of an object one after another, with any separators between them, and so by induction for both
printed forms of a value (`ofText_compact`, `ofText_pretty`). Doubles are left out (`Json.Exact`),
since their digits need not be those of an integer.
-/

set_option autoImplicit false

namespace EntityQuery

namespace Json

/-! ## Trees of values -/

mutual

/-- A value without doubles. -/
def Exact : Json → Prop
  | .number (.float _) => False
  | .array items => ExactItems items
  | .object members => ExactMembers members
  | _ => True

/-- Items without doubles. -/
def ExactItems : List Json → Prop
  | [] => True
  | item :: rest => Exact item ∧ ExactItems rest

/-- Members without doubles. -/
def ExactMembers : List (String × Json) → Prop
  | [] => True
  | (_, value) :: rest => Exact value ∧ ExactMembers rest

end

mutual

/-- The tree of a value without doubles. -/
def node : Json → Node
  | .null => .null
  | .bool value => .bool value
  | .number (.integer value) => .number (.ofInt value)
  | .number (.float _) => .cut
  | .string value => .string (some value)
  | .array items => .array (itemNodes items) true
  | .object members => .object (memberNodes members) true

/-- The trees of items. -/
def itemNodes : List Json → List Node
  | [] => []
  | item :: rest => node item :: itemNodes rest

/-- The trees of members under their keys. -/
def memberNodes : List (String × Json) → List (Option String × Node)
  | [] => []
  | (key, value) :: rest => (some key, node value) :: memberNodes rest

end

theorem exactItems_iff {items : List Json} : ExactItems items ↔ ∀ item ∈ items, Exact item := by
  induction items with
  | nil => exact ⟨fun _ => nofun, fun _ => trivial⟩
  | cons item rest ih => rw [ExactItems, ih, List.forall_mem_cons]

theorem exactMembers_iff {members : List (String × Json)} :
    ExactMembers members ↔ ∀ member ∈ members, Exact member.2 := by
  induction members with
  | nil => exact ⟨fun _ => nofun, fun _ => trivial⟩
  | cons member rest ih => rw [ExactMembers, ih, List.forall_mem_cons]

theorem itemNodes_eq_map (items : List Json) : itemNodes items = items.map node := by
  induction items with
  | nil => rfl
  | cons item rest ih => rw [itemNodes, ih, List.map_cons]

theorem memberNodes_eq_map (members : List (String × Json)) :
    memberNodes members = members.map fun member => (some member.1, node member.2) := by
  induction members with
  | nil => rfl
  | cons member rest ih => rw [memberNodes, ih, List.map_cons]

/-! ## Reading on -/

/-- How far a text is read from some state on. -/
def Progress.along (state : Progress) (text : List Char) : Progress :=
  (lexemes text).foldl step state

/-- A value within the open containers may come next, and nothing else but the end of an array. -/
def Progress.Awaits (state : Progress) (open_ : List Frame) : Prop :=
  ∀ lexeme, lexeme ≠ .endArray → state.step lexeme = beginValue open_ lexeme

/-- A key of the innermost open container may come next. -/
def Progress.AwaitsKey (state : Progress) (members : List (Option String × Node))
    (outer : List Frame) : Prop :=
  ∀ key, state.step (.string key) = .reading (.member members key :: outer) .colon

/-- Wherever a value may come next, the text is read as the tree. -/
def ReadAs (text : List Char) (node : Node) : Prop :=
  ∀ (state : Progress) (open_ : List Frame) (rest : List Char), state.Awaits open_ →
    EndsNumber rest →
    state.along (text ++ rest) = (Progress.complete node open_).along rest

/-- Wherever an entry of a container may come next, the text is read as the entry: it is put before
those that were read. -/
def ReadAsEntry {α : Type} (frame : List α → Frame) (awaits : Progress → List α → List Frame → Prop)
    (text : List Char) (entry : α) : Prop :=
  ∀ (state : Progress) (before : List α) (outer : List Frame) (rest : List Char),
    awaits state before outer → EndsNumber rest →
    state.along (text ++ rest) =
      (Progress.reading (frame (entry :: before) :: outer) .next).along rest

/-- Wherever an item may come next, the text is read as the item. -/
abbrev ReadAsItem : List Char → Node → Prop :=
  ReadAsEntry .array fun state before outer => state.Awaits (.array before :: outer)

/-- Wherever a member may come next, the text is read as the member. -/
abbrev ReadAsMember : List Char → Option String × Node → Prop :=
  ReadAsEntry .object Progress.AwaitsKey

variable {state : Progress} {open_ outer : List Frame} {text gap rest : List Char} {lexeme : Lexeme}

theorem Progress.awaits_value (open_ : List Frame) :
    (Progress.reading open_ .value).Awaits open_ := by
  intro lexeme _
  cases lexeme <;> rfl

theorem Progress.awaits_firstItem (items : List Node) (outer : List Frame) :
    (Progress.reading (.array items :: outer) .firstItem).Awaits (.array items :: outer) := by
  intro lexeme notEnd
  cases lexeme <;> first | rfl | exact absurd rfl notEnd

theorem along_lexeme (first : lexemes text = lexeme :: lexemes rest) :
    state.along text = (state.step lexeme).along rest := by
  rw [Progress.along, first]
  rfl

theorem separators_nil : ∀ c ∈ [], isSeparator c = true := nofun

theorem separators_blank : ∀ c ∈ [' '], isSeparator c = true := List.forall_mem_singleton.mpr rfl

/-- Separators are passed over. -/
theorem along_gap (separators : ∀ c ∈ gap, isSeparator c = true) :
    state.along (gap ++ rest) = state.along rest := by
  induction gap with
  | nil => rfl
  | cons c gap ih =>
      have others := ih fun d member => separators d (List.mem_cons_of_mem _ member)
      rw [← others, Progress.along, Progress.along, List.cons_append,
        lexemes_separator (separators c (List.mem_cons_self ..))]

/-! ## Single lexemes -/

/-- A text that is one lexeme, which is a value, is read as the value. -/
theorem readAs_lexeme {node : Node} (lexeme : Lexeme) (notEnd : lexeme ≠ .endArray)
    (value : ∀ open_, Progress.beginValue open_ lexeme = Progress.complete node open_)
    (first : ∀ rest, EndsNumber rest → lexemes (text ++ rest) = lexeme :: lexemes rest) :
    ReadAs text node := by
  intro state open_ rest awaits ends
  rw [along_lexeme (first rest ends), awaits lexeme notEnd, value]

theorem readAs_null : ReadAs "null".toList .null :=
  readAs_lexeme .null nofun (fun _ => rfl) fun _ _ => lexemes_cons rfl rfl

theorem readAs_bool (value : Bool) :
    ReadAs (if value then "true" else "false").toList (.bool value) := by
  cases value
  · exact readAs_lexeme (.bool false) nofun (fun _ => rfl) fun _ _ => lexemes_cons rfl rfl
  · exact readAs_lexeme (.bool true) nofun (fun _ => rfl) fun _ _ => lexemes_cons rfl rfl

theorem readAs_integer (value : Int) : ReadAs (toString value).toList (.number (.ofInt value)) :=
  readAs_lexeme (.number _) nofun (fun _ => rfl) fun _ ends => lexemes_integer value ends

theorem readAs_string (value : String) : ReadAs (quoted value).toList (.string (some value)) :=
  readAs_lexeme (.string _) nofun (fun _ => rfl) fun rest _ => lexemes_quoted value rest

/-! ## Containers -/

theorem endsNumber_cons {c : Char} (mark : c.isDigit = false ∧ c ≠ '.' ∧ c ≠ 'e' ∧ c ≠ 'E') :
    EndsNumber (c :: rest) := by
  rintro d ⟨⟩
  exact mark

theorem endsNumber_nil : EndsNumber [] := nofun

theorem endsNumber_gap (separators : ∀ c ∈ gap, isSeparator c = true) (ends : EndsNumber rest) :
    EndsNumber (gap ++ rest) := by
  cases gap with
  | nil => exact ends
  | cons c more =>
      have separator := separators c (List.mem_cons_self ..)
      simp only [isSeparator, Bool.or_eq_true, beq_iff_eq] at separator
      refine endsNumber_cons ?_
      rcases separator with ((rfl | rfl) | rfl) | rfl <;> decide

section Entries

variable {α : Type} {frame : List α → Frame} {awaits : Progress → List α → List Frame → Prop}
  {texts : List (List Char)} {entries before : List α}

/-- **Entries of a container, one after another**, with separators behind the commas between them.
-/
theorem along_entries
    (goesOn : ∀ before outer,
      awaits ((Progress.reading (frame before :: outer) .next).step .comma) before outer)
    (separators : ∀ c ∈ gap, isSeparator c = true)
    (reads : List.Forall₂ (ReadAsEntry frame awaits) texts entries) (nonempty : texts ≠ [])
    (awaited : awaits state before outer) (ends : EndsNumber rest) :
    state.along ((',' :: gap).intercalate texts ++ rest) =
      (Progress.reading (frame (entries.reverse ++ before) :: outer) .next).along rest := by
  induction reads generalizing state before with
  | nil => exact absurd rfl nonempty
  | @cons text entry texts entries one others ih =>
      cases others with
      | nil =>
          rw [List.intercalate_singleton]
          exact one state before outer rest awaited ends
      | @cons next later nexts laters another more =>
          have comma : ∀ behind, EndsNumber (',' :: behind) := fun _ => endsNumber_cons (by decide)
          rw [List.intercalate_cons_cons, List.append_assoc, List.append_assoc, List.cons_append,
            one state before outer _ awaited (comma _), along_lexeme (lexemes_cons rfl rfl),
            along_gap separators, ih (List.cons_ne_nil next nexts) (goesOn (entry :: before) outer)]
          simp

/-- **The contents of a container**, with separators before and behind them, up to its last mark. -/
theorem along_contents {first last : List Char} {close : Char} {closing : Lexeme}
    {completed : Progress}
    (goesOn : ∀ before outer, awaits ((Progress.reading (frame before :: outer) .next).step .comma)
      before outer)
    (gapFirst : ∀ c ∈ first, isSeparator c = true) (gapNext : ∀ c ∈ gap, isSeparator c = true)
    (gapLast : ∀ c ∈ last, isSeparator c = true)
    (reads : List.Forall₂ (ReadAsEntry frame awaits) texts entries)
    (awaited : awaits state [] outer) (noNumber : EndsNumber (close :: rest))
    (mark : lexemes (close :: rest) = closing :: lexemes rest)
    (closesEmpty : entries = [] → state.step closing = completed)
    (closes : (Progress.reading (frame entries.reverse :: outer) .next).step closing = completed) :
    state.along (first ++ ((',' :: gap).intercalate texts ++ (last ++ close :: rest))) =
      completed.along rest := by
  rw [along_gap gapFirst]
  by_cases none_ : texts = []
  · subst none_
    cases reads
    rw [List.intercalate_nil, List.nil_append, along_gap gapLast, along_lexeme mark,
      closesEmpty rfl]
  · rw [along_entries goesOn gapNext reads none_ awaited (endsNumber_gap gapLast noNumber),
      List.append_nil, along_gap gapLast, along_lexeme mark, closes]

end Entries

theorem ReadAs.item {node : Node} (reads : ReadAs text node) : ReadAsItem text node := by
  intro state before outer rest awaits ends
  exact reads state (.array before :: outer) rest awaits ends

/-- A key, a colon and a value, with separators between, are a member. -/
theorem ReadAs.member {node : Node} (key : String) (separators : ∀ c ∈ gap, isSeparator c = true)
    (reads : ReadAs text node) :
    ReadAsMember ((quoted key).toList ++ (':' :: (gap ++ text))) (some key, node) := by
  intro state members outer rest awaits ends
  rw [List.append_assoc, along_lexeme (lexemes_quoted key _), awaits, List.cons_append,
    along_lexeme (lexemes_cons (c := ':') rfl rfl), List.append_assoc, along_gap separators]
  exact reads _ _ rest (Progress.awaits_value _) ends

/-- An array is read as its items. -/
theorem readAs_array {first last : List Char} {texts : List (List Char)} {nodes : List Node}
    (gapFirst : ∀ c ∈ first, isSeparator c = true) (gapNext : ∀ c ∈ gap, isSeparator c = true)
    (gapLast : ∀ c ∈ last, isSeparator c = true) (reads : List.Forall₂ ReadAs texts nodes) :
    ReadAs ('[' :: (first ++ ((',' :: gap).intercalate texts ++ (last ++ [']']))))
      (.array nodes true) := by
  intro state open_ rest awaits ends
  rw [List.cons_append, along_lexeme (lexemes_cons (c := '[') rfl rfl), awaits .beginArray nofun]
  simp only [List.append_assoc, List.singleton_append]
  refine along_contents (fun before outer => Progress.awaits_value _) gapFirst gapNext gapLast
    (reads.imp fun _ _ => ReadAs.item) (Progress.awaits_firstItem [] open_)
      (endsNumber_cons (by decide))
    (lexemes_cons rfl rfl) ?_ ?_
  · rintro rfl
    rfl
  · rw [Progress.step, List.reverse_reverse]

/-- An object is read as its members. -/
theorem readAs_object {first last : List Char} {texts : List (List Char)}
    {members : List (Option String × Node)}
    (gapFirst : ∀ c ∈ first, isSeparator c = true) (gapNext : ∀ c ∈ gap, isSeparator c = true)
    (gapLast : ∀ c ∈ last, isSeparator c = true) (reads : List.Forall₂ ReadAsMember texts members) :
    ReadAs ('\x7b' :: (first ++ ((',' :: gap).intercalate texts ++ (last ++ ['\x7d']))))
      (.object members true) := by
  intro state open_ rest awaits ends
  rw [List.cons_append, along_lexeme (lexemes_cons (c := '\x7b') rfl rfl),
    awaits .beginObject nofun]
  simp only [List.append_assoc, List.singleton_append]
  refine along_contents (fun before outer key => rfl) gapFirst gapNext gapLast
    reads (fun key => rfl) (endsNumber_cons (by decide)) (lexemes_cons rfl rfl) ?_ ?_
  · rintro rfl
    rfl
  · rw [Progress.step, List.reverse_reverse]

/-! ## Printed forms -/

mutual

/-- The compact form of a value is read as its tree. -/
theorem readAs_compact : ∀ value : Json, value.Exact → ReadAs value.compact.toList value.node
  | .null, _ => readAs_null
  | .bool value, _ => readAs_bool value
  | .number (.integer value), _ => readAs_integer value
  | .string value, _ => readAs_string value
  | .array items, exact_ => by
      have reads := readAs_array separators_nil separators_nil separators_nil
        (readAs_compactItems items exact_)
      simpa [compact, enclosed, String.toList_intercalate, node] using reads
  | .object members, exact_ => by
      have reads := readAs_object separators_nil separators_nil separators_nil
        (readAs_compactMembers members exact_)
      simpa [compact, enclosed, String.toList_intercalate, node] using reads

theorem readAs_compactItems : ∀ items : List Json, ExactItems items →
    List.Forall₂ ReadAs ((compactItems items).map String.toList) (itemNodes items)
  | [], _ => .nil
  | item :: rest, exact_ => .cons (readAs_compact item exact_.1) (readAs_compactItems rest exact_.2)

theorem readAs_compactMembers : ∀ members : List (String × Json), ExactMembers members →
    List.Forall₂ ReadAsMember ((compactMembers members).map String.toList) (memberNodes members)
  | [], _ => .nil
  | (key, value) :: rest, exact_ => by
      refine .cons ?_ (readAs_compactMembers rest exact_.2)
      have member := (readAs_compact value exact_.1).member key separators_nil
      simpa using member

end

theorem isSeparator_newLine (level : Nat) : ∀ c ∈ (newLine level).toList, isSeparator c = true := by
  intro c member
  rw [newLine, String.toList_ofList, List.mem_cons, List.mem_replicate] at member
  rcases member with rfl | ⟨-, rfl⟩ <;> rfl

/-- Entries on lines of their own have separators only before, between and behind them. -/
theorem toList_block (level : Nat) (first : String) (entries : List String) (last : String) :
    ∃ before between behind : List Char, (∀ c ∈ before, isSeparator c = true) ∧
      (∀ c ∈ between, isSeparator c = true) ∧ (∀ c ∈ behind, isSeparator c = true) ∧
      (block level first entries last).toList = first.toList ++
        (before ++
          ((',' :: between).intercalate (entries.map String.toList) ++
            (behind ++ last.toList))) := by
  cases entries with
  | nil => exact ⟨[], [], [], nofun, nofun, nofun, by simp [block]⟩
  | cons entry more =>
      refine ⟨_, _, _, isSeparator_newLine (level + 1), isSeparator_newLine (level + 1),
        isSeparator_newLine level, ?_⟩
      simp [block, enclosed, String.toList_intercalate]

mutual

/-- The indented form of a value is read as its tree. -/
theorem readAs_indented (level : Nat) : ∀ value : Json, value.Exact →
    ReadAs (indented level value).toList value.node
  | .null, _ => readAs_null
  | .bool value, _ => readAs_bool value
  | .number (.integer value), _ => readAs_integer value
  | .string value, _ => readAs_string value
  | .array items, exact_ => by
      obtain ⟨before, between, behind, gapFirst, gapNext, gapLast, whole⟩ :=
        toList_block level "[" (indentedItems (level + 1) items) "]"
      rw [indented, whole, node]
      exact readAs_array gapFirst gapNext gapLast (readAs_indentedItems (level + 1) items exact_)
  | .object members, exact_ => by
      obtain ⟨before, between, behind, gapFirst, gapNext, gapLast, whole⟩ :=
        toList_block level "\x7b" (indentedMembers (level + 1) members) "\x7d"
      rw [indented, whole, node]
      exact readAs_object gapFirst gapNext gapLast
        (readAs_indentedMembers (level + 1) members exact_)

theorem readAs_indentedItems (level : Nat) : ∀ items : List Json, ExactItems items →
    List.Forall₂ ReadAs ((indentedItems level items).map String.toList) (itemNodes items)
  | [], _ => .nil
  | item :: rest, exact_ =>
      .cons (readAs_indented level item exact_.1) (readAs_indentedItems level rest exact_.2)

theorem readAs_indentedMembers (level : Nat) :
    ∀ members : List (String × Json), ExactMembers members →
    List.Forall₂ ReadAsMember ((indentedMembers level members).map String.toList)
      (memberNodes members)
  | [], _ => .nil
  | (key, value) :: rest, exact_ => by
      refine .cons ?_ (readAs_indentedMembers level rest exact_.2)
      have member := (readAs_indented level value exact_.1).member key separators_blank
      simpa using member

end

/-- A text that is read as a tree is a document with the tree, perhaps with separators behind it. -/
theorem ReadAs.ofText {text behind : String} {node : Node} (reads : ReadAs text.toList node)
    (separators : ∀ c ∈ behind.toList, isSeparator c = true) :
    Node.ofText (text ++ behind) = (node, true) := by
  have ends : EndsNumber behind.toList := by
    have := endsNumber_gap separators endsNumber_nil
    rwa [List.append_nil] at this
  have whole : (Progress.reading [] .value).along (text ++ behind).toList = .done node true := by
    rw [String.toList_append, reads _ [] _ (Progress.awaits_value []) ends]
    have last : (Progress.done node true).along (behind.toList ++ []) =
        (Progress.done node true).along [] :=
      along_gap separators
    rw [List.append_nil] at last
    exact last
  rw [Node.ofText, Node.ofLexemes]
  exact congrArg Progress.finish whole

/-- A text that is read as a tree is a document with the tree. -/
theorem ReadAs.ofText_alone {text : String} {node : Node} (reads : ReadAs text.toList node) :
    Node.ofText text = (node, true) := by
  have nothing : ∀ c ∈ "".toList, isSeparator c = true := separators_nil
  simpa using reads.ofText nothing

theorem ofText_integer (integer : Int) :
    Node.ofText (toString integer) = (.number (.ofInt integer), true) :=
  (readAs_integer integer).ofText_alone

/-- **The compact form of a value is a document with its tree.** -/
theorem ofText_compact {value : Json} (exact_ : value.Exact) :
    Node.ofText value.compact = (value.node, true) :=
  (readAs_compact value exact_).ofText_alone

/-- **The indented form of a value is a document with its tree**, also with separators such as a
line break behind it. -/
theorem ofText_pretty {value : Json} (exact_ : value.Exact) {behind : String}
    (separators : ∀ c ∈ behind.toList, isSeparator c = true) :
    Node.ofText (value.pretty ++ behind) = (value.node, true) :=
  (readAs_indented 0 value exact_).ofText separators

theorem ofText_pretty_alone {value : Json} (exact_ : value.Exact) :
    Node.ofText value.pretty = (value.node, true) :=
  (readAs_indented 0 value exact_).ofText_alone

end Json

end EntityQuery
