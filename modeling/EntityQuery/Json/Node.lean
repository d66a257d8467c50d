import EntityQuery.Json.Numeral

/-!
# Nodes: the shape of a JSON text

A JSON text is arranged into nodes as far as it follows the grammar. Where it does not, the
containers that are still open are cut: they hold what was read before the fault and are marked as
not whole, and a member whose value is missing holds the node `cut`. Whoever reads nodes from left
to right therefore meets the faults of a text where a reader of the text itself would.
-/

set_option autoImplicit false

namespace EntityQuery.Json

/-- A JSON text as far as it could be read. -/
inductive Node where
  | null
  | bool (value : Bool)
  | number (numeral : Numeral)
  /-- A string; it has no text when a surrogate escape in it stands alone. -/
  | string (text? : Option String)
  | array (items : List Node) (whole : Bool)
  | object (members : List (Option String × Node)) (whole : Bool)
  /-- The value is missing. -/
  | cut
  deriving Repr, Inhabited

/-- A container that is still open, with its contents so far, the latest first. -/
inductive Frame where
  | array (items : List Node)
  | object (members : List (Option String × Node))
  /-- An object with a key whose value is to come. -/
  | member (members : List (Option String × Node)) (key : Option String)
  deriving Repr

namespace Frame

/-- The container as a node. -/
def node (whole : Bool) : Frame → Node
  | .array items => .array items.reverse whole
  | .object members => .object members.reverse whole
  | .member members key => .object ((key, .cut) :: members).reverse whole

/-- The container with one more value. -/
def push (value : Node) : Frame → Frame
  | .array items => .array (value :: items)
  | .object members => .object members
  | .member members key => .object ((key, value) :: members)

/-- The node of the outermost container when all are cut, the innermost of them holding `inner`. -/
def cutAround (inner : Node) : List Frame → Node
  | [] => inner
  | frame :: outer => cutAround ((frame.push inner).node false) outer

/-- The node of the outermost container when all are cut. -/
def cutAll : List Frame → Node
  | [] => .cut
  | frame :: outer => cutAround (frame.node false) outer

end Frame

/-- What may come next in a text. -/
inductive Expecting where
  /-- A value. -/
  | value
  /-- A value or the end of the array. -/
  | firstItem
  /-- A key or the end of the object. -/
  | firstKey
  /-- A key. -/
  | key
  | colon
  /-- A comma or the end of the container. -/
  | next
  deriving DecidableEq, Repr

/-- How far a text has been read. -/
inductive Progress where
  | reading (open_ : List Frame) (expecting : Expecting)
  /-- The outermost value has ended, by its last lexeme or by a fault. -/
  | done (value : Node) (whole : Bool)

namespace Progress

/-- The outermost value ends by a fault. -/
def fault (open_ : List Frame) : Progress :=
  .done (Frame.cutAll open_) false

/-- A value has ended within the open containers. -/
def complete (value : Node) : List Frame → Progress
  | [] => .done value true
  | frame :: outer => .reading (frame.push value :: outer) .next

/-- A lexeme where a value is expected. -/
def beginValue (open_ : List Frame) : Lexeme → Progress
  | .null => complete .null open_
  | .bool value => complete (.bool value) open_
  | .number numeral => complete (.number numeral) open_
  | .string text? => complete (.string text?) open_
  | .beginArray => .reading (.array [] :: open_) .firstItem
  | .beginObject => .reading (.object [] :: open_) .firstKey
  | _ => fault open_

/-- One lexeme further. -/
def step : Progress → Lexeme → Progress
  | .done value _, _ => .done value false
  | .reading open_ .value, lexeme => beginValue open_ lexeme
  | .reading (.array items :: outer) .firstItem, .endArray =>
    complete (.array items.reverse true) outer
  | .reading open_ .firstItem, lexeme => beginValue open_ lexeme
  | .reading (.object members :: outer) .firstKey, .endObject =>
    complete (.object members.reverse true) outer
  | .reading (.object members :: outer) .firstKey, .string key =>
    .reading (.member members key :: outer) .colon
  | .reading (.object members :: outer) .key, .string key =>
    .reading (.member members key :: outer) .colon
  | .reading open_ .colon, .colon => .reading open_ .value
  | .reading (.array items :: outer) .next, .comma => .reading (.array items :: outer) .value
  | .reading (.array items :: outer) .next, .endArray => complete (.array items.reverse true) outer
  | .reading (.object members :: outer) .next, .comma => .reading (.object members :: outer) .key
  | .reading (.object members :: outer) .next, .endObject =>
    complete (.object members.reverse true) outer
  | .reading open_ _, _ => fault open_

/-- The node read, and whether the text held it and nothing else. -/
def finish : Progress → Node × Bool
  | .reading open_ _ => (Frame.cutAll open_, false)
  | .done value whole => (value, whole)

end Progress

/-- The node of a sequence of lexemes, and whether they are exactly one value. -/
def Node.ofLexemes (lexemes : List Lexeme) : Node × Bool :=
  (lexemes.foldl Progress.step (.reading [] .value)).finish

/-- The node of a text, and whether the text is exactly one value. -/
def Node.ofText (text : String) : Node × Bool :=
  Node.ofLexemes (lexemes text.toList)

end EntityQuery.Json
