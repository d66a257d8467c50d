import EntityQuery.Value.Basic

/-!
# Properties

Reading a value of an ordinary type as a property. A property is defined or undefined, and a
defined one may be null; an optional value that is absent is undefined.
-/

set_option autoImplicit false

namespace EntityQuery

/-- Types whose values can be properties. -/
class ToProperty (α : Type) where
  /-- The value of the property, unless it is undefined. -/
  toProperty : α → Option Value

export ToProperty (toProperty)

instance : ToProperty Int64 := ⟨fun value => some (.int value)⟩

instance : ToProperty Int32 := ⟨fun value => some (.int value.toInt64)⟩

instance : ToProperty Int16 := ⟨fun value => some (.int value.toInt64)⟩

instance : ToProperty UInt64 := ⟨fun value => some (.uint value)⟩

instance : ToProperty UInt32 := ⟨fun value => some (.uint value.toUInt64)⟩

instance : ToProperty Float := ⟨fun value => some (.float value)⟩

/-- A number of single precision is the same number of double precision. -/
instance : ToProperty Float32 := ⟨fun value => some (.float value.toFloat)⟩

instance : ToProperty Bool := ⟨fun value => some (.boolean value)⟩

instance : ToProperty String := ⟨fun value => some (.string value)⟩

instance : ToProperty Uuid := ⟨fun value => some (.uuid value)⟩

instance : ToProperty Date := ⟨fun value => some (.date value)⟩

instance : ToProperty Timestamp := ⟨fun value => some (.timestamp value)⟩

instance : ToProperty Json := ⟨fun value => some (.json value)⟩

instance : ToProperty Value := ⟨some⟩

/-- An absent value is an undefined property. -/
instance {α : Type} [ToProperty α] : ToProperty (Option α) := ⟨fun value? => value?.bind toProperty⟩

theorem toProperty_none {α : Type} [ToProperty α] : toProperty (none : Option α) = none := rfl

theorem toProperty_some {α : Type} [ToProperty α] (value : α) :
    toProperty (some value) = toProperty value := rfl

end EntityQuery
