import EntityQuery.Instance.Basic
import EntityQuery.Schema.Registry

/-!
# A sample schema

Areas, shops that lie in an area, and tags without an identifier, for queries and mutations that
show what a general statement says of them.
-/

set_option autoImplicit false

namespace EntityQuery.Sample

/-- Areas may lie in a larger area, which is not shown with them, and have a first shop, which is.
-/
def area : Entity where
  name := "Area"
  table := "t_area"
  identifier? := some "id"
  columns :=
    [⟨"id", none, .number, false, none⟩, ⟨"name", none, .string, true, none⟩,
      ⟨"parent", some "parent_id", .number, true, some "id"⟩,
      ⟨"shop", some "shop_id", .number, true, some "id"⟩]
  relations := .ofList
    [("parent", ⟨"Area", false, .manyToOne⟩), ("shop", ⟨"Shop", true, .oneToOne⟩)]

/-- Shops are shown with their area, so that shops and areas lead to each other. -/
def shop : Entity where
  name := "Shop"
  table := "t_shop"
  identifier? := some "id"
  columns :=
    [⟨"id", none, .number, false, none⟩, ⟨"area", some "area_id", .number, true, some "id"⟩]
  relations := .ofList [("area", ⟨"Area", true, .manyToOne⟩)]

def tag : Entity where
  name := "Tag"
  table := "t_tag"
  identifier? := none
  columns := [⟨"label", none, .string, true, none⟩]
  relations := .empty

def schema : Schema where
  entities := [area, shop, tag]
  distinct := by decide
  wellFormed := by
    intro entity member
    simp only [List.mem_cons, List.not_mem_nil, or_false] at member
    rcases member with rfl | rfl | rfl <;> exact Entity.validate_eq_ok_iff.mp rfl

/-- An area of which only the number is known. -/
def numbered : Instance :=
  .ofFields "Area" [("id", some (.int 7))]

/-- The same area, known to have no name and to lie in another area. -/
def described : Instance :=
  .ofFields "Area" [("id", some (.int 7)), ("name", some .null), ("parent", some (.int 3))]

end EntityQuery.Sample
