import ChainDecode.Json.Basic

/-! # Paths into JSON values

A value is a tree. Under a list stand its items, under a record the values of its members, and a
path says which of them to take at each step. What two values have in common in shape is their
outline, which forgets the leaves and keeps the names.
-/
namespace ChainDecode.Json

def children : Json → List Json
  | .arr items => items
  | .obj members => members.map (·.2)
  | _ => []

def isLeaf : Json → Bool
  | .arr _ => false
  | .obj _ => false
  | _ => true

abbrev Path := List Nat

/-- What stands at the end of a path, if the path does not leave the value. -/
def at? : Json → Path → Option Json
  | v, [] => some v
  | v, place :: path => v.children[place]?.bind (·.at? path)

theorem at?_cons (v : Json) (place : Nat) (path : Path) :
    v.at? (place :: path) = v.children[place]?.bind (·.at? path) := rfl

theorem item_smaller {v : Json} {items : List Json} (h : v ∈ items) :
    sizeOf v < sizeOf (Json.arr items) := by
  have inside := List.sizeOf_lt_of_mem h
  simp only [Json.arr.sizeOf_spec]
  omega

theorem member_smaller {m : Text × Json} {members : List (Text × Json)} (h : m ∈ members) :
    sizeOf m.2 < sizeOf (Json.obj members) := by
  have inside := List.sizeOf_lt_of_mem h
  obtain ⟨name, v⟩ := m
  simp only [Json.obj.sizeOf_spec, Prod.mk.sizeOf_spec] at *
  omega

theorem child_smaller {u v : Json} (h : u ∈ v.children) : sizeOf u < sizeOf v := by
  cases v with
  | arr items => exact item_smaller h
  | obj members =>
    obtain ⟨m, member, rfl⟩ := List.mem_map.mp h
    exact member_smaller member
  | _ => cases h

theorem induct {motive : Json → Prop} (step : ∀ v, (∀ u ∈ v.children, motive u) → motive v)
    (v : Json) : motive v := step v fun u _ => induct step u
termination_by sizeOf v
decreasing_by
  rename_i under
  exact child_smaller under

/-- A value with its leaves forgotten. -/
def outline : Json → Json
  | .arr items => .arr (items.map outline)
  | .obj members => .obj (members.map fun m => (m.1, m.2.outline))
  | _ => .null
termination_by v => sizeOf v
decreasing_by
  · rename_i inside
    exact item_smaller inside
  · rename_i inside
    exact member_smaller inside

end ChainDecode.Json
