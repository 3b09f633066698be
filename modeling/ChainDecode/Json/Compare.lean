import ChainDecode.Json.Basic

/-! # Comparing values

Truth values count as the numbers one and zero, and a number is the same however it is written.
Members of objects are compared by key, in any order.
-/
namespace ChainDecode.Json

def whole? : Json → Option Int
  | .int n => some n
  | .bool b => some (if b then 1 else 0)
  | .real x => x.whole?
  | _ => none

/-- Whether a number lies below a bound; other values have no order. -/
def below? (v : Json) (bound : Int) : Option Bool :=
  match v with
  | .int n => some (n < bound)
  | .bool b => some ((if b then 1 else 0) < bound)
  | .real x => some (x.isBelow bound)
  | _ => none

def isKey : Json → Bool
  | .arr _ => false
  | .obj _ => false
  | _ => true

def sameNumber (v w : Json) : Bool :=
  match v.whole?, w.whole? with
  | some m, some n => m = n
  | _, _ => false

mutual

def same : Json → Json → Bool
  | .null, .null => true
  | .str s, .str t => s = t
  | .real x, .real y => x = y || sameNumber (.real x) (.real y)
  | .arr items, .arr others => sameItems items others
  | .obj members, .obj others => members.length = others.length && sameMembers members others
  | v, w => sameNumber v w

def sameItems : List Json → List Json → Bool
  | [], [] => true
  | v :: rest, w :: others => same v w && sameItems rest others
  | _, _ => false

def sameMembers : List (Text × Json) → List (Text × Json) → Bool
  | [], _ => true
  | (key, v) :: rest, others =>
    match field? others key with
    | some w => same v w && sameMembers rest others
    | none => false

end

end ChainDecode.Json
