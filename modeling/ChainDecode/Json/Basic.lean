import ChainDecode.Number.Binary64
import ChainDecode.Text.Basic

/-! # JSON values

Objects keep the order of their members, integers have any size.
-/
namespace ChainDecode

inductive Json where
  | null
  | bool (b : Bool)
  | int (n : Int)
  | real (x : Number.Binary64)
  | str (s : Text)
  | arr (items : List Json)
  | obj (members : List (Text × Json))
  deriving Inhabited, Repr

namespace Json

def nat (n : Nat) : Json := .int n

def texts (items : List Text) : Json := .arr (items.map .str)

def field? (members : List (Text × Json)) (key : Text) : Option Json := members.lookup key

def get? : Json → Text → Option Json
  | .obj members, key => field? members key
  | _, _ => none

def text? : Json → Option Text
  | .str s => some s
  | _ => none

def items? : Json → Option (List Json)
  | .arr items => some items
  | _ => none

def isObject : Json → Bool
  | .obj _ => true
  | _ => false

def member (key : Text) (value : Json) : List (Text × Json) := [(key, value)]

def member? (key : Text) (value : Option Json) : List (Text × Json) :=
  (value.map fun v => (key, v)).toList

def put (key : Text) (value : Json) : List (Text × Json) → List (Text × Json)
  | [] => [(key, value)]
  | (k, v) :: rest => if k = key then (k, value) :: rest else (k, v) :: put key value rest

def without (key : Text) (members : List (Text × Json)) : List (Text × Json) :=
  members.filter (·.1 ≠ key)

/-- Null, false, zero and empty texts and containers stand for absence. -/
def isBlank : Json → Bool
  | .null => true
  | .bool b => !b
  | .int n => n == 0
  | .real x => x.bits == 0 || x.bits == 0x8000000000000000
  | .str s => s.isEmpty
  | .arr items => items.isEmpty
  | .obj members => members.isEmpty

def present? (v : Json) : Option Json := if v.isBlank then none else some v

end Json

end ChainDecode
