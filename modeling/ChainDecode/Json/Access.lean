import ChainDecode.Fault
import ChainDecode.Json.Basic

/-! # Access that may stop

A value from outside need not have the shape that its reader expects. What is missing or misshapen
is a cause.
-/
namespace ChainDecode.Json

/-- What a loop over a value runs through: items, keys or characters. -/
def elements : Json → Except Fault (List Json)
  | .arr items => .ok items
  | .obj members => .ok (members.map fun m => .str m.1)
  | .str s => .ok (s.letters.map fun l => .str (.single l))
  | _ => .error .wrongShape

def required (record : Json) (key : Text) : Except Fault Json :=
  match record with
  | .obj members =>
    match field? members key with
    | some v => .ok v
    | none => .error (.missingMember key)
  | _ => .error .wrongShape

end ChainDecode.Json
