import ChainDecode.Json.Compare
import ChainDecode.Json.Literal

/-! # Value types of the virtual machine

Nine types have names; every other number, and whatever stands in its place, is shown as it is.
-/
namespace ChainDecode.Vm

inductive ValueType where
  | none
  | struct
  | bytes
  | number
  | string
  | timestamp
  | bool
  | enumeration
  | object
  | other (shown : Text)
  deriving DecidableEq, Repr

namespace ValueType

def ofCode : Int → ValueType
  | 0 => .none
  | 1 => .struct
  | 2 => .bytes
  | 3 => .number
  | 4 => .string
  | 5 => .timestamp
  | 6 => .bool
  | 7 => .enumeration
  | 8 => .object
  | n => .other (toString n)

def ofJson (v : Json) : ValueType :=
  match v.whole?.map ofCode with
  | some (.other _) | Option.none => .other v.display
  | some type => type

def name : ValueType → Text
  | .none => "None"
  | .struct => "Struct"
  | .bytes => "Bytes"
  | .number => "Number"
  | .string => "String"
  | .timestamp => "Timestamp"
  | .bool => "Bool"
  | .enumeration => "Enum"
  | .object => "Object"
  | .other shown => "VMType_" ++ shown

end ValueType

end ChainDecode.Vm
