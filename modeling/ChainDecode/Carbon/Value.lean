import ChainDecode.Json.Basic
import ChainDecode.Text.Hex

/-! # Values in Carbon messages

What a message holds, before it is written out: numbers that fit a JSON number, wider ones that are
written as texts, byte strings, texts, type names, lists and records.
-/
namespace ChainDecode.Carbon

inductive Value where
  | absent
  | number (n : Int)
  | wide (n : Int)
  | bytes (data : List UInt8)
  | text (s : Text)
  | typeName (code : UInt8)
  | list (items : List Value)
  | record (fields : List (String × Value))
  deriving Inhabited, Repr

def baseTypes : List String :=
  ["Dynamic", "Int8", "Int16", "Int32", "Int64", "Int256", "Bytes", "String", "Bytes16", "Bytes32",
    "Bytes64", "Struct"]

def baseOf (code : UInt8) : Nat := code.toNat % 128

def isArrayType (code : UInt8) : Bool := 128 ≤ code.toNat

/-- The name of a base type; numbers without one are shown as they are. -/
def baseName (base : Int) : String :=
  if base < 0 then s!"Type_{base}" else baseTypes.getD base.toNat s!"Type_{base}"

/-- The name of a type with a number. The eighth bit marks arrays. -/
def typeNameOf (code : Int) : String :=
  if code / 128 % 2 = 0 then baseName code else baseName (code - 128) ++ "[]"

def typeName (code : UInt8) : String := typeNameOf code.toNat

mutual

def Value.toJson : Value → Json
  | .absent => .null
  | .number n => .int n
  | .wide n => .str (toString n)
  | .bytes data => .str (Text.Hex.encode data)
  | .text s => .str s
  | .typeName code => .str (Carbon.typeName code)
  | .list items => .arr (Value.itemsJson items)
  | .record fields => .obj (Value.fieldsJson fields)

def Value.itemsJson : List Value → List Json
  | [] => []
  | v :: rest => v.toJson :: Value.itemsJson rest

def Value.fieldsJson : List (String × Value) → List (Text × Json)
  | [] => []
  | (name, v) :: rest => (name, v.toJson) :: Value.fieldsJson rest

end

end ChainDecode.Carbon
