import ChainDecode.Carbon.Layout

/-! # Dynamic values

A variable carries its own type byte, a struct carries named variables. Structs nest to a limited
depth, and every struct and every variable counts as a level.
-/
namespace ChainDecode.Carbon

def maxDepth : Nat := 128

def levelsFrom (depth : Int) : Nat := (maxDepth + 1 - depth).toNat

def readElement (struct : Read Value) (base : Nat) : Read Value :=
  match base with
  | 0 => pure .absent
  | 1 => return .number (← Stream.signed 1)
  | 2 => return .number (← Stream.signed 2)
  | 3 => return .number (← Stream.signed 4)
  | 4 => return .wide (← Stream.signed 8)
  | 5 => return .wide (← Stream.signed 32)
  | 6 => return .bytes (← Stream.byteArray)
  | 7 => return .text (Text.Utf8.decode (← Stream.byteArray))
  | 8 => return .bytes (← Stream.take 16)
  | 9 => return .bytes (← Stream.take 32)
  | 10 => return .bytes (← Stream.take 64)
  | 11 => struct
  | n => throw (.valueType n)

/-- Reads the value behind a type byte: one element, or as many as a count says. -/
def readTyped (struct : Read Value) (code : UInt8) : Read Value := do
  if isArrayType code then
    let n ← Stream.count
    return .list (← times (readElement struct (baseOf code)) n)
  else readElement struct (baseOf code)

def readVariableFields (struct : Read Value) : Read (List (String × Value)) := do
  let code := UInt8.ofNat (← Stream.word 1)
  let v ← readTyped struct code
  pure [("type", .typeName code), ("value", v)]

def readNamed (readFields : Read (List (String × Value))) : Read Value := do
  let name ← Stream.smallText
  let fields ← readFields
  pure (.record (("name", .text name) :: fields))

mutual

def readStruct : (levels : Nat) → Read Value
  | 0 => throw .valueDepth
  | levels + 1 => do
    let n ← Stream.count
    return .list (← times (readNamed (readVariable levels)) n)

def readVariable : (levels : Nat) → Read (List (String × Value))
  | 0 => throw .valueDepth
  | levels + 1 => readVariableFields (readStruct levels)

end

def readVariableRecord (levels : Nat) : Read Value := .record <$> readVariable levels

end ChainDecode.Carbon
