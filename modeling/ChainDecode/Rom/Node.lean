import ChainDecode.Address
import ChainDecode.Buffer
import ChainDecode.Vm.Type

/-! # Trees in token data

Token data is a tree of typed nodes. A struct is a list of keys and values; it is also shown as a
record when every key has a name and no two names are the same.
-/
namespace ChainDecode.Rom

inductive Node where
  | none
  | bytes (data : List UInt8)
  | number (n : Int)
  | text (s : String)
  | timestamp (seconds : Nat)
  | flag (b : Bool)
  | enumeration (n : Nat)
  | object (data : List UInt8)
  | struct (entries : List (Node × Node))
  deriving Inhabited, Repr

namespace Node

def type : Node → Vm.ValueType
  | none => .none
  | bytes _ => .bytes
  | number _ => .number
  | text _ => .string
  | timestamp _ => .timestamp
  | flag _ => .bool
  | enumeration _ => .enumeration
  | object _ => .object
  | struct _ => .struct

def typeCode : Node → Nat
  | none => 0
  | struct _ => 1
  | bytes _ => 2
  | number _ => 3
  | text _ => 4
  | timestamp _ => 5
  | flag _ => 6
  | enumeration _ => 7
  | object _ => 8

def fieldName? : Node → Option Text
  | number n => some (toString n)
  | text s => some s
  | timestamp seconds => some (toString seconds)
  | enumeration n => some (toString n)
  | flag b => some (if b then "true" else "false")
  | _ => Option.none

/-- The names of all entries, if each has one and they differ. -/
def fieldNames? (entries : List (Node × Node)) : Option (List Text) :=
  match entries.mapM fun e => e.1.fieldName? with
  | some names => if names.Nodup then some names else Option.none
  | Option.none => Option.none

/-- An object's bytes, shown as an address when they are one behind its length. -/
def objectJson (data : List UInt8) : Json :=
  let plain := Json.obj [("kind", .str "ObjectBytes"), ("bytes_hex", .str (Text.Hex.encode data))]
  match data with
  | length :: rest =>
    if length.toNat = Address.size then
      match Address.ofBytes rest with
      | .ok a =>
        .obj [("kind", .str "Address"), ("text", .str a.text),
          ("bytes_hex", .str (Text.Hex.encode rest))]
      | .error _ => plain
    else plain
  | [] => plain

mutual

def valueJson : Node → Json
  | none => .null
  | bytes data => .str (Text.Hex.encode data)
  | number n => .str (toString n)
  | text s => .str s
  | timestamp seconds => .nat seconds
  | flag b => .bool b
  | enumeration n => .nat n
  | object data => objectJson data
  | struct entries =>
    match fieldNames? entries with
    | some names => .obj (names.zip (valuesJson entries))
    | Option.none => .arr (entriesJson entries)

def valuesJson : List (Node × Node) → List Json
  | [] => []
  | (_, value) :: rest => value.valueJson :: valuesJson rest

def entriesJson : List (Node × Node) → List Json
  | [] => []
  | (key, value) :: rest =>
    .obj [("key_vm_type", .str key.type.name), ("key", key.valueJson),
      ("value_vm_type", .str value.type.name), ("value", value.valueJson)] :: entriesJson rest

end

def fields? : Node → Option (List (Text × Json))
  | struct entries => (fieldNames? entries).map fun names => names.zip (valuesJson entries)
  | _ => Option.none

def toJson (node : Node) : Json :=
  let head : List (Text × Json) :=
    [("vm_type_id", .nat node.typeCode), ("vm_type", .str node.type.name)]
  match node with
  | struct entries =>
    .obj (head ++ Json.member? "fields" (node.fields?.map .obj) ++
      Json.member "entries" (.arr (entriesJson entries)))
  | _ => .obj (head ++ Json.member "value" node.valueJson)

def maxDepth : Nat := 128

def levelsFrom (depth : Int) : Nat := (maxDepth + 1 - depth).toNat

def readEntry (node : Read Node) : Read (Node × Node) := do
  let key ← node
  let value ← node
  pure (key, value)

/-- Reads a struct behind its type, given how a node is read. Every entry needs two bytes. -/
def readStruct (label : Text) (node : Read Node) : Read Node := do
  let count ← Buffer.varint label Buffer.varintMax
  let remaining ← Read.remaining
  if remaining < 2 * count then throw (.structCount count remaining)
  else return .struct (← times (readEntry node) count)

def readOfType (label : Text) (inner : Read Node) (offset type : Nat) : Read Node :=
  match type with
  | 0 => pure none
  | 1 => readStruct label inner
  | 2 => return .bytes (← Buffer.byteArray label Buffer.varintMax)
  | 3 => return .number (← Buffer.bigInteger label)
  | 4 => return .text (← Buffer.text label)
  | 5 => return .timestamp (← Buffer.timestamp label)
  | 6 => return .flag ((← Buffer.word label 1) ≠ 0)
  | 7 => return .enumeration (← Buffer.varint label Buffer.varintMax)
  | 8 => return .object (← Buffer.byteArray label Buffer.varintMax)
  | n => throw (.nodeType n offset)

def read (label : Text) : (levels : Nat) → Read Node
  | 0 => throw .nodeDepth
  | levels + 1 => do
    let offset ← Read.position
    let type ← Buffer.word label 1
    readOfType label (read label levels) offset type

end Node

end ChainDecode.Rom
