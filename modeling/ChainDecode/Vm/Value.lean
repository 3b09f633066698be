import ChainDecode.Address
import ChainDecode.Number.Numeral
import ChainDecode.Text.Utf8
import ChainDecode.Vm.Type

/-! # Register values

The type of a value decides what its bytes stand for. Types without a rule of their own hold an
address when there are as many bytes as an address has, and plain bytes otherwise.
-/
namespace ChainDecode.Vm

inductive Data where
  | absent
  | bytes (data : List UInt8)
  | number (n : Int)
  | text (s : String)
  | word (n : Nat)
  | flag (b : Bool)
  | address (a : Address)
  deriving DecidableEq, Repr

structure Value where
  type : ValueType
  data : Data
  deriving DecidableEq, Repr

namespace Value

def wordOf (name : String) (bytes : List UInt8) : Except Fault Data :=
  if bytes.length < 4 then .error (.enumSize name) else .ok (.word (Number.ofBytes (bytes.take 4)))

def ofBytes (type : ValueType) (bytes : List UInt8) : Except Fault Value :=
  match type with
  | .bytes => .ok ⟨type, .bytes bytes⟩
  | .number => .ok ⟨type, .number (Number.ofSignedBytes bytes)⟩
  | .string => .ok ⟨type, .text (Text.Utf8.decode bytes)⟩
  | .enumeration => (wordOf "enum" bytes).map (⟨type, ·⟩)
  | .timestamp => (wordOf "timestamp" bytes).map (⟨type, ·⟩)
  | .bool => .ok ⟨type, .flag (bytes.head?.any (· ≠ 0))⟩
  | _ =>
    match Address.ofBytes bytes with
    | .ok a => .ok ⟨type, .address a⟩
    | .error _ => .ok ⟨type, .bytes bytes⟩

/-- The text that a value stands for where a name is needed. -/
def asText (v : Value) : Except Fault String :=
  match v.data with
  | .absent => .ok ""
  | .bytes data =>
    .ok (if v.type = .bytes then Text.Utf8.decode data else "Interop:" ++ Text.Hex.encode data)
  | .number n => Number.numeral n
  | .text s => .ok s
  | .word n => .ok (toString n)
  | .flag b => .ok (if b then "true" else "false")
  | .address a => .ok a.text

/-- The held data in JSON; numbers of any size are written as texts. -/
def dataJson (v : Value) : Except Fault Json :=
  match v.data with
  | .absent => .ok .null
  | .bytes data => .ok (.str (Text.Hex.encode data))
  | .number n => (Number.numeral n).map .str
  | .text s => .ok (.str s)
  | .word n => .ok (.nat n)
  | .flag b => .ok (.bool b)
  | .address a => .ok (.str a.text)

def members (v : Value) : Except Fault (List (Text × Json)) := do
  let data ← v.dataJson
  pure [("vm_type", .str v.type.name), ("value", data)]

def toJson (v : Value) : Except Fault Json := v.members.map .obj

end Value

end ChainDecode.Vm
