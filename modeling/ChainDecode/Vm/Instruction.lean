import ChainDecode.Json.Literal
import ChainDecode.Number.Numeral
import ChainDecode.Text.Hex
import ChainDecode.Vm.Opcode

/-! # Instructions

An instruction is an opcode at an offset with its operands as they stand in the script. A loaded
constant is shown by its type.
-/
namespace ChainDecode.Vm

structure Instruction where
  offset : Int
  opcode : Int
  operands : List Operand
  deriving Repr

/-- A loaded constant as output shows it: texts and numbers by value, all else in hexadecimal. -/
def showLoaded (type : ValueType) (payload : List UInt8) : Except Fault String :=
  match type with
  | .string => .ok (Text.Utf8.decode payload)
  | .number => Number.numeral (Number.ofSignedBytes payload)
  | _ => .ok (Text.Hex.encode payload)

def byteOf (v : Json) : Except Fault UInt8 :=
  match v with
  | .int n => if 0 ≤ n && n < 256 then .ok (UInt8.ofNat n.toNat) else .error .wrongCount
  | .bool b => .ok (if b then 1 else 0)
  | _ => .error .wrongShape

/-- A loaded number that is no byte string: zero when it is blank, or a list of bytes. -/
def showNumberJson (payload : Json) : Except Fault String :=
  if payload.isBlank then .ok "0"
  else
    match payload with
    | .arr items => do
      let bytes ← items.mapM byteOf
      showLoaded .number bytes
    | _ => .error .wrongShape

/-- A loaded constant that is no byte string. A text has to be one, and of the values that are shown
in hexadecimal a fraction alone can be shown without. -/
def showLoadedJson (type : ValueType) (payload : Json) : Except Fault String :=
  match type, payload with
  | .string, _ => .error .notText
  | .number, payload => showNumberJson payload
  | _, .real x => .ok x.exactText
  | _, _ => .error .notText

def showOperand (type : ValueType) : Operand → Except Fault String
  | .bytes data => showLoaded type data
  | operand => showLoadedJson type operand.toJson

structure ShownOperand where
  json : Json
  text : Text
  deriving Repr

namespace ShownOperand

def ofJson (v : Json) : ShownOperand := ⟨v, v.display⟩

/-- The target of a load. Bytes in its place are shown as bytes. -/
def ofTarget : Operand → ShownOperand
  | .bytes data => ⟨.str (Text.Hex.encode data), Text.quotedBytes data⟩
  | operand => ofJson operand.toJson

end ShownOperand

def showLoad : List Operand → Except Fault (List ShownOperand)
  | [target, code, payload] => do
    let shown ← showOperand code.type payload
    pure [.ofTarget target, .ofJson (.str code.type.name), .ofJson (.str shown)]
  | _ => .error .wrongCount

def nameColumn (name : Text) : Text :=
  name ++ Text.ofChars (List.replicate (8 - name.letters.length) ' ')

def listingLine (offset name : Text) (operands : List ShownOperand) : Text :=
  let shown := Text.joined ", " (operands.map (·.text))
  (offset ++ ": " ++ nameColumn name ++ " " ++ shown).stripEnd

def instructionJson (offset opcode : Json) (name : Text) (operands : List ShownOperand) : Json :=
  .obj [("offset", offset), ("opcode", opcode), ("opcode_name", .str name),
    ("args", .arr (operands.map (·.json)))]

namespace Instruction

def name (i : Instruction) : String := (Opcode.ofCode i.opcode).name

def shownOperands (i : Instruction) : Except Fault (List ShownOperand) :=
  if i.opcode = Opcode.load then showLoad i.operands
  else .ok (i.operands.map fun operand => .ofJson operand.toJson)

def toJson (i : Instruction) : Except Fault Json := do
  let operands ← i.shownOperands
  pure (instructionJson (.int i.offset) (.int i.opcode) i.name operands)

def offsetText (n : Int) : String :=
  let digits := (Nat.toDigits 16 n.natAbs).map Char.toUpper
  let sign := if n < 0 then ['-'] else []
  String.ofList (sign ++ List.replicate (4 - sign.length - digits.length) '0' ++ digits)

def text (i : Instruction) : Except Fault Text := do
  let operands ← i.shownOperands
  pure (listingLine (offsetText i.offset) i.name operands)

end Instruction

end ChainDecode.Vm
