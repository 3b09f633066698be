import ChainDecode.Buffer
import ChainDecode.Text.QuotedBytes
import ChainDecode.Vm.Type

/-! # Opcodes

The name of every opcode and the operands that follow it in a script.
-/
namespace ChainDecode.Vm

inductive OperandShape where
  | byte
  | target
  | size
  -- A type byte, shown by its name.
  | typeName
  | payload
  deriving DecidableEq, Repr

/-- An operand. Scripts yield the first three kinds only. -/
inductive Operand where
  | number (n : Int)
  | text (s : Text)
  | bytes (data : List UInt8)
  | other (v : Json)
  deriving Repr

structure Opcode where
  name : String
  operands : List OperandShape
  deriving DecidableEq, Repr

namespace Opcode

def plain (name : String) : Opcode := ⟨name, []⟩

def unary (name : String) : Opcode := ⟨name, [.byte]⟩

def binary (name : String) : Opcode := ⟨name, [.byte, .byte]⟩

def ternary (name : String) : Opcode := ⟨name, [.byte, .byte, .byte]⟩

def table : List Opcode :=
  [plain "NOP", binary "MOVE", binary "COPY", unary "PUSH", unary "POP", binary "SWAP",
    ⟨"CALL", [.byte, .target]⟩, unary "EXTCALL", ⟨"JMP", [.target]⟩, ⟨"JMPIF", [.byte, .target]⟩,
    ⟨"JMPNOT", [.byte, .target]⟩, plain "RET", unary "THROW", ⟨"LOAD", [.byte, .byte, .payload]⟩,
    ⟨"CAST", [.byte, .byte, .typeName]⟩, ternary "CAT", ⟨"RANGE", [.byte, .byte, .size, .size]⟩,
    ⟨"LEFT", [.byte, .byte, .size]⟩, ⟨"RIGHT", [.byte, .byte, .size]⟩, binary "SIZE",
    binary "COUNT", binary "NOT", ternary "AND", ternary "OR", ternary "XOR", ternary "EQUAL",
    ternary "LT", ternary "GT", ternary "LTE", ternary "GTE", unary "INC", unary "DEC",
    binary "SIGN", binary "NEGATE", binary "ABS", ternary "ADD", ternary "SUB", ternary "MUL",
    ternary "DIV", ternary "MOD", ternary "SHL", ternary "SHR", ternary "MIN", ternary "MAX",
    ternary "POW", binary "CTX", unary "SWITCH", ternary "PUT", ternary "GET", unary "CLEAR",
    binary "UNPACK", plain "PACK", plain "DEBUG", plain "SUBSTR", binary "REMOVE"]

def known? (code : Int) : Option Opcode :=
  if code = 255 then some (plain "EVM") else if code < 0 then none else table[code.toNat]?

def ofCode (code : Int) : Opcode := (known? code).getD (plain s!"OP_{code}")

/-- The name of the opcode whose number a value equals; a value without one is shown as it is. -/
def nameOf (v : Json) : Except Fault Text :=
  if !v.isKey then .error .wrongShape
  else
    match v.whole?.bind known? with
    | some opcode => .ok opcode.name
    | none => .ok ("OP_" ++ v.display)

def push : Int := 3

def extCall : Int := 7

def ret : Int := 11

def load : Int := 13

def ctx : Int := 45

def switch : Int := 46

end Opcode

def scriptLabel : Text := "VM script"

def operandMax : Int := 0xffff

def OperandShape.read : OperandShape → Read Operand
  | .byte => return .number (← Buffer.word scriptLabel 1)
  | .target => return .number (← Buffer.word scriptLabel 2)
  | .size => return .number (← Buffer.varint scriptLabel operandMax)
  | .typeName => do
    let code ← Buffer.word scriptLabel 1
    return .text (ValueType.ofCode code).name
  | .payload => do
    let length ← Buffer.varint scriptLabel operandMax
    return .bytes (← Buffer.take scriptLabel length)

def Operand.toJson : Operand → Json
  | .number n => .int n
  | .text s => .str s
  | .bytes data => .arr (data.map fun b => .nat b.toNat)
  | .other v => v

def Operand.type : Operand → ValueType
  | .number n => .ofCode n
  | .text s => .other s
  | .bytes data => .other (Text.quotedBytes data)
  | .other v => .ofJson v

end ChainDecode.Vm
