import ChainDecode.Vm.Instruction

/-! # Scripts

A script is read instruction by instruction up to its first return or its last byte. What follows
a return is not part of it.
-/
namespace ChainDecode.Vm

def readOperands : List OperandShape → Read (List Operand)
  | [] => pure []
  | shape :: rest => do
    let operand ← shape.read
    let operands ← readOperands rest
    pure (operand :: operands)

def readInstruction : Read Instruction := do
  let offset ← Read.position
  let opcode ← Buffer.word scriptLabel 1
  let operands ← readOperands (Opcode.ofCode opcode).operands
  pure ⟨offset, opcode, operands⟩

def readInstructions : (most : Nat) → Read (List Instruction)
  | 0 => pure []
  | most + 1 => do
    if (← get).atEnd then pure []
    else
      let first ← readInstruction
      if first.opcode = Opcode.ret then pure [first]
      else
        let rest ← readInstructions most
        pure (first :: rest)

/-- The instructions of a script. Each takes a byte at least, so there are no more than bytes. -/
def disassemble (script : List UInt8) : Except Fault (List Instruction) :=
  ((readInstructions script.length).onBytes script).map (·.1)

def listing (instructions : List Instruction) : Except Fault Text := do
  let lines ← instructions.mapM Instruction.text
  pure (Text.joined "\n" lines ++ "\n")

end ChainDecode.Vm
