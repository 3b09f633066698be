import ChainDecode.Abi.Contract
import ChainDecode.Vm.Script
import ChainDecode.Vm.Value

/-! # Recovering calls from scripts

Only loads, pushes, context switches and calls are replayed: enough to name the contract, the
method and the values pushed for it. A run that stops keeps the registers, the stack and the
warnings it had.
-/
namespace ChainDecode.Vm

structure Argument where
  param : Abi.Param
  value : Value
  deriving Repr

structure MethodCall where
  contract : String
  method : String
  arguments : List Argument
  deriving Repr

def Argument.toJson (a : Argument) : Except Fault Json := do
  let members ← a.value.members
  pure (.obj (members ++ Json.member "name" a.param.name ++ Json.member "abi_type" a.param.type))

def MethodCall.toJson (c : MethodCall) : Except Fault Json := do
  let arguments ← c.arguments.mapM Argument.toJson
  pure (.obj [("contract", .str c.contract), ("method", .str c.method), ("args", .arr arguments)])

/-- What calls are checked against: a method table and a protocol version, if they are known. -/
structure Conventions where
  table : Option Abi.Table
  protocol : Option Json
  deriving Repr

def latestProtocol : Nat := 19

structure ArityChange where
  -- The first protocol version with the new number.
  since : Int
  before : Nat
  after : Nat
  deriving DecidableEq, Repr

def arityChange? (key : Text) : Option ArityChange :=
  if key = "Runtime.Notify" then some ⟨19, 3, 4⟩
  else if key = "Runtime.ReadToken" then some ⟨15, 2, 3⟩
  else if key = "Runtime.UpgradeContract" then some ⟨14, 3, 4⟩
  else none

/-- The number of arguments of an interop method in a protocol version, if it depends on it. A
version that is no number cannot be compared. -/
def expectedArity (key : Text) (protocol : Json) : Except Fault (Option Nat) :=
  match arityChange? key with
  | none => .ok none
  | some change =>
    match protocol.below? change.since with
    | some true => .ok (some change.before)
    | some false => .ok (some change.after)
    | none => .error .wrongShape

/-- The registers, the stack with its top first, and the warnings so far. -/
structure Machine where
  registers : Vector (Option Value) 16
  stack : List Value
  warnings : List Text

namespace Machine

def fresh : Machine := ⟨Vector.replicate 16 none, [], []⟩

/-- The value of a register; there is none outside the sixteen. -/
def register? (m : Machine) (index : Int) : Option Value :=
  if index < 0 then none else (m.registers[index.toNat]?).join

def store (m : Machine) (index : Int) (value : Option Value) : Machine :=
  if index < 0 then m
  else { m with registers := m.registers.setIfInBounds index.toNat value }

def warn (m : Machine) (warning : Text) : Machine :=
  { m with warnings := m.warnings ++ [warning] }

end Machine

abbrev Run (α : Type) := EStateM Fault Machine α

def Run.ofExcept {α : Type} : Except Fault α → Run α
  | .ok a => pure a
  | .error f => throw f

def Run.warn (warning : Text) : Run Unit := modify (·.warn warning)

def callKey (contract method : String) : String :=
  if contract.isEmpty then method else s!"{contract}.{method}"

def checkArity (protocol : Option Json) (key : String) (given : Nat) : Run Unit :=
  match protocol with
  | none => pure ()
  | some version =>
    match expectedArity key version with
    | .error f => throw f
    | .ok none => pure ()
    | .ok (some expected) =>
      if expected = given then pure ()
      else do
        let shown ← Run.ofExcept version.shown
        Run.warn ("protocol " ++ shown ++ s!" expects {expected} args for {key}; " ++
          s!"script provides {given}")

def popArguments : List Abi.Param → Run (List Argument)
  | [] => pure []
  | param :: rest => do
    match (← get).stack with
    | [] => pure []
    | value :: stack =>
      modify fun m => { m with stack := stack }
      let _ ← Run.ofExcept value.dataJson
      let arguments ← popArguments rest
      pure (⟨param, value⟩ :: arguments)

def makeCall (c : Conventions) (contract method : String) : Run MethodCall := do
  let key := callKey contract method
  let given := (← get).stack.length
  checkArity c.protocol key given
  match Abi.resolve c.table key given with
  | .ambiguous =>
    Run.warn s!"ABI overload ambiguity for {key}; args omitted"
    modify fun m => { m with stack := [] }
    pure ⟨contract, method, []⟩
  | .missing =>
    Run.warn s!"missing ABI for {key}; args omitted"
    modify fun m => { m with stack := [] }
    pure ⟨contract, method, []⟩
  | .exact signature =>
    if given < signature.params.length then
      throw (.tooFewArguments key signature.params.length given)
    else
      let arguments ← popArguments signature.params
      pure ⟨contract, method, arguments⟩

def registerText (index : Int) : Run String := do
  match (← get).register? index with
  | some value => Run.ofExcept value.asText
  | none => pure ""

def popText : Run String := do
  match (← get).stack with
  | [] => pure ""
  | value :: stack =>
    modify fun m => { m with stack := stack }
    Run.ofExcept value.asText

/-- Replays one instruction; calls yield what they call. -/
def replay (c : Conventions) (i : Instruction) : Run (Option MethodCall) :=
  match i.operands with
  | [.number target, .number code, .bytes payload] =>
    if i.opcode = Opcode.load then do
      let value ← Run.ofExcept (Value.ofBytes (.ofCode code) payload)
      modify fun m => m.store target (some value)
      pure none
    else pure none
  | [.number source, .number target] =>
    if i.opcode = Opcode.ctx then do
      modify fun m => m.store target (m.register? source)
      pure none
    else pure none
  | [.number source] =>
    if i.opcode = Opcode.push then do
      match (← get).register? source with
      | none => Run.warn s!"PUSH from empty register r{source}"
      | some value => modify fun m => { m with stack := value :: m.stack }
      pure none
    else if i.opcode = Opcode.switch then do
      let contract ← registerText source
      let method ← popText
      some <$> makeCall c contract method
    else if i.opcode = Opcode.extCall then do
      let method ← registerText source
      some <$> makeCall c "" method
    else pure none
  | _ => pure none

def replayAll (c : Conventions) : List Instruction → Run (List MethodCall)
  | [] => pure []
  | i :: rest => do
    let call ← replay c i
    let calls ← replayAll c rest
    pure (call.toList ++ calls)

structure Disassembly where
  instructions : List Instruction
  calls : List MethodCall
  warnings : List Text
  deriving Repr

def analyse (c : Conventions) (script : List UInt8) : Except Fault Disassembly := do
  let instructions ← disassemble script
  match (replayAll c instructions).run .fresh with
  | .ok calls m => pure ⟨instructions, calls, m.warnings⟩
  | .error f _ => throw f

end ChainDecode.Vm
