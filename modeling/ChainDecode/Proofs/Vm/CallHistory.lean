import ChainDecode.Vm.Machine

/-! # Calls as a script's history tells them

What a call is made of, told from the instructions before it alone. There are no registers and no
stack here: a history is a list of instructions, the last one first, and every question about a
call is answered by looking back.
-/
namespace ChainDecode.Vm

/-- What an instruction does, as far as calls are concerned. -/
inductive Action where
  | load (target : Int) (value : Except Fault Value)
  | copy (source target : Int)
  | push (source : Int)
  | switch (source : Int)
  | extCall (source : Int)
  | idle

def Instruction.action (i : Instruction) : Action :=
  match i.operands with
  | [.number target, .number code, .bytes payload] =>
    if i.opcode = Opcode.load then .load target (Value.ofBytes (.ofCode code) payload) else .idle
  | [.number source, .number target] =>
    if i.opcode = Opcode.ctx then .copy source target else .idle
  | [.number source] =>
    if i.opcode = Opcode.push then .push source
    else if i.opcode = Opcode.switch then .switch source
    else if i.opcode = Opcode.extCall then .extCall source
    else .idle
  | _ => .idle

def Instruction.calls (i : Instruction) : Bool :=
  i.opcode = Opcode.extCall || i.opcode = Opcode.switch

/-- What a register holds: the last value loaded into it, or copied into it from another register.
Only sixteen registers hold anything. -/
def held : List Instruction → Int → Option Value
  | [], _ => none
  | i :: before, r =>
    if r < 0 ∨ 16 ≤ r then none
    else
      match i.action with
      | .load target value => if target = r then value.toOption else held before r
      | .copy source target => held before (if target = r then source else r)
      | _ => held before r

/-- The values pushed since the last call, in the order in which they were pushed. A push of a
register that holds nothing counts for nothing. -/
def pushed : List Instruction → List Value
  | [] => []
  | i :: before =>
    if i.calls then []
    else
      match i.action with
      | .push source => pushed before ++ (held before source).toList
      | _ => pushed before

def textOf : Option Value → Except Fault String
  | some value => value.asText
  | none => .ok ""

structure Site where
  before : List Instruction
  instruction : Instruction

namespace Site

def contract (s : Site) : Except Fault String :=
  match s.instruction.action with
  | .switch source => textOf (held s.before source)
  | _ => .ok ""

/-- A method is named by the last value pushed for a contract, and by a register otherwise. -/
def method (s : Site) : Except Fault String :=
  match s.instruction.action with
  | .switch _ => textOf (pushed s.before).getLast?
  | .extCall source => textOf (held s.before source)
  | _ => .ok ""

def operands (s : Site) : List Value :=
  match s.instruction.action with
  | .switch _ => (pushed s.before).dropLast
  | _ => pushed s.before

end Site

def Conventions.fitting (c : Conventions) (key : String) (given : Nat) : List Abi.Signature :=
  ((c.table.bind (·.get? (Text.ofString key))).getD []).filter fun s => s.params.length = given

def pairing (operands : List Value) : List Abi.Signature → List Argument
  | [signature] => List.zipWith Argument.mk signature.params operands.reverse
  | _ => []

structure Reconstructs (c : Conventions) (s : Site) (call : MethodCall) : Prop where
  contract : s.contract = .ok call.contract
  method : s.method = .ok call.method
  arguments : call.arguments =
    pairing s.operands (c.fitting (callKey call.contract call.method) s.operands.length)

/-- The calls of a script: one site for every instruction that calls, in order. -/
def sitesAfter (before : List Instruction) : List Instruction → List Site
  | [] => []
  | i :: rest =>
    (if i.calls then [⟨before, i⟩] else []) ++ sitesAfter (i :: before) rest

def sites (instructions : List Instruction) : List Site := sitesAfter [] instructions

def unresolved (key : String) : List Abi.Signature → List Text
  | [] => [s!"missing ABI for {key}; args omitted"]
  | [_] => []
  | _ => [s!"ABI overload ambiguity for {key}; args omitted"]

def mismatchLine (key : String) (given expected : Nat) (version : Text) : Text :=
  "protocol " ++ version ++ s!" expects {expected} args for {key}; " ++ s!"script provides {given}"

def mismatch (protocol : Option Json) (key : String) (given : Nat) : Except Fault (List Text) :=
  match protocol with
  | none => .ok []
  | some version =>
    expectedArity key version >>= fun
      | none => .ok []
      | some expected =>
        if expected = given then .ok []
        else version.shown.map fun shown => [mismatchLine key given expected shown]

def callWarnings (c : Conventions) (key : String) (given : Nat) : List Text :=
  ((mismatch c.protocol key given).toOption.getD []) ++ unresolved key (c.fitting key given)

def Site.warnings (c : Conventions) (s : Site) : List Text :=
  match s.contract, s.method with
  | .ok contract, .ok method => callWarnings c (callKey contract method) s.operands.length
  | _, _ => []

def warningsAt (c : Conventions) (before : List Instruction) (i : Instruction) : List Text :=
  match i.action with
  | .push source =>
    if (held before source).isNone then [s!"PUSH from empty register r{source}"] else []
  | .switch _ | .extCall _ => Site.warnings c ⟨before, i⟩
  | _ => []

def warned (c : Conventions) : List Instruction → List Text
  | [] => []
  | i :: before => warned c before ++ warningsAt c before i

end ChainDecode.Vm
