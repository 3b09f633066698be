import ChainDecode.Vm.Machine

/-! # Transactions of the virtual machine

A transaction names its nexus and chain and holds a script, a time, a payload and signatures. The
script is analysed as far as it can be; what goes wrong there becomes a warning.
-/
namespace ChainDecode.Vm

inductive Signature where
  | unsigned
  | ed25519 (data : List UInt8)
  | ecdsa (curve : UInt8) (data : List UInt8)
  deriving DecidableEq, Repr

def Signature.toJson : Signature → Json
  | .unsigned => .obj [("kind", .str "None"), ("data_hex", .str "")]
  | .ed25519 data => .obj [("kind", .str "Ed25519"), ("data_hex", .str (Text.Hex.encode data))]
  | .ecdsa curve data =>
    .obj [("kind", .str "ECDSA"), ("data_hex", .str (Text.Hex.encode data)),
      ("curve", .nat curve.toNat)]

structure Container where
  nexus : String
  chain : String
  script : List UInt8
  expiration : Nat
  payload : List UInt8
  signatures : List Signature
  deriving DecidableEq, Repr

namespace Container

def label : Text := "VM transaction"

def isPlain (s : String) : Bool := s.toList.all fun c => 32 ≤ c.toNat && c.toNat ≤ 126

def readBytes : Read (List UInt8) := Buffer.byteArray label Buffer.varintMax

def readSignature : Read Signature := do
  let kind ← Buffer.word label 1
  if kind = 0 then pure .unsigned
  else if kind = 1 then return .ed25519 (← readBytes)
  else if kind = 2 then
    let curve ← Buffer.word label 1
    let data ← readBytes
    pure (.ecdsa (UInt8.ofNat curve) data)
  else throw (.signatureKind kind)

def read : Read Container := do
  let nexus ← Buffer.text label
  let chain ← Buffer.text label
  if isPlain nexus && isPlain chain then
    let script ← readBytes
    let expiration ← Buffer.timestamp label
    let payload ← readBytes
    let count ← Buffer.length label Buffer.varintMax
    let signatures ← times readSignature count
    pure ⟨nexus, chain, script, expiration, payload, signatures⟩
  else throw .unprintableName

end Container

structure Analysis where
  instructions : List Instruction
  calls : List MethodCall
  deriving Repr

/-- A transaction as output shows it. The script and the payload are texts, because a node may
report them in any form. -/
structure Transaction where
  nexus : String
  chain : Text
  script : Text
  payload : Text
  expiration : Int
  signatureCount : Nat
  signatures : List Signature
  analysis : Option Analysis
  deriving Repr

def Analysis.members (a : Analysis) : Except Fault (List (Text × Json)) := do
  let instructions ← a.instructions.mapM Instruction.toJson
  let calls ← a.calls.mapM MethodCall.toJson
  pure [("instructions", .arr instructions), ("method_calls", .arr calls)]

namespace Transaction

def toJson (t : Transaction) : Except Fault Json := do
  let head : List (Text × Json) :=
    [("nexus", .str t.nexus), ("chain", .str t.chain), ("script_hex", .str t.script),
      ("payload_hex", .str t.payload), ("expiration_unix", .int t.expiration),
      ("signatures", .nat t.signatureCount)]
  let details := if t.signatures.isEmpty then []
    else Json.member "signature_details" (.arr (t.signatures.map Signature.toJson))
  let tail ← match t.analysis with
    | none => pure []
    | some a => a.members
  pure (.obj (head ++ details ++ tail))

/-- Analyses the script of a transaction. An empty script is left alone; a cause in the script
becomes a warning that starts with `failure`. -/
def analyseScript (c : Conventions) (failure : Text) (t : Transaction) :
    Except Fault (Transaction × List Text) :=
  if t.script.isEmpty then .ok (t, [])
  else
    match Text.Hex.decode t.script >>= analyse c with
    | .ok d => .ok ({ t with analysis := some ⟨d.instructions, d.calls⟩ }, d.warnings)
    | .error f => if f.isDecode then .ok (t, [failure ++ ": " ++ f.message]) else .error f

def ofContainer (c : Container) : Transaction :=
  ⟨c.nexus, c.chain, Text.Hex.encode c.script, Text.Hex.encode c.payload, c.expiration,
    c.signatures.length, c.signatures, none⟩

def decode (c : Conventions) (bytes : List UInt8) : Except Fault (Transaction × List Text) := do
  let (container, cursor) ← Container.read.onBytes bytes
  let left : List Text := if cursor.atEnd then [] else ["VM decode did not consume all bytes"]
  let (t, warnings) ← (ofContainer container).analyseScript c "VM disassembly failed"
  pure (t, left ++ warnings)

end Transaction

end ChainDecode.Vm
