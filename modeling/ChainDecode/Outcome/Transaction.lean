import ChainDecode.Node.Record
import ChainDecode.Outcome.Basic

/-! # Transactions of either format

Bytes are read as a Carbon transaction first, and as one of the virtual machine when they are none.
A node's record is read the same way, with the bare message and the bare script as last resorts.
-/
namespace ChainDecode.Outcome

def addInner (c : Vm.Conventions) (t : Carbon.Transaction) (o : Outcome) : Except Fault Outcome :=
  if Carbon.TxType.ofJson? t.type ≠ some .phantasmaRaw then .ok o
  else
    match t.message.inner?.getD [] with
    | [] => .ok (o.warn ["Phantasma_Raw payload missing inner transaction bytes"])
    | bytes =>
      match Vm.Transaction.decode c bytes with
      | .ok (vm, warnings) => .ok ({ o with vm := some vm }.warn warnings)
      | .error f =>
        if f.isDecode then
          .ok (o.warn ["Phantasma_Raw inner VM decode failed: " ++ f.message])
        else .error f

def addCarbon (c : Vm.Conventions) (found : Carbon.Transaction × List Text) (o : Outcome) :
    Except Fault Outcome :=
  addInner c found.1 ({ o with carbon := some found.1 }.warn found.2)

def addVm (c : Vm.Conventions) (bytes : List UInt8) (o : Outcome) : Except Fault Outcome :=
  match Vm.Transaction.decode c bytes with
  | .ok (vm, warnings) => .ok ({ o with vm := some vm }.warn warnings)
  | .error f =>
    if f.isDecode then .ok (o.fail [f.message, "failed to decode as Carbon or VM"])
    else .error f

def addBytes (c : Vm.Conventions) (bytes : List UInt8) (o : Outcome) : Except Fault Outcome :=
  match Carbon.Transaction.decode bytes with
  | .ok found => o.addCarbon c found
  | .error f => if f.isDecode then o.addVm c bytes else .error f

def ofHex (c : Vm.Conventions) (format text : Text) : Except Fault Outcome :=
  let o := start .transactionHex text format
  match Text.Hex.decode text with
  | .ok bytes => { o with input := Text.Hex.encode bytes }.addBytes c bytes
  | .error f => .ok (o.fail [f.message])

def reportOf (r : Node.Record) : Carbon.Report :=
  { gasPayer := r.gasPayer.getD .null
    gasLimit := (r.gasLimit.map Json.str).getD .null
    expiration := .int r.expiration
    payload := .str r.payload
    signatures := .arr r.signatures }

/-- The Carbon bytes of a record in hexadecimal; a bare `0x` counts as none. -/
def carbonHex? (r : Node.Record) : Option Text :=
  let hex := Text.strip r.carbonData
  if hex.isEmpty || Text.lower hex = "0x" then none else some hex

/-- The Carbon transaction in a record's bytes, with the warnings on the way to it. Bytes that are
no signed transaction may be a bare message. -/
def carbonOf (r : Node.Record) :
    Except Fault (Option (Carbon.Transaction × List Text) × List Text) :=
  match carbonHex? r with
  | none => .ok (none, [])
  | some hex =>
    match Text.Hex.decode hex >>= Carbon.Transaction.decode with
    | .ok found => .ok (some found, [])
    | .error f =>
      if !f.isDecode then .error f
      else
        let note := "SignedTxMsg decode failed (" ++ f.message ++ "); trying payload-only decode"
        match Text.Hex.decode hex >>= fun bytes =>
          Carbon.Transaction.decodeMessage (.int r.carbonType) bytes (reportOf r) with
        | .ok found => .ok (some found, [note])
        | .error f => if f.isDecode then .ok (none, [note, f.message]) else .error f

def scriptOf (r : Node.Record) : Vm.Transaction :=
  { nexus := ""
    chain := r.chain
    script := Text.lower r.script
    payload := Text.lower r.payload
    expiration := r.expiration
    signatureCount := r.signatures.length
    signatures := []
    analysis := none }

def addRecord (c : Vm.Conventions) (r : Node.Record) (o : Outcome) : Except Fault Outcome := do
  let (carbon, notes) ← carbonOf r
  match carbon with
  | some found => (o.warn notes).addCarbon c found
  | none =>
    let (vm, warnings) ← (scriptOf r).analyseScript c "VM disassembly failed for RPC script"
    let note : Text := "RPC does not expose full VM tx bytes; output is script/payload only"
    pure ({ o with vm := some vm }.warn (notes ++ warnings ++ [note]))

/-- The outcome of a transaction's hash, given what the node at `url` tells about it. A node that
tells nothing, or values that cannot be read, make an error of the outcome. -/
def ofHash (c : Vm.Conventions) (format hash url : Text) (told : Except Fault Node.Record) :
    Except Fault Outcome :=
  let o := { start .transactionHash hash format with
    origin := some ⟨url, Node.transactionMethod⟩ }
  match told with
  | .ok record => o.addRecord c record
  | .error f => if f.kind = .node || f.isValue then .ok (o.fail [f.message]) else .error f

end ChainDecode.Outcome
