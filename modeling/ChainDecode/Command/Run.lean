import ChainDecode.Abi.Builtin
import ChainDecode.Abi.Load
import ChainDecode.Command.Request
import ChainDecode.Outcome.Render
import ChainDecode.Outcome.Transaction

/-! # Running requests

A run is a function of the request, of what the path of the method table leads to, and of what the
network replies. It ends with a text or is given up; a cause that nobody reports escapes.
-/
namespace ChainDecode.Command

abbrev Job (α : Type) := EStateM Fault Node.Network α

namespace Job

def ofExcept {α : Type} : Except Fault α → Job α
  | .ok a => pure a
  | .error f => throw f

def ask {α : Type} (url : Text) (talk : Node.Talk α) : Job (Except Fault α) := fun network =>
  match talk (.start url network) with
  | .ok a s => .ok (.ok a) s.network
  | .error f s => .ok (.error f) s.network

end Job

def nodeUrl (s : Settings) (flag : String) : Job Text :=
  match given s.rpc with
  | some url => pure url
  | none => throw (.nodeNotGiven flag)

def override (source : Text) (l : Abi.Loaded) (incoming : Abi.Loaded) : Abi.Loaded :=
  let merged := l.merge .override source incoming.table
  { merged with warnings := merged.warnings ++ incoming.warnings }

def addFiles (s : Settings) (found : Abi.Found) (l : Abi.Loaded) : Job Abi.Loaded :=
  match s.abi.path? with
  | none => pure l
  | some path => do
    let loaded ← Job.ofExcept (Abi.load path found)
    pure (override "abi" l loaded)

def addContracts (s : Settings) (l : Abi.Loaded) : Job Abi.Loaded := do
  if s.resolve then
    let url ← nodeUrl s "--resolve"
    let contracts ← Job.ofExcept (← Job.ask url (Node.contracts (.str "main") (.bool true)))
    let loaded ← Job.ofExcept (Abi.ofContracts contracts "rpc")
    pure (override "rpc" l loaded)
  else pure l

/-- The method table of a request: builtin signatures, then files, then the chain's contracts. -/
def loadTable (s : Settings) (found : Abi.Found) : Job Abi.Loaded := do
  let l ← addFiles s found ⟨Abi.Builtin.table, []⟩
  addContracts s l

def conventions (s : Settings) (table : Abi.Table) : Vm.Conventions :=
  ⟨some table, some s.protocolVersion⟩

def runHex (s : Settings) (found : Abi.Found) (text : Text) : Job Outcome := do
  let l ← loadTable s found
  let o ← Job.ofExcept (Outcome.ofHex (conventions s l.table) s.format text)
  pure (o.warn l.warnings)

def runHash (s : Settings) (found : Abi.Found) (hash : Text) : Job Outcome := do
  let l ← loadTable s found
  let url ← nodeUrl s "--hash"
  let told ← Job.ask url (Node.transaction (.str hash))
  let o ← Job.ofExcept (Outcome.ofHash (conventions s l.table) s.format hash url told)
  pure (o.warn l.warnings)

def runEvent (s : Settings) (text : Text) (warnings : List Text) : Except Fault Outcome :=
  let o := (Outcome.start .eventHex text s.format).warn warnings
  match Text.Hex.decode text with
  | .error f => .ok (o.fail [f.message])
  | .ok data =>
    let o := { o with input := Text.Hex.encode data }
    match Event.decode data s.eventKind with
    | .ok (event, found) => .ok ({ o with event := some event }.warn found)
    | .error f => if f.isDecode then .ok (o.fail [f.message]) else .error f

/-- Decodes token data as it was chosen. Without a choice there is no way to. -/
def decodeRom (s : Settings) (data : List UInt8) : Except Fault (Rom.Decoded × List Text) :=
  match s.romMode with
  | some mode => Rom.decode data mode ⟨s.symbol, s.tokenId⟩
  | none => .error .notText

def runRom (s : Settings) (text : Text) (warnings : List Text) : Except Fault Outcome :=
  let o := (Outcome.start .romHex text s.format).warn warnings
  match Text.Hex.decode text >>= decodeRom s with
  | .ok (rom, found) =>
    .ok ({ o with input := Text.Hex.encode rom.data, rom := some rom }.warn found)
  | .error f => if f.isDecode then .ok (o.fail [f.message]) else .error f

def runAddress (s : Settings) (key text : Option Text) (warnings : List Text) :
    Except Fault Outcome :=
  let o := (Outcome.start .address ((key.or text).getD "") s.format).warn warnings
  match Address.convert key text with
  | .ok conversion => .ok { o with address := some conversion }
  | .error f => if f.isDecode then .ok (o.fail [f.message]) else .error f

def outcome (r : Request) (found : Abi.Found) : Job Outcome :=
  match r.task with
  | .transactionHex text => runHex r.settings found text
  | .transactionHash hash => runHash r.settings found hash
  | .event text => Job.ofExcept (runEvent r.settings text r.warnings)
  | .rom text => Job.ofExcept (runRom r.settings text r.warnings)
  | .address key text => Job.ofExcept (runAddress r.settings key text r.warnings)

def isReported (f : Fault) : Bool :=
  f.isDecode || f.kind ∈ [.node, .noFile, .isDirectory, .notDirectory, .longPath]

def print (s : Settings) (o : Outcome) : Except Fault Ending := do
  let members ← o.shown s.detail
  let text ← Outcome.render (.obj members)
  pure (.printed (text ++ "\n") (if o.errors.isEmpty then 0 else 1))

def Request.run (r : Request) (found : Abi.Found) (network : Node.Network) :
    Except Fault (Ending × Node.Network) :=
  match outcome r found network with
  | .ok o network => (print r.settings o).map (·, network)
  | .error f network => if isReported f then .ok (.stopped f.message, network) else .error f

end ChainDecode.Command
