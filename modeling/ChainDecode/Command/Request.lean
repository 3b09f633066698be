import ChainDecode.Command.Line

/-! # Requests

A request is a task with the settings for it. The target of a command line names the kind of task,
or is itself the transaction to decode.
-/
namespace ChainDecode.Command

inductive Kind where
  | tx
  | event
  | rom
  | address
  deriving DecidableEq, Repr

namespace Kind

def name : Kind → String
  | tx => "tx"
  | event => "event"
  | rom => "rom"
  | address => "address"

def ofName? (name : Text) : Option Kind :=
  if name = "tx" then some tx
  else if name = "event" then some event
  else if name = "rom" then some rom
  else if name = "address" then some address
  else none

end Kind

inductive Task where
  | transactionHex (text : Text)
  | transactionHash (hash : Text)
  | event (text : Text)
  | rom (text : Text)
  -- Exactly one of a key in hexadecimal and an address text is given and not empty.
  | address (key text : Option Text)
  deriving DecidableEq, Repr

def Task.kind : Task → Kind
  | transactionHex _ => .tx
  | transactionHash _ => .tx
  | event _ => .event
  | rom _ => .rom
  | address .. => .address

structure Request where
  task : Task
  settings : Settings
  deriving Repr

def given (text : Option Text) : Option Text := text.filter (!·.isEmpty)

/-- The kind of the task, and the settings with a bare transaction in its place. -/
def Settings.taskKind (s : Settings) : Except Ending (Kind × Settings) :=
  match s.target with
  | none => .ok (.tx, s)
  | some target =>
    match Kind.ofName? target with
    | some kind => .ok (kind, s)
    | none =>
      match given s.hex with
      | some _ => .error (.refused ("unexpected argument: " ++ target))
      | none => .ok (.tx, { s with hex := some target })

def Settings.transactionTask (s : Settings) : Except Ending Task :=
  match given s.hex, given s.hash with
  | some text, none => .ok (.transactionHex text)
  | none, some hash => .ok (.transactionHash hash)
  | none, none => .error (.stopped "tx mode requires --hex <txHex> or --hash <txHash>")
  | some _, some _ => .error (.stopped "use only one of --hex or --hash")

def Settings.addressTask (s : Settings) : Except Ending Task :=
  match given s.bytes32, given s.pha with
  | none, none => .error (.stopped "address mode requires --bytes32 <hex> or --pha <address>")
  | some _, some _ => .error (.stopped "address mode accepts only one of --bytes32 or --pha")
  | key, text => .ok (.address key text)

def Settings.task (s : Settings) (kind : Kind) : Except Ending Task :=
  match kind with
  | .tx => s.transactionTask
  | .address => s.addressTask
  | .event =>
    match given s.hex with
    | some text => .ok (.event text)
    | none => .error (.stopped "event mode requires --hex <eventHex>")
  | .rom =>
    match given s.hex with
    | some text => .ok (.rom text)
    | none => .error (.stopped "rom mode requires --hex <romHex>")

def Request.ofWords (words : List Text) : Except Ending Request := do
  let s ← Settings.ofWords words
  let (kind, s) ← s.taskKind
  let task ← s.task kind
  pure ⟨task, s⟩

def Settings.ignored (s : Settings) (kind : Kind) : List String :=
  let analysis : List (String × Bool) := [("--abi", s.abi ≠ .unset), ("--resolve", s.resolve),
    ("--vm-detail", s.vmDetail ≠ some VmDetail.all),
    ("--carbon-detail", s.carbonDetail ≠ some .call),
    ("--carbon-addresses", s.addresses ≠ some .bytes)]
  let source := [("--rpc", s.rpc.isSome), ("--kind", s.eventKind.isSome)]
  let token := [("--symbol", s.symbol.isSome), ("--token-id", s.tokenId.isSome)]
  let checks := match kind with
    | .tx => []
    | .event => analysis
    | .rom => analysis ++ source
    | .address => analysis ++ source ++ token
  (checks.filter (·.2)).map (·.1)

def Request.warnings (r : Request) : List Text :=
  (r.settings.ignored r.task.kind).map fun flag =>
    s!"{flag} is ignored for {r.task.kind.name} mode"

end ChainDecode.Command
