import ChainDecode.Abi.Path
import ChainDecode.Command.Flag
import ChainDecode.Number.Numeral
import ChainDecode.Outcome.Detail

/-! # Settings

What a command line sets, and how the value of each flag is read. Choices are taken in any letter
case and with blanks around them. A flag may also be given and left open: a text is then empty, and
a choice is not made.
-/
namespace ChainDecode.Command

inductive TableSource where
  | unset
  | left
  | path (p : Abi.Path)
  deriving DecidableEq, Repr

def TableSource.path? : TableSource → Option Abi.Path
  | path p => some p
  | _ => none

/-- What a command line sets. A choice that was left open is absent. -/
structure Settings where
  target : Option Text
  hex : Option Text
  hash : Option Text
  rpc : Option Text
  abi : TableSource
  eventKind : Option Text
  symbol : Option Text
  tokenId : Option Text
  romMode : Option Rom.Mode
  format : Text
  vmDetail : Option VmDetail
  carbonDetail : Option CarbonDetail
  addresses : Option Carbon.AddressView.Mode
  protocol : Option Nat
  resolve : Bool
  verbose : Bool
  bytes32 : Option Text
  pha : Option Text
  deriving Repr

namespace Settings

def default : Settings where
  target := none
  hex := none
  hash := none
  rpc := none
  abi := .unset
  eventKind := none
  symbol := none
  tokenId := none
  romMode := some .auto
  format := "pretty"
  vmDetail := some VmDetail.all
  carbonDetail := some .call
  addresses := some .bytes
  protocol := some Vm.latestProtocol
  resolve := false
  verbose := false
  bytes32 := none
  pha := none

end Settings

def formats : List (Text × Text) := [("json", "json"), ("pretty", "pretty")]

def vmDetails : List (Text × VmDetail) :=
  [("all", .all), ("both", .all), ("calls", ⟨false, true⟩), ("methods", ⟨false, true⟩),
    ("ops", ⟨true, false⟩), ("opcodes", ⟨true, false⟩), ("none", ⟨false, false⟩),
    ("off", ⟨false, false⟩)]

def carbonDetails : List (Text × CarbonDetail) :=
  [("all", .all), ("call", .call), ("msg", .message), ("none", .nothing)]

def addressModes : List (Text × Carbon.AddressView.Mode) :=
  [("bytes32", .bytes), ("raw", .bytes), ("hex", .bytes), ("off", .bytes), ("pha", .address),
    ("phantasma", .address), ("decode", .address)]

def choose {α : Type} (label : Text) (choices : List (Text × α)) (text : Text) :
    Except Text α :=
  match choices.lookup (Text.lower (Text.strip text)) with
  | some choice => .ok choice
  | none => .error ("unknown " ++ label ++ ": " ++ text)

def chooseRomMode (text : Text) : Except Text Rom.Mode :=
  match Rom.Mode.ofText text with
  | .ok mode => .ok mode
  | .error f => .error f.message

def chooseProtocol (text : Text) : Except Text Nat :=
  if !Text.isDigits text then .error ("invalid protocol version: " ++ text)
  else
    match Number.ofNumeral text with
    | .ok n => .ok n.toNat
    | .error _ => .error s!"invalid _protocol value: {Text.quoted text}"

namespace Settings

def setValue (s : Settings) (f : Flag) (text : Text) : Except Text Settings :=
  match f with
  | .hex => .ok { s with hex := some text }
  | .hash => .ok { s with hash := some text }
  | .rpc => .ok { s with rpc := some text }
  | .abi => .ok { s with abi := .path (.ofText text) }
  | .kind => .ok { s with eventKind := some text }
  | .symbol => .ok { s with symbol := some text }
  | .tokenId => .ok { s with tokenId := some text }
  | .romFormat => return { s with romMode := some (← chooseRomMode text) }
  | .format => return { s with format := ← choose "format" formats text }
  | .vmDetail => return { s with vmDetail := some (← choose "vm detail" vmDetails text) }
  | .carbonDetail =>
    return { s with carbonDetail := some (← choose "carbon detail" carbonDetails text) }
  | .carbonAddresses =>
    return { s with addresses := some (← choose "carbon address mode" addressModes text) }
  | .protocol => return { s with protocol := some (← chooseProtocol text) }
  | .bytes32 => .ok { s with bytes32 := some text }
  | .pha => .ok { s with pha := some text }
  | .help | .version | .resolve | .verbose => .ok s

def setOpen (s : Settings) (f : Flag) : Settings :=
  match f with
  | .hex => { s with hex := some "" }
  | .hash => { s with hash := some "" }
  | .rpc => { s with rpc := some "" }
  | .abi => { s with abi := .left }
  | .kind => { s with eventKind := some "" }
  | .symbol => { s with symbol := some "" }
  | .tokenId => { s with tokenId := some "" }
  | .romFormat => { s with romMode := none }
  | .format => { s with format := "pretty" }
  | .vmDetail => { s with vmDetail := none }
  | .carbonDetail => { s with carbonDetail := none }
  | .carbonAddresses => { s with addresses := none }
  | .protocol => { s with protocol := none }
  | .bytes32 => { s with bytes32 := some "" }
  | .pha => { s with pha := some "" }
  | .help | .version | .resolve | .verbose => s

def setSwitch (s : Settings) : Flag → Settings
  | .resolve => { s with resolve := true }
  | .verbose => { s with verbose := true }
  | _ => s

/-- How a choice that was left open is shown: as an empty list. -/
def openChoice : Json := .arr []

def detail (s : Settings) : Detail :=
  ⟨s.vmDetail.getD .all, s.carbonDetail.getD .all,
    match s.addresses with
    | some mode => mode.name
    | none => openChoice.display⟩

def protocolVersion (s : Settings) : Json := (s.protocol.map Json.nat).getD openChoice

end Settings

end ChainDecode.Command
