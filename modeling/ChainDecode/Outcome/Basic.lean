import ChainDecode.Carbon.Transaction
import ChainDecode.Event.Decode
import ChainDecode.Rom.Decode
import ChainDecode.Vm.Transaction

/-! # Outcomes

An outcome is everything that one decode produced: the records it found, warnings about what they
lack, and errors when it found nothing.
-/
namespace ChainDecode

inductive Source where
  | transactionHex
  | transactionHash
  | eventHex
  | romHex
  | address
  deriving DecidableEq, Repr

def Source.name : Source → String
  | transactionHex => "tx-hex"
  | transactionHash => "tx-hash"
  | eventHex => "event-hex"
  | romHex => "rom-hex"
  | address => "address-convert"

structure Origin where
  url : Text
  method : String
  deriving DecidableEq, Repr

def Origin.toJson (o : Origin) : Json := .obj [("url", .str o.url), ("method", .str o.method)]

/-- Everything that one decode produced. The format is the name of the output format. -/
structure Outcome where
  source : Source
  input : Text
  format : Text
  origin : Option Origin
  carbon : Option Carbon.Transaction
  vm : Option Vm.Transaction
  event : Option Event.Decoded
  rom : Option Rom.Decoded
  address : Option Address.Conversion
  warnings : List Text
  errors : List Text
  deriving Repr

namespace Outcome

def start (source : Source) (input format : Text) : Outcome :=
  ⟨source, input, format, none, none, none, none, none, none, [], []⟩

def warn (o : Outcome) (warnings : List Text) : Outcome :=
  { o with warnings := o.warnings ++ warnings }

def fail (o : Outcome) (errors : List Text) : Outcome := { o with errors := o.errors ++ errors }

def members (o : Outcome) : Except Fault (List (Text × Json)) := do
  let vm ← o.vm.mapM Vm.Transaction.toJson
  pure (Json.member "source" (.str o.source.name) ++
    Json.member "input" (.str o.input) ++
    Json.member "format" (.str o.format) ++
    Json.member? "rpc" (o.origin.map Origin.toJson) ++
    Json.member? "carbon" (o.carbon.map Carbon.Transaction.toJson) ++
    Json.member? "vm" vm ++
    Json.member? "event" (o.event.map Event.Decoded.toJson) ++
    Json.member? "rom" (o.rom.map Rom.Decoded.toJson) ++
    Json.member? "address" (o.address.map Address.Conversion.toJson) ++
    Json.member "warnings" (.texts o.warnings) ++
    Json.member "errors" (.texts o.errors))

end Outcome

end ChainDecode
