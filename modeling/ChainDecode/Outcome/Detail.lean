import ChainDecode.Carbon.AddressView
import ChainDecode.Outcome.Basic

/-! # Detail of outcomes

Options tell how much of a transaction is shown and how its keys are written. Keys are shown
before anything is left out, so a message and its calls are always written alike.
-/
namespace ChainDecode

structure VmDetail where
  instructions : Bool
  calls : Bool
  deriving DecidableEq, Repr

namespace VmDetail

def all : VmDetail := ⟨true, true⟩

/-- The detail with a name; unknown names hide nothing. -/
def ofName (name : Text) : VmDetail :=
  if name = "calls" then ⟨false, true⟩
  else if name = "ops" then ⟨true, false⟩
  else if name = "none" then ⟨false, false⟩
  else all

def hidden (d : VmDetail) : List Text :=
  let instructions : List Text := if d.instructions then [] else ["instructions"]
  let calls : List Text := if d.calls then [] else ["method_calls"]
  instructions ++ calls

end VmDetail

inductive CarbonDetail where
  | all
  | call
  | message
  | nothing
  -- A name that is not known. It hides nothing either, but asks for a record.
  | unknown
  deriving DecidableEq, Repr

namespace CarbonDetail

def ofName (name : Text) : CarbonDetail :=
  if name = "all" then all
  else if name = "call" then call
  else if name = "msg" then message
  else if name = "none" then nothing
  else unknown

def hidden : CarbonDetail → List Text
  | call => ["msg"]
  | message => ["call", "calls"]
  | _ => []

end CarbonDetail

/-- How an outcome is shown. The name of the address mode is looked up when there is a Carbon
transaction to show. -/
structure Detail where
  vm : VmDetail
  carbon : CarbonDetail
  addresses : Text
  deriving DecidableEq, Repr

def Detail.default : Detail := ⟨.all, .call, "bytes32"⟩

namespace Outcome

def hide (keys : List Text) : Json → Json
  | .obj members => .obj (members.filter fun m => m.1 ∉ keys)
  | v => v

def hideIn (key : Text) (keys : List Text) (members : List (Text × Json)) :
    List (Text × Json) :=
  members.map fun m => if m.1 = key then (m.1, hide keys m.2) else m

def reduce (vm : VmDetail) (carbon : CarbonDetail) (members : List (Text × Json)) :
    List (Text × Json) :=
  let members := hideIn "vm" vm.hidden members
  if carbon = .nothing then Json.without "carbon" members
  else hideIn "carbon" carbon.hidden members

def reduceVm (detail : VmDetail) : Json → Except Fault Json
  | .obj members => .ok (.obj (hideIn "vm" detail.hidden members))
  | _ => .error .notText

/-- Leaves out what the detail of a Carbon transaction hides. Any value can be shown in full; every
other detail, a name that is not known too, needs a record, and a list cannot lose a part. -/
def reduceCarbon (detail : CarbonDetail) (v : Json) : Except Fault Json :=
  match detail, v with
  | .all, _ => .ok v
  | .nothing, .obj members => .ok (.obj (Json.without "carbon" members))
  | .nothing, .arr _ => .error .wrongShape
  | _, .obj members => .ok (.obj (hideIn "carbon" detail.hidden members))
  | _, _ => .error .notText

def showKeys (addresses : Text) (members : List (Text × Json)) :
    Except Fault (List (Text × Json)) :=
  match Json.field? members "carbon" with
  | some (.obj record) => do
    let mode ← Carbon.AddressView.Mode.ofName addresses
    let shown ← Carbon.AddressView.apply mode (.obj record)
    pure (Json.put "carbon" shown members)
  | _ => .ok members

def shown (detail : Detail) (o : Outcome) : Except Fault (List (Text × Json)) := do
  let members ← o.members
  let members ← showKeys detail.addresses members
  pure (reduce detail.vm detail.carbon members)

end Outcome

end ChainDecode
