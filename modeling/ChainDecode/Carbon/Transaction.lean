import ChainDecode.Address
import ChainDecode.Carbon.Call
import ChainDecode.Carbon.TxType
import ChainDecode.Json.Access
import ChainDecode.Json.Literal

/-! # Carbon transactions

A signed transaction is an envelope, a message and witnesses. A node may also report the message
alone, with the envelope's fields beside it. Both ways lead to the same record.
-/
namespace ChainDecode.Carbon

inductive Message where
  | call (c : RawCall)
  | calls (items : List RawCall)
  | fields (v : Value)
  deriving Repr

namespace Message

def read (type : TxType) : Read Message :=
  match type.layout? with
  | some layout => return .fields (← layout.read)
  | none =>
    if type = .call then return .call (← RawCall.read) else return .calls (← RawCall.readMany)

def readOf (code : Json) : Read Message :=
  match TxType.ofJson code with
  | .ok type => read type
  | .error f => throw f

def toValue : Message → Value
  | call c => c.toValue
  | calls items => .record [("calls", .list (items.map RawCall.toValue))]
  | fields v => v

end Message

def Message.inner? : Message → Option (List UInt8)
  | fields (.record [("transaction", .bytes data)]) => some data
  | _ => none

inductive Calls where
  | none
  | one (c : Call)
  | many (items : List Call)
  deriving Repr

def Message.decodeCalls : Message → Calls × List Text
  | .call c => ((.one (decodeCall 0 c).1), (decodeCall 0 c).2)
  | .calls items => ((.many (Carbon.decodeCalls items).1), (Carbon.decodeCalls items).2)
  | .fields _ => (.none, [])

structure Witness where
  address : List UInt8
  signature : List UInt8
  deriving DecidableEq, Repr

/-- Who signed: unknown, the witnesses of an envelope, or whatever a node reports. -/
inductive Witnesses where
  | unknown
  | signed (items : List Witness)
  | reported (items : List Json)
  deriving Repr

structure Envelope where
  type : Nat
  expiry : Int
  maxGas : Nat
  maxData : Nat
  gasFrom : List UInt8
  payload : String
  message : Message
  witnesses : List Witness
  deriving Repr

namespace Envelope

def readWitness : Read Witness := do
  let address ← Stream.take 32
  let signature ← Stream.take 64
  pure ⟨address, signature⟩

def readWitnesses : Read (List Witness) := do
  let n ← Stream.count
  times readWitness n

def read : Read Envelope := do
  let type ← Stream.word 1
  let expiry ← Stream.signed 8
  let maxGas ← Stream.word 8
  let maxData ← Stream.word 8
  let gasFrom ← Stream.take 32
  let payload ← Stream.smallText
  let message ← Message.readOf (.nat type)
  let witnesses ← readWitnesses
  pure ⟨type, expiry, maxGas, maxData, gasFrom, payload, message, witnesses⟩

end Envelope

/-- A transaction as output shows it. -/
structure Transaction where
  type : Json
  expiry : Text
  maxGas : Json
  maxData : String
  gasFrom : Text
  payload : String
  message : Message
  witnesses : Witnesses
  calls : Calls
  deriving Repr

def Witness.toJson (w : Witness) : Json :=
  .obj [("address", .str (Text.Hex.encode w.address)),
    ("signature", .str (Text.Hex.encode w.signature))]

def Witnesses.fields : Witnesses → List (Text × Json)
  | unknown => []
  | signed items => [("witnesses", .arr (items.map Witness.toJson))]
  | reported items => [("witnesses", .arr items)]

def Calls.fields : Calls → List (Text × Json)
  | none => []
  | one c => [("call", c.toValue.toJson)]
  | many items => [("calls", .arr (items.map fun c => c.toValue.toJson))]

namespace Transaction

def toJson (t : Transaction) : Json :=
  let head : List (Text × Json) :=
    [("type", t.type), ("type_name", .str (TxType.nameOf t.type)), ("expiry", .str t.expiry),
      ("max_gas", t.maxGas), ("max_data", .str t.maxData), ("gas_from", .str t.gasFrom),
      ("payload", .str t.payload), ("msg", t.message.toValue.toJson)]
  .obj (head ++ t.witnesses.fields ++ t.calls.fields)

def ofEnvelope (e : Envelope) : Transaction × List Text :=
  let (calls, warnings) := e.message.decodeCalls
  (⟨.nat e.type, toString e.expiry, .str (toString e.maxGas), toString e.maxData,
    Text.Hex.encode e.gasFrom, e.payload, e.message, .signed e.witnesses, calls⟩, warnings)

def trailing (c : Cursor) : List Text :=
  if c.atEnd then [] else [s!"Carbon decode left {c.remaining} trailing bytes"]

def decode (bytes : List UInt8) : Except Fault (Transaction × List Text) := do
  let (envelope, cursor) ← Envelope.read.onBytes bytes
  let (t, warnings) := ofEnvelope envelope
  pure (t, trailing cursor ++ warnings)

end Transaction

/-- What a node reports beside a bare message. Fields are null when they are not reported, and are
not always of the type that they should have. -/
structure Report where
  gasPayer : Json
  gasLimit : Json
  expiration : Json
  payload : Json
  signatures : Json
  deriving Repr

namespace Report

def empty : Report := ⟨.null, .null, .null, .null, .null⟩

def expiry (r : Report) : Except Fault Text := ((r.expiration.present?).getD (.int 0)).shown

def maxGas (r : Report) : Json := (r.gasLimit.present?).getD (.str "0")

/-- The key of the gas payer in hexadecimal; an address without one is kept with a warning. -/
def gasFrom (r : Report) : Except Fault (Text × List Text) :=
  match r.gasPayer.present? with
  | none => .ok ("", [])
  | some (.str text) =>
    match Address.keyOfText text with
    | .ok key => .ok (Text.Hex.encode key, [])
    | .error f => .ok (text, ["Failed to derive gasFrom from gasPayer: " ++ f.message])
  | some _ => .error .notText

def payloadText (r : Report) : Except Fault String :=
  match r.payload.present? with
  | none => .ok ""
  | some (.str hex) => Text.Utf8.decode <$> Text.Hex.decode hex
  | some _ => .error .notText

def witnesses (r : Report) : Except Fault Witnesses :=
  match r.signatures with
  | .null => .ok .unknown
  | v => Witnesses.reported <$> v.elements

end Report

def Transaction.decodeMessage (code : Json) (bytes : List UInt8) (r : Report) :
    Except Fault (Transaction × List Text) := do
  let (message, cursor) ← (Message.readOf code).onBytes bytes
  let expiry ← r.expiry
  let (gasFrom, gasWarnings) ← r.gasFrom
  let payload ← r.payloadText
  let witnesses ← r.witnesses
  let (calls, warnings) := message.decodeCalls
  pure (⟨code, expiry, r.maxGas, "0", gasFrom, payload, message, witnesses, calls⟩,
    trailing cursor ++ gasWarnings ++ warnings)

end ChainDecode.Carbon
