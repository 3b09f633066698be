import ChainDecode.Node.Session
import ChainDecode.Number.Numeral

/-! # Transaction records

What a node tells about a transaction. Members may be absent or of another type than expected;
texts and numbers are taken from any value that has them.
-/
namespace ChainDecode.Node

structure Record where
  hash : Text
  chain : Text
  script : Text
  payload : Text
  expiration : Int
  gasPayer : Option Json
  gasLimit : Option Text
  carbonType : Int
  carbonData : Text
  signatures : List Json
  deriving Repr

def textMember (members : List (Text × Json)) (key : Text) : Except Fault Text :=
  match (Json.field? members key).bind Json.present? with
  | none => .ok ""
  | some v => v.shown

/-- The integer in a value: numbers are cut to their integer part, texts are numerals. -/
def integerOf : Json → Except Fault Int
  | .int n => .ok n
  | .bool b => .ok (if b then 1 else 0)
  | .str s => Number.ofNumeral s
  | .real x =>
    match x.form with
    | .notANumber => .error .notANumber
    | .infinite _ => .error .infinite
    | .finite negative mantissa exponent =>
      let n : Int := Number.Binary64.integerPart mantissa exponent
      .ok (if negative then -n else n)
  | _ => .error .wrongShape

def integerMember (members : List (Text × Json)) (key : Text) : Except Fault Int :=
  match (Json.field? members key).bind Json.present? with
  | none => .ok 0
  | some v => integerOf v

/-- The gas limit, unless it is null or an empty text; zero is a limit. -/
def gasLimitOf : Option Json → Except Fault (Option Text)
  | none | some .null => .ok none
  | some v => if v.text? = some "" then .ok none else some <$> v.shown

def elementsMember (members : List (Text × Json)) (key : Text) : Except Fault (List Json) :=
  match (Json.field? members key).bind Json.present? with
  | none => .ok []
  | some v => v.elements

namespace Record

def ofJson : Json → Except Fault Record
  | .obj members => do
    let hash ← textMember members "hash"
    let chain ← textMember members "chainAddress"
    let script ← textMember members "script"
    let payload ← textMember members "payload"
    let expiration ← integerMember members "expiration"
    let gasLimit ← gasLimitOf (Json.field? members "gasLimit")
    let carbonType ← integerMember members "carbonTxType"
    let carbonData ← textMember members "carbonTxData"
    let signatures ← elementsMember members "signatures"
    pure
      { hash := hash
        chain := chain
        script := script
        payload := payload
        expiration := expiration
        gasPayer := (Json.field? members "gasPayer").bind Json.present?
        gasLimit := gasLimit
        carbonType := carbonType
        carbonData := carbonData
        signatures := signatures }
  | _ => .error .notText

def toJson (r : Record) : Json :=
  .obj [("hash", .str r.hash), ("chain_address", .str r.chain), ("script", .str r.script),
    ("payload", .str r.payload), ("expiration", .int r.expiration),
    ("gas_payer", r.gasPayer.getD .null), ("gas_limit", (r.gasLimit.map .str).getD .null),
    ("carbon_tx_type", .int r.carbonType), ("carbon_tx_data", .str r.carbonData),
    ("signatures", .arr r.signatures)]

end Record

def transactionMethod : String := "getTransaction"

def transaction (hash : Json) : Talk Record := do
  let result ← call transactionMethod [hash]
  if result.isObject then
    match Record.ofJson result with
    | .ok record => pure record
    | .error f => throw f
  else throw (.transactionMissing hash.display)

end ChainDecode.Node
