import ChainDecode.Number.Calendar
import ChainDecode.Number.Numeral
import ChainDecode.Rom.Node
import ChainDecode.Text.Case

/-! # Token data

Data of a token is a tree, or the fixed record of a CROWN token. A forced parser stands alone; the
automatic choice goes by the token's symbol and tries the other parser when the first fails.
-/
namespace ChainDecode.Rom

structure Hints where
  symbol : Option Text
  tokenId : Option Text
  deriving DecidableEq, Repr

structure Crown where
  staker : List UInt8
  timestamp : Nat
  timestampText : String
  deriving DecidableEq, Repr

inductive Content where
  | tree (root : Node)
  | crown (record : Crown)
  deriving Repr

structure Decoded where
  data : List UInt8
  hints : Hints
  name : Option Text
  description : Option Text
  created : Option (Nat × String)
  content : Content
  deriving Repr

namespace Crown

def stakerText? (c : Crown) : Option String :=
  match Address.ofBytes c.staker with
  | .ok a => some a.text
  | .error _ => none

def toJson (c : Crown) : Json :=
  .obj (Json.member "address_length" (.nat c.staker.length) ++
    Json.member "staker_address_hex" (.str (Text.Hex.encode c.staker)) ++
    Json.member? "staker_address" (c.stakerText?.map fun text => .str text) ++
    Json.member "timestamp_unix" (.nat c.timestamp) ++
    Json.member "timestamp_iso" (.str c.timestampText))

end Crown

namespace Content

def parserName : Content → String
  | tree _ => "legacy-vm-dictionary"
  | crown _ => "crown"

def fieldMembers : Content → List (Text × Json)
  | tree root => Json.member? "fields" (root.fields?.map .obj)
  | crown _ => []

def members : Content → List (Text × Json)
  | tree root => [("vm", .obj [("root", root.toJson)])]
  | crown record => [("crown", record.toJson)]

end Content

def Decoded.toJson (d : Decoded) : Json :=
  .obj (Json.member "parser" (.str d.content.parserName) ++
    Json.member "raw_hex" (.str (Text.Hex.encode d.data)) ++
    Json.member? "symbol" (d.hints.symbol.map .str) ++
    Json.member? "token_id" (d.hints.tokenId.map .str) ++
    Json.member? "name" (d.name.map .str) ++
    Json.member? "description" (d.description.map .str) ++
    Json.member? "created_unix" (d.created.map fun c => .nat c.1) ++
    Json.member? "created_iso" (d.created.map fun c => .str c.2) ++
    d.content.fieldMembers ++ d.content.members)

def treeLabel : Text := "ROM"

def crownLabel : Text := "CROWN ROM"

/-- The time of creation that a record's fields tell: a number, or a text of digits only. -/
def createdOf (fields : List (Text × Json)) : Except Fault (Option Nat) :=
  match Json.field? fields "created" with
  | some (.int n) => .ok (if 0 ≤ n then some n.toNat else none)
  | some (.str s) =>
    if Text.isDigits s then (Number.ofNumeral s).map fun n => some n.toNat else .ok none
  | _ => .ok none

def textField (fields : List (Text × Json)) (key : Text) : Option Text :=
  (Json.field? fields key).bind Json.text?

def decodeTree (data : List UInt8) (hints : Hints) : Except Fault (Decoded × List Text) := do
  let (root, cursor) ← (Node.read treeLabel (Node.levelsFrom 0)).onBytes data
  if root.type ≠ .struct then throw (.rootType root.type.name)
  let warnings : List Text :=
    if cursor.atEnd then [] else [s!"legacy ROM has {cursor.remaining} trailing bytes"]
  let fields := root.fields?.getD []
  let created ← createdOf fields
  let created ← match created with
    | none => pure none
    | some unix => do
      let iso ← Number.isoTime unix
      pure (some (unix, iso))
  pure (⟨data, hints, textField fields "name", textField fields "description", created,
    .tree root⟩, warnings)

def stakerMax : Int := 2048

def readCrown : Read (List UInt8 × Nat) := do
  let length ← Buffer.varint crownLabel stakerMax
  let staker ← Buffer.take crownLabel length
  let timestamp ← Buffer.timestamp crownLabel
  pure (staker, timestamp)

def decodeCrown (data : List UInt8) (hints : Hints) : Except Fault (Decoded × List Text) := do
  let ((staker, timestamp), cursor) ← readCrown.onBytes data
  let trailing : List Text :=
    if cursor.atEnd then [] else [s!"CROWN ROM has {cursor.remaining} trailing bytes"]
  let iso ← Number.isoTime timestamp
  let size : List Text := if staker.length = Address.size then []
    else [s!"CROWN staker address length is {staker.length}, expected {Address.size}"]
  let name := (hints.tokenId.filter (!·.isEmpty)).map fun (id : Text) => "CROWN #" ++ id
  pure (⟨data, hints, name, some "", some (timestamp, iso), .crown ⟨staker, timestamp, iso⟩⟩,
    trailing ++ size)

inductive Parser where
  | tree
  | crown
  deriving DecidableEq, Repr

namespace Parser

def name : Parser → String
  | tree => "legacy"
  | crown => "crown"

def other : Parser → Parser
  | tree => crown
  | crown => tree

def decode : Parser → List UInt8 → Hints → Except Fault (Decoded × List Text)
  | tree => decodeTree
  | crown => decodeCrown

def ofSymbol (symbol : Option Text) : Parser :=
  if Text.upper (Text.strip (symbol.getD "")) = "CROWN" then crown else tree

end Parser

inductive Mode where
  | auto
  | forced (parser : Parser)
  deriving DecidableEq, Repr

namespace Mode

def name : Mode → String
  | auto => "auto"
  | forced parser => parser.name

def ofText (text : Text) : Except Fault Mode :=
  let value := Text.lower (Text.strip text)
  if value = "auto" then .ok auto
  else if value = "legacy" || value = "common" then .ok (forced .tree)
  else if value = "crown" then .ok (forced .crown)
  else .error (.romMode text)

def primary (mode : Mode) (symbol : Option Text) : Parser :=
  match mode with
  | auto => .ofSymbol symbol
  | forced parser => parser

end Mode

/-- Hints without blanks around them; blank hints are dropped, and symbols are in capitals. -/
def Hints.normal (h : Hints) : Hints :=
  ⟨(h.symbol.map Text.strip).filter (!·.isEmpty) |>.map Text.upper,
    (h.tokenId.map Text.strip).filter (!·.isEmpty)⟩

/-- Decodes data with the other parser after the first has failed. -/
def decodeFallback (first : Parser) (cause : Fault) (data : List UInt8) (hints : Hints) :
    Except Fault (Decoded × List Text) := do
  let (decoded, warnings) ← first.other.decode data hints
  let note := s!"auto parser fallback: {first.name} failed (" ++ cause.message ++ "); " ++
    s!"{first.other.name} succeeded"
  pure (decoded, note :: warnings)

def decode (data : List UInt8) (mode : Mode) (hints : Hints) :
    Except Fault (Decoded × List Text) :=
  let hints := hints.normal
  let first := mode.primary hints.symbol
  match first.decode data hints with
  | .ok result => .ok result
  | .error f =>
    if !f.isDecode then .error f
    else
      match mode with
      | .forced _ => .error (.romParser first.name f)
      | .auto => decodeFallback first f data hints

end ChainDecode.Rom
