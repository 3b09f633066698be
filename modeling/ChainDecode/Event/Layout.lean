import ChainDecode.Address
import ChainDecode.Buffer
import ChainDecode.Number.Numeral

/-! # Event layouts

The data of an event is a row of fields. Kinds that hold the same fields share a layout.
-/
namespace ChainDecode.Event

inductive FieldType where
  -- A text behind its length; the empty text counts as absent.
  | text
  -- A signed number behind the byte that counts its bytes.
  | big
  | address
  | hash
  | key
  | bytes
  | time
  | auctionType
  | saleKind
  | restBytes
  -- All bytes left, as a signed number.
  | restNumber
  deriving DecidableEq, Repr

inductive FieldValue where
  | text (s : String)
  | number (n : Int)
  | address (a : Address)
  | bytes (data : List UInt8)
  | time (seconds : Nat)
  | auctionType (code : Nat)
  | saleKind (code : Nat)
  deriving DecidableEq, Repr

/-- The fields of an event in the order of its data. -/
structure Layout where
  fields : List (String × FieldType)
  -- Whether the first field is shown behind the others.
  firstLast : Bool
  deriving DecidableEq, Repr

def label : Text := "legacy event"

def readBytes : Read (List UInt8) := Buffer.byteArray label Buffer.varintMax

def readAddress : Read Address := do
  let data ← readBytes
  match Address.ofBytes data with
  | .ok a => pure a
  | .error _ => throw (.eventAddressSize data.length)

def readHash : Read (List UInt8) := do
  let data ← readBytes
  if data.length = 32 then pure data else throw (.eventHashSize data.length)

def readRestNumber : Read Int := do
  let n := Number.ofSignedBytes (← Read.rest)
  match Number.numeral n with
  | .ok _ => pure n
  | .error f => throw f

def FieldType.read : FieldType → Read FieldValue
  | .text => return .text (← Buffer.text label)
  | .big => return .number (← Buffer.bigInteger label)
  | .address => return .address (← readAddress)
  | .hash => return .bytes (← readHash)
  | .key => return .bytes (← Buffer.take label 32)
  | .bytes => return .bytes (← readBytes)
  | .time => return .time (← Buffer.timestamp label)
  | .auctionType => return .auctionType (← Buffer.varint label Buffer.varintMax)
  | .saleKind => return .saleKind (← Buffer.varint label Buffer.varintMax)
  | .restBytes => return .bytes (← Read.rest)
  | .restNumber => return .number (← readRestNumber)

def readFields : List (String × FieldType) → Read (List (String × FieldValue))
  | [] => pure []
  | (name, type) :: rest => do
    let v ← type.read
    let fields ← readFields rest
    pure ((name, v) :: fields)

def auctionTypes : List String := ["Fixed", "Classic", "Reserve", "Dutch"]

def saleKinds : List String :=
  ["Creation", "SoftCap", "HardCap", "AddedToWhitelist", "RemovedFromWhitelist", "Distribution",
    "Refund", "PriceChange", "Participation"]

/-- The members that show a field. What happens in a sale is shown by number and by name. -/
def FieldValue.members (name : String) : FieldValue → List (Text × Json)
  | .text s => [(name, if s.isEmpty then .null else .str s)]
  | .number n => [(name, .str (toString n))]
  | .address a => [(name, .str a.text)]
  | .bytes data => [(name, .str (Text.Hex.encode data))]
  | .time seconds => [(name, .nat seconds)]
  | .auctionType code => [(name, .str (auctionTypes.getD code s!"TypeAuction_{code}"))]
  | .saleKind code =>
    [("kind_id", .nat code), (name, .str (saleKinds.getD code s!"SaleEventKind_{code}"))]

namespace Layout

def inOrder (fields : List (String × FieldType)) : Layout := ⟨fields, false⟩

def toJson (l : Layout) (fields : List (String × FieldValue)) : Json :=
  let shown := if l.firstLast then fields.drop 1 ++ fields.take 1 else fields
  .obj (shown.flatMap fun f => f.2.members f.1)

def token : List (String × FieldType) := [("symbol", .text), ("value", .big), ("chain", .text)]

def market : Layout :=
  ⟨[("type", .auctionType), ("base_symbol", .text), ("quote_symbol", .text), ("id", .big),
    ("price", .big), ("end_price", .big)], true⟩

def table : List (List String × Layout) :=
  [(["TokenCreate"], inOrder [("symbol", .text)]),
    (["TokenSend", "TokenReceive", "TokenMint", "TokenBurn", "TokenStake", "TokenClaim",
      "Inflation", "CrownRewards"], inOrder token),
    (["GasEscrow", "GasPayment"],
      inOrder [("address", .address), ("price", .big), ("amount", .big)]),
    (["OrganizationCreate"], inOrder [("organization", .text)]),
    (["OrganizationAdd", "OrganizationRemove"],
      inOrder [("organization", .text), ("member", .address)]),
    (["ValueCreate", "ValueUpdate"], inOrder [("name", .text), ("value", .big)]),
    (["OrderCreated", "OrderCancelled", "OrderFilled", "OrderClosed", "OrderBid"], market),
    (["Infusion"],
      inOrder [("base_symbol", .text), ("token_id", .big), ("infused_symbol", .text),
        ("infused_value", .big), ("chain", .text)]),
    (["MasterClaim"], inOrder (token ++ [("claim_date", .time)])),
    (["ChainSwap"], inOrder [("hash", .hash), ("platform", .text), ("chain", .text)]),
    (["ChainCreate", "FeedCreate", "LeaderboardCreate", "LeaderboardReset", "PlatformCreate",
      "ContractDeploy", "ContractUpgrade", "DomainCreate", "DomainDelete", "ContractKill",
      "AddressRegister", "AddressUnregister"], inOrder [("name", .text)]),
    (["PollCreated", "PollClosed", "PollVote"], inOrder [("subject", .text)]),
    (["AddressLink", "AddressUnlink", "ValidatorPropose", "ValidatorElect", "ValidatorRemove",
      "AddressMigration"], inOrder [("address", .address)]),
    (["FileCreate"], inOrder [("hash", .hash)]),
    (["FileDelete", "OwnerAdded", "OwnerRemoved"], inOrder [("hash", .key)]),
    (["PackedNFT"], inOrder [("symbol", .text), ("rom_hex", .bytes), ("ram_hex", .bytes)]),
    (["Crowdsale"], inOrder [("sale_hash", .hash), ("kind", .saleKind)]),
    (["ChannelCreate"], inOrder [("data_hex", .restBytes)]),
    (["ChannelRefill", "ChannelSettle"], inOrder [("count", .big)]),
    (["LeaderboardInsert"], inOrder [("address", .address), ("score", .big)]),
    (["Log", "ExecutionFailure"], inOrder [("message", .text)]),
    (["TaskStart", "TaskStop"], inOrder [("value", .restNumber)])]

def ofKind? (name : String) : Option Layout := (table.find? fun e => name ∈ e.1).map (·.2)

end Layout

end ChainDecode.Event
