import ChainDecode.Event.Layout
import ChainDecode.Proofs.Rom.Tree

/-! # Events as they are encoded

What an event of each kind holds, how that is written and how it is shown. Kinds that hold the same
share one form. All of this is told apart from the layouts that are read.
-/
namespace ChainDecode.Event

open Buffer (Varint)
open Rom (Sized SizedText Signed)

structure SizedAddress where
  size : Varint
  address : Address
  exact : size.value = Address.size

/-- Thirty-two bytes. -/
structure Key where
  data : List UInt8
  exact : data.length = 32

structure SizedHash where
  size : Varint
  hash : Key
  exact : size.value = 32

structure Integer where
  width : Nat
  value : Int
  low : -(Number.wordSpan width : Int) ≤ 2 * value
  high : 2 * value < Number.wordSpan width
  short : value.natAbs < Nat.pow 10 Number.maxDigits

inductive Written where
  | text (s : SizedText)
  | big (n : Signed)
  | address (a : SizedAddress)
  | hash (h : SizedHash)
  | key (k : Key)
  | bytes (data : Sized)
  | time (seconds : UInt32)
  | auctionType (code : Varint)
  | saleKind (code : Varint)
  | restBytes (data : List UInt8)
  | restNumber (n : Integer)

namespace Written

def wire : Written → List UInt8
  | text s => s.wire
  | big n => n.wire
  | address a => a.size.wire ++ a.address.bytes
  | hash h => h.size.wire ++ h.hash.data
  | key k => k.data
  | bytes data => data.wire
  | time seconds => Number.toBytes 4 seconds.toNat
  | auctionType code => code.wire
  | saleKind code => code.wire
  | restBytes data => data
  | restNumber n => Number.toSignedBytes n.width n.value

/-- Whether the value takes all bytes that are left. -/
def isOpen : Written → Bool
  | restBytes _ => true
  | restNumber _ => true
  | _ => false

end Written

/-- What an event holds. -/
inductive Content where
  | tokenCreate (symbol : SizedText)
  | token (symbol : SizedText) (value : Signed) (chain : SizedText)
  | gas (address : SizedAddress) (price amount : Signed)
  | organization (name : SizedText)
  | membership (name : SizedText) (member : SizedAddress)
  | setting (name : SizedText) (value : Signed)
  | auction (base quote : SizedText) (id price endPrice : Signed) (type : Varint)
  | infusion (base : SizedText) (id : Signed) (infused : SizedText) (value : Signed)
    (chain : SizedText)
  | masterClaim (symbol : SizedText) (value : Signed) (chain : SizedText) (date : UInt32)
  | chainSwap (hash : SizedHash) (platform chain : SizedText)
  | naming (name : SizedText)
  | poll (subject : SizedText)
  | account (address : SizedAddress)
  | file (hash : SizedHash)
  | owner (hash : Key)
  | packed (symbol : SizedText) (rom ram : Sized)
  | sale (hash : SizedHash) (kind : Varint)
  | channel (data : List UInt8)
  | refill (count : Signed)
  | score (address : SizedAddress) (points : Signed)
  | message (words : SizedText)
  | task (value : Integer)

namespace Content

def kinds : Content → List String
  | tokenCreate .. => ["TokenCreate"]
  | token .. =>
    ["TokenSend", "TokenReceive", "TokenMint", "TokenBurn", "TokenStake", "TokenClaim",
      "Inflation", "CrownRewards"]
  | gas .. => ["GasEscrow", "GasPayment"]
  | organization .. => ["OrganizationCreate"]
  | membership .. => ["OrganizationAdd", "OrganizationRemove"]
  | setting .. => ["ValueCreate", "ValueUpdate"]
  | auction .. => ["OrderCreated", "OrderCancelled", "OrderFilled", "OrderClosed", "OrderBid"]
  | infusion .. => ["Infusion"]
  | masterClaim .. => ["MasterClaim"]
  | chainSwap .. => ["ChainSwap"]
  | naming .. =>
    ["ChainCreate", "FeedCreate", "LeaderboardCreate", "LeaderboardReset", "PlatformCreate",
      "ContractDeploy", "ContractUpgrade", "DomainCreate", "DomainDelete", "ContractKill",
      "AddressRegister", "AddressUnregister"]
  | poll .. => ["PollCreated", "PollClosed", "PollVote"]
  | account .. =>
    ["AddressLink", "AddressUnlink", "ValidatorPropose", "ValidatorElect", "ValidatorRemove",
      "AddressMigration"]
  | file .. => ["FileCreate"]
  | owner .. => ["FileDelete", "OwnerAdded", "OwnerRemoved"]
  | packed .. => ["PackedNFT"]
  | sale .. => ["Crowdsale"]
  | channel .. => ["ChannelCreate"]
  | refill .. => ["ChannelRefill", "ChannelSettle"]
  | score .. => ["LeaderboardInsert"]
  | message .. => ["Log", "ExecutionFailure"]
  | task .. => ["TaskStart", "TaskStop"]

/-- The values in the order in which they are written. The type of an auction comes first. -/
def fields : Content → List Written
  | tokenCreate symbol => [.text symbol]
  | token symbol value chain => [.text symbol, .big value, .text chain]
  | gas address price amount => [.address address, .big price, .big amount]
  | organization name => [.text name]
  | membership name member => [.text name, .address member]
  | setting name value => [.text name, .big value]
  | auction base quote id price endPrice type =>
    [.auctionType type, .text base, .text quote, .big id, .big price, .big endPrice]
  | infusion base id infused value chain =>
    [.text base, .big id, .text infused, .big value, .text chain]
  | masterClaim symbol value chain date => [.text symbol, .big value, .text chain, .time date]
  | chainSwap hash platform chain => [.hash hash, .text platform, .text chain]
  | naming name => [.text name]
  | poll subject => [.text subject]
  | account address => [.address address]
  | file hash => [.hash hash]
  | owner hash => [.key hash]
  | packed symbol rom ram => [.text symbol, .bytes rom, .bytes ram]
  | sale hash kind => [.hash hash, .saleKind kind]
  | channel data => [.restBytes data]
  | refill count => [.big count]
  | score address points => [.address address, .big points]
  | message words => [.text words]
  | task value => [.restNumber value]

def wire (c : Content) : List UInt8 := c.fields.flatMap Written.wire

def isOpen (c : Content) : Bool := c.fields.any Written.isOpen

def textShown (s : SizedText) : Json := if s.text.isEmpty then .null else .str s.text

def numberShown (n : Signed) : Json := .str (toString n.value)

def addressShown (a : SizedAddress) : Json := .str a.address.text

def hexShown (data : List UInt8) : Json := .str (Text.Hex.encode data)

def auctionName : Nat → String
  | 0 => "Fixed"
  | 1 => "Classic"
  | 2 => "Reserve"
  | 3 => "Dutch"
  | n => s!"TypeAuction_{n}"

def saleName : Nat → String
  | 0 => "Creation"
  | 1 => "SoftCap"
  | 2 => "HardCap"
  | 3 => "AddedToWhitelist"
  | 4 => "RemovedFromWhitelist"
  | 5 => "Distribution"
  | 6 => "Refund"
  | 7 => "PriceChange"
  | 8 => "Participation"
  | n => s!"SaleEventKind_{n}"

/-- The values by their names. The type of an auction comes last. -/
def shown : Content → List (Text × Json)
  | tokenCreate symbol => [("symbol", textShown symbol)]
  | token symbol value chain =>
    [("symbol", textShown symbol), ("value", numberShown value), ("chain", textShown chain)]
  | gas address price amount =>
    [("address", addressShown address), ("price", numberShown price),
      ("amount", numberShown amount)]
  | organization name => [("organization", textShown name)]
  | membership name member =>
    [("organization", textShown name), ("member", addressShown member)]
  | setting name value => [("name", textShown name), ("value", numberShown value)]
  | auction base quote id price endPrice type =>
    [("base_symbol", textShown base), ("quote_symbol", textShown quote), ("id", numberShown id),
      ("price", numberShown price), ("end_price", numberShown endPrice),
      ("type", .str (auctionName type.value))]
  | infusion base id infused value chain =>
    [("base_symbol", textShown base), ("token_id", numberShown id),
      ("infused_symbol", textShown infused), ("infused_value", numberShown value),
      ("chain", textShown chain)]
  | masterClaim symbol value chain date =>
    [("symbol", textShown symbol), ("value", numberShown value), ("chain", textShown chain),
      ("claim_date", .nat date.toNat)]
  | chainSwap hash platform chain =>
    [("hash", hexShown hash.hash.data), ("platform", textShown platform),
      ("chain", textShown chain)]
  | naming name => [("name", textShown name)]
  | poll subject => [("subject", textShown subject)]
  | account address => [("address", addressShown address)]
  | file hash => [("hash", hexShown hash.hash.data)]
  | owner hash => [("hash", hexShown hash.data)]
  | packed symbol rom ram =>
    [("symbol", textShown symbol), ("rom_hex", hexShown rom.data), ("ram_hex", hexShown ram.data)]
  | sale hash kind =>
    [("sale_hash", hexShown hash.hash.data), ("kind_id", .nat kind.value),
      ("kind", .str (saleName kind.value))]
  | channel data => [("data_hex", hexShown data)]
  | refill count => [("count", numberShown count)]
  | score address points => [("address", addressShown address), ("score", numberShown points)]
  | message words => [("message", textShown words)]
  | task value => [("value", .str (toString value.value))]

end Content

end ChainDecode.Event
