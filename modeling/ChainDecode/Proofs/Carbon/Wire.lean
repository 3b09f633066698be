import ChainDecode.Carbon.Transaction
import ChainDecode.Proofs.Reading

/-! # The wire form of Carbon transactions

What a signed transaction consists of, how it is written and how it has to be shown. Both sides are
given field by field and do not refer to the layouts that the decoder is driven by. Sizes that the
framing cannot hold are excluded by the types, so everything here can be written.
-/
namespace ChainDecode.Carbon.Wire

structure Fixed (size : Nat) where
  bytes : List UInt8
  length : bytes.length = size

abbrev Key := Fixed 32

structure Blob where
  bytes : List UInt8
  short : Reads.IsCount bytes.length

structure Counted (α : Type) where
  items : List α
  short : Reads.IsCount items.length

structure ShortText where
  text : String
  short : (Text.Utf8.encode text).length < 256

/-- A number in sign and magnitude. The same number has several forms. -/
structure Signed where
  negative : Bool
  magnitude : List UInt8
  short : magnitude.length < 128

def Signed.value (n : Signed) : Int :=
  if n.negative then -(Number.ofBytes n.magnitude : Int) else Number.ofBytes n.magnitude

def count (n : Nat) : List UInt8 := Number.toSignedBytes 4 n
def u32 (n : UInt32) : List UInt8 := Number.toBytes 4 n.toNat
def u64 (n : UInt64) : List UInt8 := Number.toBytes 8 n.toNat
def i32 (n : Int32) : List UInt8 := Number.toSignedBytes 4 n.toInt
def i64 (n : Int64) : List UInt8 := Number.toSignedBytes 8 n.toInt

def Blob.wire (b : Blob) : List UInt8 := count b.bytes.length ++ b.bytes

def ShortText.wire (s : ShortText) : List UInt8 :=
  Number.toBytes 1 (Text.Utf8.encode s.text).length ++ Text.Utf8.encode s.text

/-- The highest bit of the first byte is the sign, the others count the magnitude's bytes. -/
def Signed.wire (n : Signed) : List UInt8 :=
  Number.toBytes 1 (n.magnitude.length + if n.negative then 128 else 0) ++ n.magnitude

def Counted.wire {α : Type} (item : α → List UInt8) (c : Counted α) : List UInt8 :=
  count c.items.length ++ c.items.flatMap item

/-- Wide numbers are shown as decimal texts. -/
def decimal (n : Int) : Json := .str (toString n)

def hex (bytes : List UInt8) : Json := .str (Text.Hex.encode bytes)

def Counted.shown {α : Type} (item : α → Json) (c : Counted α) : Json := .arr (c.items.map item)

structure FungibleTransfer where
  receiver : Key
  token : UInt64
  amount : UInt64

structure NftTransfer where
  receiver : Key
  token : UInt64
  instanceId : UInt64

structure NftTransfers where
  receiver : Key
  token : UInt64
  instances : Counted UInt64

structure FungibleMint where
  token : UInt64
  receiver : Key
  amount : Signed

structure FungibleBurn where
  token : UInt64
  amount : Signed

structure NftMint where
  token : UInt64
  receiver : Key
  series : UInt32
  rom : Blob
  ram : Blob

structure NftBurn where
  token : UInt64
  instances : Counted UInt64

structure Paid (α : Type) where
  payer : Key
  message : α

structure Trade where
  transfers : Counted (Paid FungibleTransfer)
  nftTransfers : Counted (Paid NftTransfers)
  mints : Counted FungibleMint
  burns : Counted (Paid FungibleBurn)
  nftMints : Counted NftMint
  nftBurns : Counted (Paid NftBurn)

structure Script where
  nexus : ShortText
  chain : ShortText
  script : Blob

/-- A section of a call. One with a negative offset has no bytes. -/
structure Section where
  offset : Int32
  args : Blob
  bare : offset.toInt < 0 → args.bytes = []

inductive CallContent where
  | plain (args : Blob)
  | sections (items : List Section) (some : 1 ≤ items.length) (most : items.length ≤ 0x80000000)

structure Call where
  module : UInt32
  method : UInt32
  content : CallContent

inductive Message where
  | call (c : Call)
  | calls (items : Counted Call)
  | trade (t : Trade)
  | transferFungible (m : FungibleTransfer)
  | transferFungibleGasPayer (m : Paid FungibleTransfer)
  | transferNftSingle (m : NftTransfer)
  | transferNftSingleGasPayer (m : Paid NftTransfer)
  | transferNftMulti (m : NftTransfers)
  | transferNftMultiGasPayer (m : Paid NftTransfers)
  | mintFungible (m : FungibleMint)
  | burnFungible (m : FungibleBurn)
  | burnFungibleGasPayer (m : Paid FungibleBurn)
  | mintNft (m : NftMint)
  | burnNft (m : NftBurn)
  | burnNftGasPayer (m : Paid NftBurn)
  | phantasma (m : Script)
  | phantasmaRaw (transaction : Blob)

structure Witness where
  address : Key
  signature : Fixed 64

structure Envelope where
  expiry : Int64
  maxGas : UInt64
  maxData : UInt64
  gasFrom : Key
  payload : ShortText
  message : Message
  witnesses : Counted Witness

def payerBytes (payer : Option Key) : List UInt8 := (payer.map Fixed.bytes).getD []

def FungibleTransfer.wire (payer : Option Key) (m : FungibleTransfer) : List UInt8 :=
  m.receiver.bytes ++ payerBytes payer ++ u64 m.token ++ u64 m.amount

def NftTransfer.wire (payer : Option Key) (m : NftTransfer) : List UInt8 :=
  m.receiver.bytes ++ payerBytes payer ++ u64 m.token ++ u64 m.instanceId

def NftTransfers.wire (payer : Option Key) (m : NftTransfers) : List UInt8 :=
  m.receiver.bytes ++ payerBytes payer ++ u64 m.token ++ m.instances.wire u64

def FungibleMint.wire (m : FungibleMint) : List UInt8 :=
  u64 m.token ++ m.receiver.bytes ++ m.amount.wire

def FungibleBurn.wire (payer : Option Key) (m : FungibleBurn) : List UInt8 :=
  u64 m.token ++ payerBytes payer ++ m.amount.wire

def NftMint.wire (m : NftMint) : List UInt8 :=
  u64 m.token ++ m.receiver.bytes ++ u32 m.series ++ m.rom.wire ++ m.ram.wire

def NftBurn.wire (payer : Option Key) (m : NftBurn) : List UInt8 :=
  u64 m.token ++ payerBytes payer ++ m.instances.wire u64

def Paid.wire {α : Type} (message : Option Key → α → List UInt8) (m : Paid α) : List UInt8 :=
  message (some m.payer) m.message

def Trade.wire (t : Trade) : List UInt8 :=
  t.transfers.wire (Paid.wire FungibleTransfer.wire) ++
    t.nftTransfers.wire (Paid.wire NftTransfers.wire) ++ t.mints.wire FungibleMint.wire ++
    t.burns.wire (Paid.wire FungibleBurn.wire) ++ t.nftMints.wire NftMint.wire ++
    t.nftBurns.wire (Paid.wire NftBurn.wire)

def Script.wire (m : Script) : List UInt8 := m.nexus.wire ++ m.chain.wire ++ m.script.wire

def Section.wire (s : Section) : List UInt8 :=
  i32 s.offset ++ if 0 ≤ s.offset.toInt then s.args.wire else []

/-- A length announces plain arguments, a negative one sections. -/
def CallContent.wire : CallContent → List UInt8
  | plain args => args.wire
  | sections items _ _ =>
    Number.toSignedBytes 4 (-(items.length : Int)) ++ items.flatMap Section.wire

def Call.wire (c : Call) : List UInt8 := u32 c.module ++ u32 c.method ++ c.content.wire

def Message.wire : Message → List UInt8
  | call c => c.wire
  | calls items => items.wire Call.wire
  | trade t => t.wire
  | transferFungible m => m.wire none
  | transferFungibleGasPayer m => m.wire FungibleTransfer.wire
  | transferNftSingle m => m.wire none
  | transferNftSingleGasPayer m => m.wire NftTransfer.wire
  | transferNftMulti m => m.wire none
  | transferNftMultiGasPayer m => m.wire NftTransfers.wire
  | mintFungible m => m.wire
  | burnFungible m => m.wire none
  | burnFungibleGasPayer m => m.wire FungibleBurn.wire
  | mintNft m => m.wire
  | burnNft m => m.wire none
  | burnNftGasPayer m => m.wire NftBurn.wire
  | phantasma m => m.wire
  | phantasmaRaw transaction => transaction.wire

/-- The number of the type that a message belongs to, and its name. -/
def Message.type : Message → Nat × String
  | call _ => (0, "Call")
  | calls _ => (1, "Call_Multi")
  | trade _ => (2, "Trade")
  | transferFungible _ => (3, "TransferFungible")
  | transferFungibleGasPayer _ => (4, "TransferFungible_GasPayer")
  | transferNftSingle _ => (5, "TransferNonFungible_Single")
  | transferNftSingleGasPayer _ => (6, "TransferNonFungible_Single_GasPayer")
  | transferNftMulti _ => (7, "TransferNonFungible_Multi")
  | transferNftMultiGasPayer _ => (8, "TransferNonFungible_Multi_GasPayer")
  | mintFungible _ => (9, "MintFungible")
  | burnFungible _ => (10, "BurnFungible")
  | burnFungibleGasPayer _ => (11, "BurnFungible_GasPayer")
  | mintNft _ => (12, "MintNonFungible")
  | burnNft _ => (13, "BurnNonFungible")
  | burnNftGasPayer _ => (14, "BurnNonFungible_GasPayer")
  | phantasma _ => (15, "Phantasma")
  | phantasmaRaw _ => (16, "Phantasma_Raw")

def Witness.wire (w : Witness) : List UInt8 := w.address.bytes ++ w.signature.bytes

def Envelope.wire (e : Envelope) : List UInt8 :=
  Number.toBytes 1 e.message.type.1 ++ i64 e.expiry ++ u64 e.maxGas ++ u64 e.maxData ++
    e.gasFrom.bytes ++ e.payload.wire ++ e.message.wire ++ e.witnesses.wire Witness.wire

/-- The payer is shown behind whatever the message begins with, if there is one. -/
def withPayer (front : List (Text × Json)) (payer : Option Key) (back : List (Text × Json)) :
    Json :=
  .obj (front ++ Json.member? "from" (payer.map fun k => hex k.bytes) ++ back)

def FungibleTransfer.shown (payer : Option Key) (m : FungibleTransfer) : Json :=
  withPayer [("to", hex m.receiver.bytes)] payer
    [("token_id", decimal m.token.toNat), ("amount", decimal m.amount.toNat)]

def NftTransfer.shown (payer : Option Key) (m : NftTransfer) : Json :=
  withPayer [("to", hex m.receiver.bytes)] payer
    [("token_id", decimal m.token.toNat), ("instance_id", decimal m.instanceId.toNat)]

def instancesShown (instances : Counted UInt64) : Json :=
  instances.shown fun n => decimal n.toNat

def NftTransfers.shown (payer : Option Key) (m : NftTransfers) : Json :=
  withPayer [("to", hex m.receiver.bytes)] payer
    [("token_id", decimal m.token.toNat), ("instance_ids", instancesShown m.instances)]

def FungibleMint.shown (m : FungibleMint) : Json :=
  .obj [("token_id", decimal m.token.toNat), ("to", hex m.receiver.bytes),
    ("amount", decimal m.amount.value)]

def FungibleBurn.shown (payer : Option Key) (m : FungibleBurn) : Json :=
  withPayer [("token_id", decimal m.token.toNat)] payer
    [("amount", decimal m.amount.value)]

def NftMint.shown (m : NftMint) : Json :=
  .obj [("token_id", decimal m.token.toNat), ("to", hex m.receiver.bytes),
    ("series_id", .nat m.series.toNat), ("rom", hex m.rom.bytes), ("ram", hex m.ram.bytes)]

def NftBurn.shown (payer : Option Key) (m : NftBurn) : Json :=
  withPayer [("token_id", decimal m.token.toNat)] payer
    [("instance_ids", instancesShown m.instances)]

def Paid.shown {α : Type} (message : Option Key → α → Json) (m : Paid α) : Json :=
  message (some m.payer) m.message

def Trade.shown (t : Trade) : Json :=
  .obj [("transfer_f", t.transfers.shown (Paid.shown FungibleTransfer.shown)),
    ("transfer_n", t.nftTransfers.shown (Paid.shown NftTransfers.shown)),
    ("mint_f", t.mints.shown FungibleMint.shown),
    ("burn_f", t.burns.shown (Paid.shown FungibleBurn.shown)),
    ("mint_n", t.nftMints.shown NftMint.shown),
    ("burn_n", t.nftBurns.shown (Paid.shown NftBurn.shown))]

def Script.shown (m : Script) : Json :=
  .obj [("nexus", .str m.nexus.text), ("chain", .str m.chain.text), ("script", hex m.script.bytes)]

def Section.shown (s : Section) : Json :=
  .obj [("register_offset", .int s.offset.toInt), ("args", hex s.args.bytes)]

def CallContent.shown : CallContent → Text × Json
  | plain args => ("args", hex args.bytes)
  | sections items _ _ => ("sections", .arr (items.map Section.shown))

def Call.shown (c : Call) : Json :=
  .obj [("module_id", .nat c.module.toNat), ("method_id", .nat c.method.toNat), c.content.shown]

def Message.shown : Message → Json
  | call c => c.shown
  | calls items => .obj [("calls", items.shown Call.shown)]
  | trade t => t.shown
  | transferFungible m => m.shown none
  | transferFungibleGasPayer m => m.shown FungibleTransfer.shown
  | transferNftSingle m => m.shown none
  | transferNftSingleGasPayer m => m.shown NftTransfer.shown
  | transferNftMulti m => m.shown none
  | transferNftMultiGasPayer m => m.shown NftTransfers.shown
  | mintFungible m => m.shown
  | burnFungible m => m.shown none
  | burnFungibleGasPayer m => m.shown FungibleBurn.shown
  | mintNft m => m.shown
  | burnNft m => m.shown none
  | burnNftGasPayer m => m.shown NftBurn.shown
  | phantasma m => m.shown
  | phantasmaRaw transaction => .obj [("transaction", hex transaction.bytes)]

def Witness.shown (w : Witness) : Json :=
  .obj [("address", hex w.address.bytes), ("signature", hex w.signature.bytes)]

/-- A section as the call decoder takes it. -/
def Section.raw (s : Section) : RawSection := ⟨s.offset.toInt, s.args.bytes⟩

/-- A call as the call decoder takes it. -/
def Call.raw (c : Call) : RawCall :=
  match c.content with
  | .plain args => ⟨c.module.toNat, c.method.toNat, args.bytes, none⟩
  | .sections items _ _ => ⟨c.module.toNat, c.method.toNat, [], some (items.map Section.raw)⟩

/-- The arguments of calls are shown beside the message, as far as they can be decoded. -/
def Message.decodedCalls : Message → Carbon.Calls × List Text
  | call c => (.one (decodeCall 0 c.raw).1, (decodeCall 0 c.raw).2)
  | calls items =>
    let decoded := decodeCalls (items.items.map Call.raw)
    (.many decoded.1, decoded.2)
  | _ => (.none, [])

def Envelope.shown (e : Envelope) : Json :=
  let head : List (Text × Json) := [("type", .nat e.message.type.1),
    ("type_name", .str e.message.type.2), ("expiry", decimal e.expiry.toInt),
    ("max_gas", decimal e.maxGas.toNat),
    ("max_data", decimal e.maxData.toNat), ("gas_from", hex e.gasFrom.bytes),
    ("payload", .str e.payload.text), ("msg", e.message.shown),
    ("witnesses", e.witnesses.shown Witness.shown)]
  .obj (head ++ e.message.decodedCalls.1.fields)

end ChainDecode.Carbon.Wire
