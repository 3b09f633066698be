import ChainDecode.Carbon.Layout
import ChainDecode.Json.Compare
import ChainDecode.Json.Literal

/-! # Transaction types

The type of a transaction fixes the layout of its message. The two call types frame calls instead.
-/
namespace ChainDecode.Carbon

inductive TxType where
  | call
  | callMulti
  | trade
  | transferFungible
  | transferFungibleGasPayer
  | transferNftSingle
  | transferNftSingleGasPayer
  | transferNftMulti
  | transferNftMultiGasPayer
  | mintFungible
  | burnFungible
  | burnFungibleGasPayer
  | mintNft
  | burnNft
  | burnNftGasPayer
  | phantasma
  | phantasmaRaw
  deriving DecidableEq, Repr

namespace TxType

def all : List TxType :=
  [.call, .callMulti, .trade, .transferFungible, .transferFungibleGasPayer, .transferNftSingle,
    .transferNftSingleGasPayer, .transferNftMulti, .transferNftMultiGasPayer, .mintFungible,
    .burnFungible, .burnFungibleGasPayer, .mintNft, .burnNft, .burnNftGasPayer, .phantasma,
    .phantasmaRaw]

def ofCode? (code : Int) : Option TxType := if code < 0 then none else all[code.toNat]?

def code : TxType → Nat
  | call => 0
  | callMulti => 1
  | trade => 2
  | transferFungible => 3
  | transferFungibleGasPayer => 4
  | transferNftSingle => 5
  | transferNftSingleGasPayer => 6
  | transferNftMulti => 7
  | transferNftMultiGasPayer => 8
  | mintFungible => 9
  | burnFungible => 10
  | burnFungibleGasPayer => 11
  | mintNft => 12
  | burnNft => 13
  | burnNftGasPayer => 14
  | phantasma => 15
  | phantasmaRaw => 16

def name : TxType → String
  | call => "Call"
  | callMulti => "Call_Multi"
  | trade => "Trade"
  | transferFungible => "TransferFungible"
  | transferFungibleGasPayer => "TransferFungible_GasPayer"
  | transferNftSingle => "TransferNonFungible_Single"
  | transferNftSingleGasPayer => "TransferNonFungible_Single_GasPayer"
  | transferNftMulti => "TransferNonFungible_Multi"
  | transferNftMultiGasPayer => "TransferNonFungible_Multi_GasPayer"
  | mintFungible => "MintFungible"
  | burnFungible => "BurnFungible"
  | burnFungibleGasPayer => "BurnFungible_GasPayer"
  | mintNft => "MintNonFungible"
  | burnNft => "BurnNonFungible"
  | burnNftGasPayer => "BurnNonFungible_GasPayer"
  | phantasma => "Phantasma"
  | phantasmaRaw => "Phantasma_Raw"

def ofJson? (v : Json) : Option TxType := v.whole?.bind ofCode?

def ofJson (v : Json) : Except Fault TxType :=
  if !v.isKey then .error .wrongShape
  else
    match ofJson? v with
    | some type => .ok type
    | none => v.shown >>= fun shown => .error (.transactionType shown)

def nameOf (v : Json) : Text :=
  match ofJson? v with
  | some type => type.name
  | none => "Unknown(" ++ v.display ++ ")"

end TxType

def transferParties (gasPayer : Bool) : List (String × Layout) :=
  ("to", .key) :: if gasPayer then [("from", .key)] else []

def burnParties (gasPayer : Bool) : List (String × Layout) :=
  if gasPayer then [("from", .key)] else []

namespace Layout

def transferFungible (gasPayer : Bool) : Layout :=
  .record (transferParties gasPayer ++ [("token_id", .u64), ("amount", .u64)])

def transferNftSingle (gasPayer : Bool) : Layout :=
  .record (transferParties gasPayer ++ [("token_id", .u64), ("instance_id", .u64)])

def transferNftMulti (gasPayer : Bool) : Layout :=
  .record (transferParties gasPayer ++ [("token_id", .u64), ("instance_ids", .counted .u64)])

def burnFungible (gasPayer : Bool) : Layout :=
  .record (("token_id", .u64) :: burnParties gasPayer ++ [("amount", .intx)])

def mintNft : Layout :=
  .record [("token_id", .u64), ("to", key), ("series_id", .u32), ("rom", .bytes), ("ram", .bytes)]

def burnNft (gasPayer : Bool) : Layout :=
  .record (("token_id", .u64) :: burnParties gasPayer ++ [("instance_ids", .counted .u64)])

def trade : Layout :=
  .record [("transfer_f", .counted (transferFungible true)),
    ("transfer_n", .counted (transferNftMulti true)), ("mint_f", .counted mintFungible),
    ("burn_f", .counted (burnFungible true)), ("mint_n", .counted mintNft),
    ("burn_n", .counted (burnNft true))]

def phantasma : Layout :=
  .record [("nexus", .smallText), ("chain", .smallText), ("script", .bytes)]

def phantasmaRaw : Layout := .record [("transaction", .bytes)]

end Layout

/-- The layout of a type's message; the call types have none. -/
def TxType.layout? : TxType → Option Layout
  | call => none
  | callMulti => none
  | trade => some .trade
  | transferFungible => some (.transferFungible false)
  | transferFungibleGasPayer => some (.transferFungible true)
  | transferNftSingle => some (.transferNftSingle false)
  | transferNftSingleGasPayer => some (.transferNftSingle true)
  | transferNftMulti => some (.transferNftMulti false)
  | transferNftMultiGasPayer => some (.transferNftMulti true)
  | mintFungible => some .mintFungible
  | burnFungible => some (.burnFungible false)
  | burnFungibleGasPayer => some (.burnFungible true)
  | mintNft => some .mintNft
  | burnNft => some (.burnNft false)
  | burnNftGasPayer => some (.burnNft true)
  | phantasma => some .phantasma
  | phantasmaRaw => some .phantasmaRaw

end ChainDecode.Carbon
