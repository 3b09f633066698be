import ChainDecode.Carbon.Value
import ChainDecode.Stream

/-! # Layouts

A layout says how a value is written in a stream. Most parts of Carbon messages are described by a
layout alone, and one reader serves them all.
-/
namespace ChainDecode.Carbon

inductive Layout where
  | u8
  | u32
  | u64
  | i64
  -- Sign and magnitude of any size.
  | intx
  | fixed (size : Nat)
  | bytes
  | smallText
  | typeName
  -- Items behind a count that cannot exceed the bytes left.
  | counted (item : Layout)
  -- Items behind a count that only has to be positive; the cause tells of one that is not.
  | listed (negative : Fault) (item : Layout)
  | record (fields : List (String × Layout))
  deriving Repr

def readListCount (negative : Fault) : Read Nat := do
  let n ← Stream.signed 4
  if n < 0 then throw negative else pure n.toNat

mutual

def Layout.read : Layout → Read Value
  | .u8 => return .number (← Stream.word 1)
  | .u32 => return .number (← Stream.word 4)
  | .u64 => return .wide (← Stream.word 8)
  | .i64 => return .wide (← Stream.signed 8)
  | .intx => return .wide (← Stream.intx)
  | .fixed size => return .bytes (← Stream.take size)
  | .bytes => return .bytes (← Stream.byteArray)
  | .smallText => return .text (← Stream.smallText)
  | .typeName => return .typeName (UInt8.ofNat (← Stream.word 1))
  | .counted item => do
    let n ← Stream.count
    return .list (← times item.read n)
  | .listed negative item => do
    let n ← readListCount negative
    return .list (← times item.read n)
  | .record fields => return .record (← Layout.readFields fields)

def Layout.readFields : List (String × Layout) → Read (List (String × Value))
  | [] => pure []
  | (name, layout) :: rest => do
    let v ← layout.read
    let fields ← Layout.readFields rest
    pure ((name, v) :: fields)

end

namespace Layout

def key : Layout := .fixed 32

def same (layout : Layout) (names : List String) : List (String × Layout) :=
  names.map fun name => (name, layout)

def schema : Layout :=
  .record [("fields", .counted (.record [("name", .smallText), ("type", .typeName)])),
    ("flags", .u8)]

def tokenInfo : Layout :=
  .record [("max_supply", .intx), ("flags", .u8), ("decimals", .u8), ("owner", key),
    ("symbol", .smallText), ("metadata", .bytes), ("token_schemas", .bytes)]

def seriesInfo : Layout :=
  .record [("max_mint", .u32), ("max_supply", .u32), ("owner", key), ("metadata", .bytes),
    ("rom", schema), ("ram", schema)]

def mintFungible : Layout := .record [("token_id", .u64), ("to", key), ("amount", .intx)]

def nftMintInfo : Layout := .record [("series_id", .u32), ("rom", .bytes), ("ram", .bytes)]

def tokensConfig : Layout := .record [("flags", .u8)]

def stakeImport : Layout :=
  .record [("token_id", .u64), ("to", key), ("amount", .intx), ("time", .i64)]

def nameImport : Layout := .record [("address", key), ("name", .smallText)]

def memberImport : Layout := .record [("address", key), ("timestamp", .i64)]

def nftImport : Layout :=
  .record [("mint_number", .u32), ("originator", key), ("created", .i64), ("rom", .bytes),
    ("ram", .bytes), ("owner", key)]

def chainConfig : Layout :=
  .record (same .u8 ["version", "reserved1", "reserved2", "reserved3"] ++
    same .u32 ["allowed_tx_types", "expiry_window", "block_rate_target"])

def gasConfig : Layout :=
  .record (same .u8 ["version", "max_name_length", "max_token_symbol_length", "fee_shift"] ++
    [("max_structure_size", .u32)] ++
    same .u64 ["fee_multiplier", "gas_token_id", "data_token_id", "minimum_gas_offer",
      "data_escrow_per_row", "gas_fee_transfer", "gas_fee_query", "gas_fee_create_token_base",
      "gas_fee_create_token_symbol", "gas_fee_create_token_series", "gas_fee_per_byte",
      "gas_fee_register_name", "gas_burn_ratio_mul"] ++
    [("gas_burn_ratio_shift", .u8)])

def vmConfig : Layout :=
  .record ([("feature_level", .u32)] ++
    same .u64 ["gas_constructor", "gas_nexus", "gas_organization", "gas_account",
      "gas_leaderboard", "gas_standard", "gas_oracle"] ++
    [("fuel_per_contract_deploy", .intx)])

def nodeInfo : Layout := .record [("id", key), ("type", .u8)]

def nodeList : Layout := .record [("nodes", .listed .negativeNodes nodeInfo)]

end Layout

end ChainDecode.Carbon
