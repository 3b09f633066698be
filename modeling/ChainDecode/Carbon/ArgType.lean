import ChainDecode.Carbon.Layout

/-! # Argument types

Types whose values have a fixed layout, types with a reader of their own, and arrays of either.
Every type has the name that calls are shown with.
-/
namespace ChainDecode.Carbon

inductive PlainType where
  | bytes
  | bytes32
  | bytes64
  | smallText
  | u8
  | u32
  | u64
  | i64
  | intx
  | schema
  | tokenInfo
  | seriesInfo
  | tokensConfig
  | nftMintInfo
  | stakeImport
  | nameImport
  | memberImport
  | nftImport
  | mintFungible
  | chainConfig
  | gasConfig
  | nodeInfo
  | nodeList
  | vmConfig
  deriving DecidableEq, Repr

namespace PlainType

def all : List PlainType :=
  [.bytes, .bytes32, .bytes64, .smallText, .u8, .u32, .u64, .i64, .intx, .schema, .tokenInfo,
    .seriesInfo, .tokensConfig, .nftMintInfo, .stakeImport, .nameImport, .memberImport,
    .nftImport, .mintFungible, .chainConfig, .gasConfig, .nodeInfo, .nodeList, .vmConfig]

def name : PlainType → String
  | .bytes => "bytes"
  | .bytes32 => "bytes32"
  | .bytes64 => "bytes64"
  | .smallText => "smallstring"
  | .u8 => "u8"
  | .u32 => "u32"
  | .u64 => "u64"
  | .i64 => "i64"
  | .intx => "intx"
  | .schema => "vm_struct_schema"
  | .tokenInfo => "token_info"
  | .seriesInfo => "series_info"
  | .tokensConfig => "tokens_config"
  | .nftMintInfo => "nft_mint_info"
  | .stakeImport => "stake_import"
  | .nameImport => "name_import"
  | .memberImport => "member_import"
  | .nftImport => "nft_import"
  | .mintFungible => "txmsg_mint_fungible"
  | .chainConfig => "chain_config"
  | .gasConfig => "gas_config"
  | .nodeInfo => "node_info"
  | .nodeList => "node_list"
  | .vmConfig => "phantasmavm_config"

def layout : PlainType → Layout
  | .bytes => .bytes
  | .bytes32 => .fixed 32
  | .bytes64 => .fixed 64
  | .smallText => .smallText
  | .u8 => .u8
  | .u32 => .u32
  | .u64 => .u64
  | .i64 => .i64
  | .intx => .intx
  | .schema => .schema
  | .tokenInfo => .tokenInfo
  | .seriesInfo => .seriesInfo
  | .tokensConfig => .tokensConfig
  | .nftMintInfo => .nftMintInfo
  | .stakeImport => .stakeImport
  | .nameImport => .nameImport
  | .memberImport => .memberImport
  | .nftImport => .nftImport
  | .mintFungible => .mintFungible
  | .chainConfig => .chainConfig
  | .gasConfig => .gasConfig
  | .nodeInfo => .nodeInfo
  | .nodeList => .nodeList
  | .vmConfig => .vmConfig

end PlainType

inductive ArgType where
  | plain (type : PlainType)
  | dynamicStruct
  | dynamicVariable
  | organizationImport
  | seriesImport
  | calls
  | array (item : ArgType)
  | unknown (name : Text)
  deriving DecidableEq, Repr

namespace ArgType

def composite : List (Text × ArgType) :=
  [("vm_dynamic_struct", .dynamicStruct), ("vm_dynamic_variable", .dynamicVariable),
    ("organization_import", .organizationImport), ("series_import", .seriesImport),
    ("txmsg_call_multi", .calls)]

def name : ArgType → Text
  | plain type => type.name
  | dynamicStruct => "vm_dynamic_struct"
  | dynamicVariable => "vm_dynamic_variable"
  | organizationImport => "organization_import"
  | seriesImport => "series_import"
  | calls => "txmsg_call_multi"
  | array item => item.name ++ "[]"
  | unknown name => name

def ofBaseName (name : Text) : ArgType :=
  match PlainType.all.find? fun type => name = type.name with
  | some type => .plain type
  | none => (composite.lookup name).getD (.unknown name)

def ofReversedName : List Letter → ArgType
  | .char ']' :: .char '[' :: rest => .array (ofReversedName rest)
  | letters => ofBaseName ⟨letters.reverse⟩

def ofName (name : Text) : ArgType := ofReversedName name.letters.reverse

end ArgType

end ChainDecode.Carbon
