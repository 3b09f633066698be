import ChainDecode.Carbon.ArgType
import ChainDecode.Fault
import ChainDecode.Json.Compare

/-! # The call catalog

The methods of each module with the names and types of their arguments. Only the last arguments of
a genesis may be missing.
-/
namespace ChainDecode.Carbon

structure ArgDef where
  name : String
  type : ArgType
  isOptional : Bool
  deriving DecidableEq, Repr

structure CallSignature where
  name : String
  args : List ArgDef
  deriving DecidableEq, Repr

def ArgDef.toJson (a : ArgDef) : Json :=
  .obj [("name", .str a.name), ("type", .str a.type.name), ("optional", .bool a.isOptional)]

def CallSignature.toJson (s : CallSignature) : Json :=
  .obj [("name", .str s.name), ("args", .arr (s.args.map ArgDef.toJson))]

namespace Catalog

def arg (name : String) (type : ArgType) : ArgDef := ⟨name, type, false⟩

def optional (name : String) (type : ArgType) : ArgDef := ⟨name, type, true⟩

def governance : List CallSignature :=
  [⟨"Genesis",
      [arg "chain_config" (.plain .chainConfig), arg "gas_config" (.plain .gasConfig),
       arg "nodes" (.array (.plain .nodeInfo)), optional "metadata" .dynamicStruct,
       optional "tokens" (.array (.plain .tokenInfo)),
       optional "mints" (.array (.plain .mintFungible)), optional "series" (.array .seriesImport),
       optional "stakes" (.array (.plain .stakeImport)),
       optional "names" (.array (.plain .nameImport)),
       optional "orgs" (.array .organizationImport)]⟩,
    ⟨"RegisterName", [arg "address" (.plain .bytes32), arg "name" (.plain .smallText)]⟩,
    ⟨"SpecialResolution", [arg "id" (.plain .u64), arg "calls" .calls]⟩,
    ⟨"SetGasConfig", [arg "config" (.plain .gasConfig)]⟩,
    ⟨"SetChainConfig", [arg "config" (.plain .chainConfig)]⟩,
    ⟨"SetMetadata", [arg "metadata" .dynamicStruct]⟩,
    ⟨"SetNodeConfig", [arg "nodes" (.plain .nodeList)]⟩,
    ⟨"GetSpecialResolutionCount", []⟩,
    ⟨"LookupName", [arg "address" (.plain .bytes32)]⟩,
    ⟨"LookupAddress", [arg "name" (.plain .smallText)]⟩,
    ⟨"SetFeatureLevel", [arg "version" (.plain .u32)]⟩]

def token : List CallSignature :=
  [⟨"TransferFungible",
      [arg "to" (.plain .bytes32), arg "from" (.plain .bytes32), arg "token_id" (.plain .u64),
       arg "amount" (.plain .intx)]⟩,
    ⟨"TransferNonFungible",
      [arg "to" (.plain .bytes32), arg "from" (.plain .bytes32), arg "token_id" (.plain .u64),
       arg "instance_ids" (.array (.plain .u64))]⟩,
    ⟨"CreateToken", [arg "info" (.plain .tokenInfo)]⟩,
    ⟨"MintFungible",
      [arg "token_id" (.plain .u64), arg "to" (.plain .bytes32), arg "amount" (.plain .intx)]⟩,
    ⟨"BurnFungible",
      [arg "token_id" (.plain .u64), arg "from" (.plain .bytes32), arg "amount" (.plain .intx)]⟩,
    ⟨"GetBalance", [arg "token_id" (.plain .u64), arg "address" (.plain .bytes32)]⟩,
    ⟨"CreateTokenSeries", [arg "token_id" (.plain .u64), arg "info" (.plain .seriesInfo)]⟩,
    ⟨"DeleteTokenSeries", [arg "token_id" (.plain .u64), arg "series_id" (.plain .u32)]⟩,
    ⟨"MintNonFungible",
      [arg "token_id" (.plain .u64), arg "address" (.plain .bytes32),
       arg "tokens" (.array (.plain .nftMintInfo))]⟩,
    ⟨"BurnNonFungible",
      [arg "token_id" (.plain .u64), arg "address" (.plain .bytes32),
       arg "instance_ids" (.array (.plain .u64))]⟩,
    ⟨"GetInstances", [arg "token_id" (.plain .u64), arg "address" (.plain .bytes32)]⟩,
    ⟨"GetNonFungibleInfo",
      [arg "token_id" (.plain .u64), arg "instance_id" (.plain .u64),
       arg "get_schemas" (.plain .u8)]⟩,
    ⟨"GetNonFungibleInfoByRomId",
      [arg "token_id" (.plain .u64), arg "rom_id" .dynamicVariable,
       arg "get_schemas" (.plain .u8)]⟩,
    ⟨"GetSeriesInfo", [arg "token_id" (.plain .u64), arg "series_id" (.plain .u32)]⟩,
    ⟨"GetSeriesInfoByMetaId", [arg "token_id" (.plain .u64), arg "rom_id" .dynamicVariable]⟩,
    ⟨"GetTokenInfo", [arg "token_id" (.plain .u64)]⟩,
    ⟨"GetTokenInfoBySymbol", [arg "symbol" (.plain .smallText)]⟩,
    ⟨"GetTokenSupply", [arg "token_id" (.plain .u64)]⟩,
    ⟨"GetSeriesSupply", [arg "token_id" (.plain .u64), arg "series_id" (.plain .u32)]⟩,
    ⟨"GetTokenIdBySymbol", [arg "symbol" (.plain .smallText)]⟩,
    ⟨"GetBalances", [arg "address" (.plain .bytes32)]⟩,
    ⟨"CreateMintedTokenSeries",
      [arg "token_id" (.plain .u64), arg "info" (.plain .seriesInfo),
       arg "address" (.plain .bytes32), arg "roms" (.array (.plain .bytes)),
       arg "rams" (.array (.plain .bytes))]⟩,
    ⟨"ApplyInflation", [arg "token_id" (.plain .u64)]⟩,
    ⟨"UpdateTokenMetadata", [arg "token_id" (.plain .u64), arg "metadata" .dynamicStruct]⟩,
    ⟨"GetNextTokenInflation", [arg "token_id" (.plain .u64)]⟩,
    ⟨"SetTokensConfig", [arg "config" (.plain .tokensConfig)]⟩]

def virtualMachine : List CallSignature :=
  [⟨"ExecuteScript",
      [arg "max_gas" (.plain .u64), arg "gas_from" (.plain .bytes32),
       arg "script" (.plain .bytes)]⟩,
    ⟨"RegisterTokenContract",
      [arg "token_id" (.plain .u64), arg "symbol" (.plain .smallText),
       arg "script" (.plain .bytes), arg "abi" (.plain .bytes)]⟩,
    ⟨"DeployContract",
      [arg "from" (.plain .bytes32), arg "contract_name" (.plain .smallText),
       arg "script" (.plain .bytes), arg "abi" (.plain .bytes)]⟩,
    ⟨"IsContractDeployed", [arg "name" (.plain .smallText)]⟩,
    ⟨"SetConfig", [arg "config" (.plain .vmConfig)]⟩]

def market : List CallSignature :=
  [⟨"SellToken",
      [arg "from" (.plain .bytes32), arg "token_id" (.plain .u64),
       arg "instance_id" (.plain .u64), arg "quote_token_id" (.plain .u64),
       arg "price" (.plain .intx), arg "end_date" (.plain .i64)]⟩,
    ⟨"SellTokenById",
      [arg "from" (.plain .bytes32), arg "symbol" (.plain .smallText),
       arg "instance_id" .dynamicVariable, arg "quote_symbol" (.plain .smallText),
       arg "price" (.plain .intx), arg "end_date" (.plain .i64)]⟩,
    ⟨"CancelSale", [arg "token_id" (.plain .u64), arg "instance_id" (.plain .u64)]⟩,
    ⟨"CancelSaleById", [arg "symbol" (.plain .smallText), arg "instance_id" .dynamicVariable]⟩,
    ⟨"BuyToken",
      [arg "from" (.plain .bytes32), arg "token_id" (.plain .u64),
       arg "instance_id" (.plain .u64)]⟩,
    ⟨"BuyTokenById",
      [arg "from" (.plain .bytes32), arg "symbol" (.plain .smallText),
       arg "instance_id" .dynamicVariable]⟩,
    ⟨"GetTokenListingCount", [arg "token_id" (.plain .u64)]⟩,
    ⟨"GetTokenListingInfo", [arg "token_id" (.plain .u64), arg "instance_id" (.plain .u64)]⟩,
    ⟨"GetTokenListingInfoById",
      [arg "symbol" (.plain .smallText), arg "instance_id" .dynamicVariable]⟩]

def methods : Int → List CallSignature
  | 0 => governance
  | 1 => token
  | 2 => virtualMachine
  | 4 => market
  | _ => []

def moduleName? : Int → Option String
  | 0 => some "Governance"
  | 1 => some "Token"
  | 2 => some "PhantasmaVm"
  | 3 => some "Organization"
  | 4 => some "Market"
  | 0xffffffff => some "Internal"
  | _ => none

/-- The number that a value names a module or a method by; one that names none is negative. -/
def identifier (v : Json) : Except Fault Int :=
  if v.isKey then .ok (v.whole?.getD (-1)) else .error .wrongShape

def lookup (module method : Int) : Option CallSignature :=
  if method < 0 then none else (methods module)[method.toNat]?

end Catalog

end ChainDecode.Carbon
