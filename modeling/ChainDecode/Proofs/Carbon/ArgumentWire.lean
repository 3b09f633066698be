import ChainDecode.Proofs.Carbon.Wire

/-! # The wire form of call arguments

The values of every argument type, how they are written and how they have to be shown. A record is
given field by field, apart from the layouts that the decoder is driven by. Values stand at a level,
and what they hold stands further down, so only values within the depth that is allowed exist.
-/
namespace ChainDecode.Carbon.Wire

/-- Something with its bytes and the form in which it is shown. -/
structure Part where
  wire : List UInt8
  shown : Json

def i8 (n : Int8) : List UInt8 := Number.toSignedBytes 1 n.toInt
def i16 (n : Int16) : List UInt8 := Number.toSignedBytes 2 n.toInt
def i256 (n : BitVec 256) : List UInt8 := Number.toSignedBytes 32 n.toInt

namespace Part

def u8 (n : UInt8) : Part := ⟨[n], .nat n.toNat⟩
def u32 (n : UInt32) : Part := ⟨Wire.u32 n, .nat n.toNat⟩
def u64 (n : UInt64) : Part := ⟨Wire.u64 n, decimal n.toNat⟩
def i64 (n : Int64) : Part := ⟨Wire.i64 n, decimal n.toInt⟩
def signed (n : Signed) : Part := ⟨n.wire, decimal n.value⟩
def fixed {size : Nat} (b : Fixed size) : Part := ⟨b.bytes, hex b.bytes⟩
def blob (b : Blob) : Part := ⟨b.wire, hex b.bytes⟩
def text (s : ShortText) : Part := ⟨s.wire, .str s.text⟩

/-- Parts one after another, shown by their names. -/
def record (fields : List (String × Part)) : Part where
  wire := fields.flatMap fun field => field.2.wire
  shown := .obj (fields.map fun field => (field.1, field.2.shown))

/-- Items behind their count. -/
def items {α : Type} (part : α → Part) (c : Counted α) : Part where
  wire := c.wire fun x => (part x).wire
  shown := c.shown fun x => (part x).shown

end Part

inductive Base where
  | dynamic
  | int8
  | int16
  | int32
  | int64
  | int256
  | bytes
  | string
  | bytes16
  | bytes32
  | bytes64
  | struct
  deriving DecidableEq

namespace Base

def code : Base → Nat
  | dynamic => 0
  | int8 => 1
  | int16 => 2
  | int32 => 3
  | int64 => 4
  | int256 => 5
  | bytes => 6
  | string => 7
  | bytes16 => 8
  | bytes32 => 9
  | bytes64 => 10
  | struct => 11

def name : Base → String
  | dynamic => "Dynamic"
  | int8 => "Int8"
  | int16 => "Int16"
  | int32 => "Int32"
  | int64 => "Int64"
  | int256 => "Int256"
  | bytes => "Bytes"
  | string => "String"
  | bytes16 => "Bytes16"
  | bytes32 => "Bytes32"
  | bytes64 => "Bytes64"
  | struct => "Struct"

end Base

/-- A type byte: a base type with a name, or a number that has none, and whether it marks arrays. -/
inductive TypeByte where
  | known (base : Base) (array : Bool)
  | unknown (n : Nat) (array : Bool) (none : 12 ≤ n) (small : n < 128)

namespace TypeByte

def code : TypeByte → Nat
  | known base array => base.code + if array then 128 else 0
  | unknown n array _ _ => n + if array then 128 else 0

def name : TypeByte → String
  | known base array => base.name ++ if array then "[]" else ""
  | unknown n array _ _ => s!"Type_{n}" ++ if array then "[]" else ""

def part (type : TypeByte) : Part := ⟨Number.toBytes 1 type.code, .str type.name⟩

end TypeByte

structure SchemaField where
  name : ShortText
  type : TypeByte

structure Schema where
  fields : Counted SchemaField
  flags : UInt8

structure TokenInfo where
  maxSupply : Signed
  flags : UInt8
  decimals : UInt8
  owner : Key
  symbol : ShortText
  metadata : Blob
  tokenSchemas : Blob

structure SeriesInfo where
  maxMint : UInt32
  maxSupply : UInt32
  owner : Key
  metadata : Blob
  rom : Schema
  ram : Schema

structure NftMintInfo where
  series : UInt32
  rom : Blob
  ram : Blob

structure StakeImport where
  token : UInt64
  receiver : Key
  amount : Signed
  time : Int64

structure NameImport where
  address : Key
  name : ShortText

structure MemberImport where
  address : Key
  timestamp : Int64

structure NftImport where
  mintNumber : UInt32
  originator : Key
  created : Int64
  rom : Blob
  ram : Blob
  owner : Key

structure ChainConfig where
  version : UInt8
  reserved1 : UInt8
  reserved2 : UInt8
  reserved3 : UInt8
  allowedTxTypes : UInt32
  expiryWindow : UInt32
  blockRateTarget : UInt32

structure GasConfig where
  version : UInt8
  maxNameLength : UInt8
  maxTokenSymbolLength : UInt8
  feeShift : UInt8
  maxStructureSize : UInt32
  feeMultiplier : UInt64
  gasTokenId : UInt64
  dataTokenId : UInt64
  minimumGasOffer : UInt64
  dataEscrowPerRow : UInt64
  gasFeeTransfer : UInt64
  gasFeeQuery : UInt64
  gasFeeCreateTokenBase : UInt64
  gasFeeCreateTokenSymbol : UInt64
  gasFeeCreateTokenSeries : UInt64
  gasFeePerByte : UInt64
  gasFeeRegisterName : UInt64
  gasBurnRatioMul : UInt64
  gasBurnRatioShift : UInt8

structure VmConfig where
  featureLevel : UInt32
  gasConstructor : UInt64
  gasNexus : UInt64
  gasOrganization : UInt64
  gasAccount : UInt64
  gasLeaderboard : UInt64
  gasStandard : UInt64
  gasOracle : UInt64
  fuelPerContractDeploy : Signed

structure NodeInfo where
  id : Key
  type : UInt8

def SchemaField.part (f : SchemaField) : Part :=
  .record [("name", .text f.name), ("type", f.type.part)]

def Schema.part (s : Schema) : Part :=
  .record [("fields", .items SchemaField.part s.fields), ("flags", .u8 s.flags)]

def TokenInfo.part (t : TokenInfo) : Part :=
  .record [("max_supply", .signed t.maxSupply), ("flags", .u8 t.flags),
    ("decimals", .u8 t.decimals), ("owner", .fixed t.owner), ("symbol", .text t.symbol),
    ("metadata", .blob t.metadata), ("token_schemas", .blob t.tokenSchemas)]

def SeriesInfo.part (s : SeriesInfo) : Part :=
  .record [("max_mint", .u32 s.maxMint), ("max_supply", .u32 s.maxSupply),
    ("owner", .fixed s.owner), ("metadata", .blob s.metadata), ("rom", s.rom.part),
    ("ram", s.ram.part)]

def NftMintInfo.part (m : NftMintInfo) : Part :=
  .record [("series_id", .u32 m.series), ("rom", .blob m.rom), ("ram", .blob m.ram)]

def FungibleMint.part (m : FungibleMint) : Part :=
  .record [("token_id", .u64 m.token), ("to", .fixed m.receiver), ("amount", .signed m.amount)]

def StakeImport.part (s : StakeImport) : Part :=
  .record [("token_id", .u64 s.token), ("to", .fixed s.receiver), ("amount", .signed s.amount),
    ("time", .i64 s.time)]

def NameImport.part (n : NameImport) : Part :=
  .record [("address", .fixed n.address), ("name", .text n.name)]

def MemberImport.part (m : MemberImport) : Part :=
  .record [("address", .fixed m.address), ("timestamp", .i64 m.timestamp)]

def NftImport.part (n : NftImport) : Part :=
  .record [("mint_number", .u32 n.mintNumber), ("originator", .fixed n.originator),
    ("created", .i64 n.created), ("rom", .blob n.rom), ("ram", .blob n.ram),
    ("owner", .fixed n.owner)]

def ChainConfig.part (c : ChainConfig) : Part :=
  .record [("version", .u8 c.version), ("reserved1", .u8 c.reserved1),
    ("reserved2", .u8 c.reserved2), ("reserved3", .u8 c.reserved3),
    ("allowed_tx_types", .u32 c.allowedTxTypes), ("expiry_window", .u32 c.expiryWindow),
    ("block_rate_target", .u32 c.blockRateTarget)]

def GasConfig.part (c : GasConfig) : Part :=
  .record [("version", .u8 c.version), ("max_name_length", .u8 c.maxNameLength),
    ("max_token_symbol_length", .u8 c.maxTokenSymbolLength), ("fee_shift", .u8 c.feeShift),
    ("max_structure_size", .u32 c.maxStructureSize), ("fee_multiplier", .u64 c.feeMultiplier),
    ("gas_token_id", .u64 c.gasTokenId), ("data_token_id", .u64 c.dataTokenId),
    ("minimum_gas_offer", .u64 c.minimumGasOffer),
    ("data_escrow_per_row", .u64 c.dataEscrowPerRow), ("gas_fee_transfer", .u64 c.gasFeeTransfer),
    ("gas_fee_query", .u64 c.gasFeeQuery),
    ("gas_fee_create_token_base", .u64 c.gasFeeCreateTokenBase),
    ("gas_fee_create_token_symbol", .u64 c.gasFeeCreateTokenSymbol),
    ("gas_fee_create_token_series", .u64 c.gasFeeCreateTokenSeries),
    ("gas_fee_per_byte", .u64 c.gasFeePerByte),
    ("gas_fee_register_name", .u64 c.gasFeeRegisterName),
    ("gas_burn_ratio_mul", .u64 c.gasBurnRatioMul),
    ("gas_burn_ratio_shift", .u8 c.gasBurnRatioShift)]

def VmConfig.part (c : VmConfig) : Part :=
  .record [("feature_level", .u32 c.featureLevel), ("gas_constructor", .u64 c.gasConstructor),
    ("gas_nexus", .u64 c.gasNexus), ("gas_organization", .u64 c.gasOrganization),
    ("gas_account", .u64 c.gasAccount), ("gas_leaderboard", .u64 c.gasLeaderboard),
    ("gas_standard", .u64 c.gasStandard), ("gas_oracle", .u64 c.gasOracle),
    ("fuel_per_contract_deploy", .signed c.fuelPerContractDeploy)]

def NodeInfo.part (n : NodeInfo) : Part := .record [("id", .fixed n.id), ("type", .u8 n.type)]

structure Format where
  Data : Type
  part : Data → Part

namespace Format

def of {α : Type} (part : α → Part) : Format := ⟨α, part⟩

def nothing : Format := ⟨Empty, Empty.elim⟩

def counted (f : Format) : Format := ⟨Counted f.Data, Part.items f.part⟩

end Format

def plainFormat : PlainType → Format
  | .bytes => .of Part.blob
  | .bytes32 => .of fun b : Fixed 32 => .fixed b
  | .bytes64 => .of fun b : Fixed 64 => .fixed b
  | .smallText => .of Part.text
  | .u8 => .of Part.u8
  | .u32 => .of Part.u32
  | .u64 => .of Part.u64
  | .i64 => .of Part.i64
  | .intx => .of Part.signed
  | .schema => .of Schema.part
  | .tokenInfo => .of TokenInfo.part
  | .seriesInfo => .of SeriesInfo.part
  | .tokensConfig => .of fun flags : UInt8 => .record [("flags", .u8 flags)]
  | .nftMintInfo => .of NftMintInfo.part
  | .stakeImport => .of StakeImport.part
  | .nameImport => .of NameImport.part
  | .memberImport => .of MemberImport.part
  | .nftImport => .of NftImport.part
  | .mintFungible => .of FungibleMint.part
  | .chainConfig => .of ChainConfig.part
  | .gasConfig => .of GasConfig.part
  | .nodeInfo => .of NodeInfo.part
  | .nodeList => .of fun nodes : Counted NodeInfo => .record [("nodes", .items NodeInfo.part nodes)]
  | .vmConfig => .of VmConfig.part

structure LongText where
  text : String
  short : Reads.IsCount (Text.Utf8.encode text).length

def LongText.part (s : LongText) : Part :=
  ⟨count (Text.Utf8.encode s.text).length ++ Text.Utf8.encode s.text, .str s.text⟩

def baseFormat (struct : Format) : Base → Format
  | .dynamic => .of fun _ : Unit => ⟨[], .null⟩
  | .int8 => .of fun n : Int8 => ⟨i8 n, .int n.toInt⟩
  | .int16 => .of fun n : Int16 => ⟨i16 n, .int n.toInt⟩
  | .int32 => .of fun n : Int32 => ⟨i32 n, .int n.toInt⟩
  | .int64 => .of Part.i64
  | .int256 => .of fun n : BitVec 256 => ⟨i256 n, decimal n.toInt⟩
  | .bytes => .of Part.blob
  | .string => .of LongText.part
  | .bytes16 => .of fun b : Fixed 16 => .fixed b
  | .bytes32 => .of fun b : Fixed 32 => .fixed b
  | .bytes64 => .of fun b : Fixed 64 => .fixed b
  | .struct => struct

/-- One value of a base type, or several. What takes no bytes cannot be counted. -/
inductive Typed (struct : Format) where
  | one (base : Base) (x : (baseFormat struct base).Data)
  | many (base : Base) (items : Counted (baseFormat struct base).Data)
    (bare : base = .dynamic → items.items = [])

namespace Typed

variable {struct : Format}

def type : Typed struct → TypeByte
  | one base _ => .known base false
  | many base _ _ => .known base true

def value : Typed struct → Part
  | one base x => (baseFormat struct base).part x
  | many base items _ => .items (baseFormat struct base).part items

def part (v : Typed struct) : Part := .record [("type", v.type.part), ("value", v.value)]

/-- A variable in a struct. -/
def named (name : ShortText) (v : Typed struct) : Part :=
  .record [("name", .text name), ("type", v.type.part), ("value", v.value)]

end Typed

mutual

/-- The structs with a number of levels left. Their fields stand one level down. -/
def structFormat : (levels : Nat) → Format
  | 0 => .nothing
  | levels + 1 => .counted (fieldFormat levels)

def fieldFormat : (levels : Nat) → Format
  | 0 => .nothing
  | levels + 1 => .of fun field : ShortText × Typed (structFormat levels) => field.2.named field.1

end

def variableFormat : (levels : Nat) → Format
  | 0 => .nothing
  | levels + 1 => .of fun v : Typed (structFormat levels) => v.part

/-- The values of an argument type, and the warnings that calls inside them are decoded with. -/
structure ArgFormat extends Format where
  warnings : Data → List Text

namespace ArgFormat

def quiet (f : Format) : ArgFormat := ⟨f, fun _ => []⟩

def listed (f : ArgFormat) : ArgFormat := ⟨f.counted, fun c => c.items.flatMap f.warnings⟩

end ArgFormat

/-- An organization, given its metadata and its members. -/
structure Organization (Metadata Members : Type) where
  name : ShortText
  owner : Key
  metadata : Metadata
  members : Members

def organizationFormat (metadata : Format) (members : ArgFormat) : ArgFormat where
  Data := Organization metadata.Data members.Data
  part o := .record
    [("info", .record [("name", .text o.name), ("owner", .fixed o.owner),
        ("metadata", metadata.part o.metadata)]),
      ("member_imports", members.part o.members)]
  warnings o := members.warnings o.members

structure Series (Imports : Type) where
  token : UInt64
  info : SeriesInfo
  imports : Imports

def seriesFormat (imports : ArgFormat) : ArgFormat where
  Data := Series imports.Data
  part s := .record [("token_id", .u64 s.token), ("info", s.info.part),
    ("imports", imports.part s.imports)]
  warnings s := imports.warnings s.imports

/-- The arguments of a list of definitions, given the formats of the types. All of them are there
and any bytes may follow, or the first that is missing is optional and none does. A type without
values so deep down is refused before the end of the bytes is noticed, so a missing argument has to
be one that could be there. -/
inductive Given (format : ArgType → ArgFormat) : List ArgDef → Type where
  | done (further : List UInt8) : Given format []
  | next {arg : ArgDef} {args : List ArgDef} (x : (format arg.type).Data)
    (rest : Given format args) : Given format (arg :: args)
  | cut {arg : ArgDef} {args : List ArgDef} (missing : arg.isOptional = true)
    (possible : Nonempty (format arg.type).Data) : Given format (arg :: args)

namespace Given

variable {format : ArgType → ArgFormat}

def wire {args : List ArgDef} : Given format args → List UInt8
  | done further => further
  | @next _ arg _ x rest => ((format arg.type).part x).wire ++ rest.wire
  | cut _ _ => []

/-- The arguments that are there with the names and types that they are defined with. -/
def shown {args : List ArgDef} : Given format args → List Json
  | done _ => []
  | @next _ arg _ x rest =>
    .obj [("name", .str arg.name), ("type", .str arg.type.name),
      ("value", ((format arg.type).part x).shown)] :: rest.shown
  | cut _ _ => []

def members {args : List ArgDef} (g : Given format args) : List (Text × Json) :=
  [("args_hex", hex g.wire), ("args", .arr g.shown)]

/-- The number of bytes behind the last argument. -/
def further {args : List ArgDef} : Given format args → Nat
  | done further => further.length
  | next _ rest => rest.further
  | cut _ _ => 0

/-- The warnings about calls inside the arguments. -/
def inner {args : List ArgDef} : Given format args → List Text
  | done _ => []
  | @next _ arg _ x rest => (format arg.type).warnings x ++ rest.inner
  | cut _ _ => []

/-- Bytes behind the last argument are counted in one more warning. -/
def warnings {args : List ArgDef} (g : Given format args) : List Text :=
  g.inner ++ if g.further = 0 then [] else [.ofString s!"Call args left {g.further} trailing bytes"]

end Given

/-- The arguments of a call or of one of its sections. Without a signature they are any bytes. -/
inductive Args (format : ArgType → ArgFormat) : Option CallSignature → Type where
  | known {signature : CallSignature} (given : Given format signature.args)
    (short : Reads.IsCount given.wire.length) : Args format (some signature)
  | unknown (bytes : Blob) : Args format none

inductive ArgSection (format : ArgType → ArgFormat) (signature : Option CallSignature) where
  | bare (offset : Int32) (negative : offset.toInt < 0)
  | full (offset : Int32) (args : Args format signature) (positive : 0 ≤ offset.toInt)

inductive Content (format : ArgType → ArgFormat) (signature : Option CallSignature) where
  | plain (args : Args format signature)
  | sections (items : List (ArgSection format signature)) (least : 1 ≤ items.length)
    (most : items.length ≤ 0x80000000)

/-- A call inside an argument, with the signature that the catalog has for it, if any. -/
structure Embedded (format : ArgType → ArgFormat) where
  module : UInt32
  method : UInt32
  signature : Option CallSignature
  found : Catalog.lookup module.toNat method.toNat = signature
  content : Content format signature

variable {format : ArgType → ArgFormat} {signature : Option CallSignature}

namespace Args

def blob {signature : Option CallSignature} : Args format signature → Blob
  | known given short => ⟨given.wire, short⟩
  | unknown bytes => bytes

def members {signature : Option CallSignature} : Args format signature → List (Text × Json)
  | known given _ => given.members
  | unknown bytes => [("args_hex", hex bytes.bytes)]

def warnings {signature : Option CallSignature} : Args format signature → List Text
  | known given _ => given.warnings
  | unknown _ => []

end Args

namespace ArgSection

def written : ArgSection format signature → Section
  | bare offset _ => ⟨offset, ⟨[], by decide⟩, fun _ => rfl⟩
  | full offset args positive => ⟨offset, args.blob, fun negative => by omega⟩

def shown : ArgSection format signature → Json
  | bare offset _ => .obj [("register_offset", .int offset.toInt)]
  | full offset args _ => .obj (("register_offset", .int offset.toInt) :: args.members)

def warnings : ArgSection format signature → List Text
  | bare _ _ => []
  | full _ args _ => args.warnings

end ArgSection

namespace Content

def written : Content format signature → CallContent
  | plain args => .plain args.blob
  | sections items least most =>
    .sections (items.map ArgSection.written) (by simpa using least) (by simpa using most)

def members : Content format signature → List (Text × Json)
  | plain args => args.members
  | sections items _ _ => [("sections", .arr (items.map ArgSection.shown))]

def warnings : Content format signature → List Text
  | plain args => args.warnings
  | sections items _ _ => items.flatMap ArgSection.warnings

end Content

/-- The members that a call is shown with in front of its arguments. -/
def callMembers (module method : Int) (signature : Option CallSignature) : List (Text × Json) :=
  let numbers : List (Text × Json) := [("module_id", .int module), ("method_id", .int method)]
  numbers ++
    Json.member? "module_name" ((Catalog.moduleName? module).map fun name => .str name) ++
    Json.member? "method_name" (signature.map fun s => .str s.name)

namespace Embedded

def written (c : Embedded format) : Call := ⟨c.module, c.method, c.content.written⟩

def part (c : Embedded format) : Part where
  wire := c.written.wire
  shown := .obj (callMembers c.module.toNat c.method.toNat c.signature ++ c.content.members)

end Embedded

def embeddedFormat (format : ArgType → ArgFormat) : ArgFormat where
  Data := Embedded format
  part c := c.part
  warnings c := c.content.warnings

/-- The values of an argument type with a number of levels left. Items, structs and embedded calls
stand one level down, byte strings in a list do not. -/
def argFormat : (levels : Nat) → ArgType → ArgFormat
  | 0, _ => .quiet .nothing
  | levels + 1, type =>
    match type with
    | .plain p => .quiet (plainFormat p)
    | .dynamicStruct => .quiet (structFormat levels)
    | .dynamicVariable => .quiet (variableFormat levels)
    | .organizationImport =>
      organizationFormat (structFormat levels) (argFormat levels (.array (.plain .memberImport)))
    | .seriesImport => seriesFormat (argFormat levels (.array (.plain .nftImport)))
    | .calls => (embeddedFormat (argFormat levels)).listed
    | .array (.plain .bytes) => .quiet (Format.of Part.blob).counted
    | .array item => (argFormat levels item).listed
    | .unknown _ => .quiet .nothing

end ChainDecode.Carbon.Wire
