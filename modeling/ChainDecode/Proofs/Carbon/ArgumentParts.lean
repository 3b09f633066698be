import ChainDecode.Proofs.Carbon.ArgumentWire
import ChainDecode.Proofs.Carbon.RoundTrip

/-! # Reading plain values back

Values of the types with a layout are read from their bytes and shown in their form, records field
by field.
-/
namespace ChainDecode.Carbon.Wire

def Part.ReadBy (part : Part) (r : Read Value) : Prop := Shows r part.wire part.shown

def Format.ReadBy (f : Format) (r : Read Value) : Prop := ∀ x, (f.part x).ReadBy r

/-- Fields with the names of the layouts, each read by its own. -/
inductive FieldsRead : List (String × Layout) → List (String × Part) → Prop where
  | nil : FieldsRead [] []
  | cons {name : String} {layout : Layout} {part : Part} {fields : List (String × Layout)}
    {parts : List (String × Part)} (first : part.ReadBy layout.read)
    (rest : FieldsRead fields parts) : FieldsRead ((name, layout) :: fields) ((name, part) :: parts)

theorem read_record {fields : List (String × Layout)} {parts : List (String × Part)}
    (h : FieldsRead fields parts) : (Part.record parts).ReadBy (Layout.record fields).read := by
  have members : FieldsShow fields (parts.flatMap fun field => field.2.wire)
      (parts.map fun field => (field.1, field.2.shown)) := by
    induction h with
    | nil => exact fields_nil
    | cons first rest ih => exact fields_cons _ first ih
  exact shows_record members

theorem read_counted {α : Type} {part : α → Part} {layout : Layout} (c : Counted α)
    (h : ∀ x, (part x).ReadBy layout.read) (nonempty : ∀ x, (part x).wire ≠ []) :
    (Part.items part c).ReadBy (Layout.counted layout).read :=
  shows_counted _ _ c h nonempty

def marked (n : Nat) (array : Bool) : Nat := n + if array then 128 else 0

theorem marked_toNat {n : Nat} (small : n < 128) (array : Bool) :
    (UInt8.ofNat (marked n array)).toNat = marked n array := by
  rw [UInt8.toNat_ofNat', marked]
  split <;> omega

theorem isArrayType_marked {n : Nat} (small : n < 128) (array : Bool) :
    isArrayType (UInt8.ofNat (marked n array)) = array := by
  rw [isArrayType, marked_toNat small]
  cases array with
  | false => exact decide_eq_false (Nat.not_le.mpr small)
  | true => exact decide_eq_true (Nat.le_add_left 128 n)

theorem baseOf_marked {n : Nat} (small : n < 128) (array : Bool) :
    baseOf (UInt8.ofNat (marked n array)) = n := by
  rw [baseOf, marked_toNat small, marked]
  split <;> omega

theorem typeName_marked {n : Nat} (small : n < 128) (array : Bool) :
    typeName (UInt8.ofNat (marked n array)) = baseName n ++ if array then "[]" else "" := by
  rw [typeName, marked_toNat small, typeNameOf]
  cases array with
  | false =>
    have plain : (n : Int) / 128 % 2 = 0 := by omega
    exact (if_pos plain).trans String.append_empty.symm
  | true =>
    have array : ¬ ((n + 128 : Nat) : Int) / 128 % 2 = 0 := by omega
    have base : ((n + 128 : Nat) : Int) - 128 = n := by omega
    exact (if_neg array).trans (congrArg (baseName · ++ "[]") base)

theorem baseName_known (base : Base) : baseName base.code = base.name := by
  cases base <;> rfl

theorem baseName_unknown {n : Nat} (none : 12 ≤ n) : baseName n = s!"Type_{n}" := by
  unfold baseName
  rw [if_neg (by omega), List.getD_eq_getElem?_getD, List.getElem?_eq_none none]
  rfl

theorem base_small (base : Base) : base.code < 12 := by
  cases base <;> decide

theorem type_code (type : TypeByte) : ∃ n array, n < 128 ∧ type.code = marked n array ∧
    type.name = baseName n ++ if array then "[]" else "" := by
  cases type with
  | known base array =>
    have small := base_small base
    exact ⟨base.code, array, by omega, rfl, by rw [baseName_known]; rfl⟩
  | unknown n array none small => exact ⟨n, array, small, rfl, by rw [baseName_unknown none]; rfl⟩

theorem typeName_code (type : TypeByte) : typeName (UInt8.ofNat type.code) = type.name := by
  obtain ⟨n, array, small, code, name⟩ := type_code type
  rw [code, name, typeName_marked small]

theorem type_small (type : TypeByte) : type.code < Number.wordSpan 1 := by
  obtain ⟨n, array, small, code, _⟩ := type_code type
  rw [code, marked]
  change _ < 256
  split <;> omega

theorem reads_type (type : TypeByte) : Reads (Stream.word 1) type.part.wire type.code :=
  Reads.word (type_small type)

theorem read_type (type : TypeByte) : type.part.ReadBy Layout.typeName.read := by
  refine ⟨.typeName (UInt8.ofNat type.code), ?_, ?_⟩
  · rw [Layout.read]
    exact (reads_type type).bind_pure fun n : Nat => Value.typeName (UInt8.ofNat n)
  · rw [Value.toJson, typeName_code]
    rfl

theorem read_schema (s : Schema) : s.part.ReadBy Layout.schema.read := by
  have field : ∀ f : SchemaField, f.part.ReadBy
      (Layout.record [("name", .smallText), ("type", .typeName)]).read := fun f =>
    read_record (.cons (shows_text f.name) (.cons (read_type f.type) .nil))
  have nonempty : ∀ f : SchemaField, f.part.wire ≠ [] := fun f => List.cons_ne_nil _ _
  exact read_record (.cons (read_counted s.fields field nonempty) (.cons (shows_u8 s.flags) .nil))

theorem read_nodeInfo (n : NodeInfo) : n.part.ReadBy Layout.nodeInfo.read :=
  read_record (.cons (shows_key n.id) (.cons (shows_u8 n.type) .nil))

theorem read_nodes (c : Counted NodeInfo) :
    (Part.items NodeInfo.part c).ReadBy (Layout.listed .negativeNodes Layout.nodeInfo).read := by
  rw [Layout.read]
  exact shows_list c read_nodeInfo

theorem read_tokenInfo (t : TokenInfo) : t.part.ReadBy Layout.tokenInfo.read :=
  read_record (.cons (shows_signed t.maxSupply) (.cons (shows_u8 t.flags)
    (.cons (shows_u8 t.decimals) (.cons (shows_key t.owner) (.cons (shows_text t.symbol)
      (.cons (shows_bytes t.metadata) (.cons (shows_bytes t.tokenSchemas) .nil)))))))

theorem read_seriesInfo (s : SeriesInfo) : s.part.ReadBy Layout.seriesInfo.read :=
  read_record (.cons (shows_u32 s.maxMint) (.cons (shows_u32 s.maxSupply)
    (.cons (shows_key s.owner) (.cons (shows_bytes s.metadata) (.cons (read_schema s.rom)
      (.cons (read_schema s.ram) .nil))))))

theorem read_nftImport (n : NftImport) : n.part.ReadBy Layout.nftImport.read :=
  read_record (.cons (shows_u32 n.mintNumber) (.cons (shows_key n.originator)
    (.cons (shows_i64 n.created) (.cons (shows_bytes n.rom) (.cons (shows_bytes n.ram)
      (.cons (shows_key n.owner) .nil))))))

theorem read_chainConfig (c : ChainConfig) : c.part.ReadBy Layout.chainConfig.read :=
  read_record (.cons (shows_u8 c.version) (.cons (shows_u8 c.reserved1)
    (.cons (shows_u8 c.reserved2) (.cons (shows_u8 c.reserved3)
      (.cons (shows_u32 c.allowedTxTypes) (.cons (shows_u32 c.expiryWindow)
        (.cons (shows_u32 c.blockRateTarget) .nil)))))))

theorem read_gasConfig (c : GasConfig) : c.part.ReadBy Layout.gasConfig.read :=
  read_record (.cons (shows_u8 c.version) (.cons (shows_u8 c.maxNameLength)
    (.cons (shows_u8 c.maxTokenSymbolLength) (.cons (shows_u8 c.feeShift)
      (.cons (shows_u32 c.maxStructureSize) (.cons (shows_u64 c.feeMultiplier)
        (.cons (shows_u64 c.gasTokenId) (.cons (shows_u64 c.dataTokenId)
          (.cons (shows_u64 c.minimumGasOffer) (.cons (shows_u64 c.dataEscrowPerRow)
            (.cons (shows_u64 c.gasFeeTransfer) (.cons (shows_u64 c.gasFeeQuery)
              (.cons (shows_u64 c.gasFeeCreateTokenBase)
                (.cons (shows_u64 c.gasFeeCreateTokenSymbol)
                  (.cons (shows_u64 c.gasFeeCreateTokenSeries)
                    (.cons (shows_u64 c.gasFeePerByte) (.cons (shows_u64 c.gasFeeRegisterName)
                      (.cons (shows_u64 c.gasBurnRatioMul)
                        (.cons (shows_u8 c.gasBurnRatioShift) .nil)))))))))))))))))))

theorem read_vmConfig (c : VmConfig) : c.part.ReadBy Layout.vmConfig.read :=
  read_record (.cons (shows_u32 c.featureLevel) (.cons (shows_u64 c.gasConstructor)
    (.cons (shows_u64 c.gasNexus) (.cons (shows_u64 c.gasOrganization)
      (.cons (shows_u64 c.gasAccount) (.cons (shows_u64 c.gasLeaderboard)
        (.cons (shows_u64 c.gasStandard) (.cons (shows_u64 c.gasOracle)
          (.cons (shows_signed c.fuelPerContractDeploy) .nil)))))))))

theorem read_plain (type : PlainType) : (plainFormat type).ReadBy type.layout.read := by
  intro x
  cases type with
  | bytes => exact shows_bytes x
  | bytes32 => exact shows_fixed x
  | bytes64 => exact shows_fixed x
  | smallText => exact shows_text x
  | u8 => exact shows_u8 x
  | u32 => exact shows_u32 x
  | u64 => exact shows_u64 x
  | i64 => exact shows_i64 x
  | intx => exact shows_signed x
  | schema => exact read_schema x
  | tokenInfo => exact read_tokenInfo x
  | seriesInfo => exact read_seriesInfo x
  | tokensConfig => exact read_record (.cons (shows_u8 x) .nil)
  | nftMintInfo =>
    exact read_record (.cons (shows_u32 x.series) (.cons (shows_bytes x.rom)
      (.cons (shows_bytes x.ram) .nil)))
  | stakeImport =>
    exact read_record (.cons (shows_u64 x.token) (.cons (shows_key x.receiver)
      (.cons (shows_signed x.amount) (.cons (shows_i64 x.time) .nil))))
  | nameImport => exact read_record (.cons (shows_key x.address) (.cons (shows_text x.name) .nil))
  | memberImport =>
    exact read_record (.cons (shows_key x.address) (.cons (shows_i64 x.timestamp) .nil))
  | nftImport => exact read_nftImport x
  | mintFungible =>
    exact read_record (.cons (shows_u64 x.token) (.cons (shows_key x.receiver)
      (.cons (shows_signed x.amount) .nil)))
  | chainConfig => exact read_chainConfig x
  | gasConfig => exact read_gasConfig x
  | nodeInfo => exact read_nodeInfo x
  | nodeList => exact read_record (.cons (read_nodes x) .nil)
  | vmConfig => exact read_vmConfig x

end ChainDecode.Carbon.Wire
