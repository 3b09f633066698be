import ChainDecode.Proofs.Carbon.Wire

/-! # Reading Carbon messages back

A layout is read from the bytes that write a part, and what is read is shown like the part. Fields
are put together one by one, messages from their fields.
-/
namespace ChainDecode.Carbon.Wire

def Shows (r : Read Value) (bytes : List UInt8) (j : Json) : Prop :=
  ∃ v, Reads r bytes v ∧ v.toJson = j

def FieldsShow (fields : List (String × Layout)) (bytes : List UInt8)
    (members : List (Text × Json)) : Prop :=
  ∃ vs, Reads (Layout.readFields fields) bytes vs ∧ Value.fieldsJson vs = members

theorem fields_nil : FieldsShow [] [] [] := by
  refine ⟨[], ?_, rfl⟩
  rw [Layout.readFields]
  exact Reads.pure []

variable {layout : Layout} {fields : List (String × Layout)} {front back : List UInt8}
  {members : List (Text × Json)} {j : Json}

theorem fields_cons (name : String) (h : Shows layout.read front j)
    (k : FieldsShow fields back members) :
    FieldsShow ((name, layout) :: fields) (front ++ back) ((name, j) :: members) := by
  obtain ⟨v, value, rfl⟩ := h
  obtain ⟨vs, values, rfl⟩ := k
  refine ⟨(name, v) :: vs, ?_, rfl⟩
  rw [Layout.readFields]
  exact value.bind (values.bind_pure fun vs => (name, v) :: vs)

theorem fields_last (name : String) (h : Shows layout.read front j) :
    FieldsShow [(name, layout)] front [(name, j)] := by
  have whole := fields_cons name h fields_nil
  rwa [List.append_nil] at whole

theorem shows_record (h : FieldsShow fields front members) :
    Shows (Layout.record fields).read front (.obj members) := by
  obtain ⟨vs, values, rfl⟩ := h
  refine ⟨.record vs, ?_, rfl⟩
  rw [Layout.read]
  exact values.bind_pure Value.record

theorem itemsJson_map {ι : Type} (value : ι → Value) (items : List ι) :
    Value.itemsJson (items.map value) = items.map fun x => (value x).toJson := by
  induction items with
  | nil => rfl
  | cons x items ih => rw [List.map_cons, List.map_cons, Value.itemsJson, ih]

theorem reads_listCount {negative : Fault} {n : Nat} (small : Reads.IsCount n) :
    Reads (readListCount negative) (count n) n := by
  intro p rest
  rw [readListCount, count, bind_ok (Reads.signedCount small p rest), if_neg (by omega)]
  rfl

section Items

variable {α : Type} {item : Read Value} {wire : α → List UInt8} {shown : α → Json}

theorem shows_times {items : List α} (h : ∀ x ∈ items, Shows item (wire x) (shown x)) :
    ∃ vs, Reads (times item items.length) (items.flatMap wire) vs ∧
      Value.itemsJson vs = items.map shown := by
  induction items with
  | nil => exact ⟨[], Reads.pure [], rfl⟩
  | cons x items ih =>
    obtain ⟨v, value, first⟩ := h x List.mem_cons_self
    obtain ⟨vs, values, rest⟩ := ih fun y member => h y (List.mem_cons_of_mem x member)
    refine ⟨v :: vs, value.bind (values.bind_pure (v :: ·)), ?_⟩
    rw [Value.itemsJson, first, rest, List.map_cons]

theorem shows_items (c : Counted α) (h : ∀ x ∈ c.items, Shows item (wire x) (shown x))
    (nonempty : ∀ x ∈ c.items, wire x ≠ []) :
    Shows (do let n ← Stream.count; return .list (← times item n)) (c.wire wire)
      (c.shown shown) := by
  obtain ⟨vs, values, same⟩ := shows_times h
  have room := Reads.length_le_flatMap nonempty
  refine ⟨.list vs, Reads.count_bind c.short room (values.bind_pure Value.list), ?_⟩
  rw [Value.toJson, same, Counted.shown]

theorem shows_list {negative : Fault} (c : Counted α) (h : ∀ x, Shows item (wire x) (shown x)) :
    Shows (do let n ← readListCount negative; return .list (← times item n)) (c.wire wire)
      (c.shown shown) := by
  obtain ⟨vs, values, same⟩ := shows_times fun x (_ : x ∈ c.items) => h x
  refine ⟨.list vs, (reads_listCount c.short).bind ?_, ?_⟩
  · exact values.bind_pure Value.list
  · rw [Value.toJson, same, Counted.shown]

end Items

theorem shows_counted {α : Type} (wire : α → List UInt8) (shown : α → Json) (c : Counted α)
    (h : ∀ x, Shows layout.read (wire x) (shown x)) (nonempty : ∀ x, wire x ≠ []) :
    Shows (Layout.counted layout).read (c.wire wire) (c.shown shown) := by
  rw [Layout.read]
  exact shows_items c (fun x _ => h x) fun x _ => nonempty x

theorem signed_bits {width bits : Nat} (n : BitVec bits)
    (span : Number.wordSpan width = Nat.pow 2 bits) (even : Number.wordSpan width % 2 = 0) :
    Reads (Stream.signed width) (Number.toSignedBytes width n.toInt) n.toInt := by
  have wide := Int.natCast_pow 2 bits
  refine Reads.signed even ?_ ?_
  · rw [span, Nat.pow_eq, wide]
    exact BitVec.le_two_mul_toInt
  · rw [span, Nat.pow_eq, wide]
    exact BitVec.two_mul_toInt_lt

theorem signed_i32 (n : Int32) : Reads (Stream.signed 4) (i32 n) n.toInt :=
  signed_bits n.toBitVec rfl rfl

theorem signed_i64 (n : Int64) : Reads (Stream.signed 8) (i64 n) n.toInt :=
  signed_bits n.toBitVec rfl rfl

theorem shows_u8 (n : UInt8) : Shows Layout.u8.read [n] (.nat n.toNat) := by
  refine ⟨.number n.toNat, ?_, rfl⟩
  have one : Reads (Stream.take 1) [n] [n] := Reads.take rfl
  have byte : Reads (Stream.word 1) [n] n.toNat := Reads.map Number.ofBytes one
  rw [Layout.read]
  exact byte.bind_pure fun n : Nat => Value.number n

theorem shows_u32 (n : UInt32) : Shows Layout.u32.read (u32 n) (.nat n.toNat) := by
  refine ⟨.number n.toNat, ?_, rfl⟩
  rw [Layout.read]
  exact (Reads.word n.toNat_lt).bind_pure fun n : Nat => Value.number n

theorem shows_u64 (n : UInt64) : Shows Layout.u64.read (u64 n) (decimal n.toNat) := by
  refine ⟨.wide n.toNat, ?_, rfl⟩
  rw [Layout.read]
  exact (Reads.word n.toNat_lt).bind_pure fun n : Nat => Value.wide n

theorem shows_i64 (n : Int64) : Shows Layout.i64.read (i64 n) (decimal n.toInt) := by
  refine ⟨.wide n.toInt, ?_, rfl⟩
  rw [Layout.read]
  exact (signed_i64 n).bind_pure Value.wide

theorem shows_fixed {size : Nat} (b : Fixed size) :
    Shows (Layout.fixed size).read b.bytes (hex b.bytes) := by
  refine ⟨.bytes b.bytes, ?_, rfl⟩
  rw [Layout.read]
  exact (Reads.take b.length).bind_pure Value.bytes

theorem shows_key (k : Key) : Shows Layout.key.read k.bytes (hex k.bytes) := shows_fixed k

theorem shows_bytes (b : Blob) : Shows Layout.bytes.read b.wire (hex b.bytes) := by
  refine ⟨.bytes b.bytes, ?_, rfl⟩
  rw [Layout.read]
  exact (Reads.byteArray b.short).bind_pure Value.bytes

theorem shows_text (s : ShortText) : Shows Layout.smallText.read s.wire (.str s.text) := by
  refine ⟨.text s.text, ?_, rfl⟩
  rw [Layout.read]
  exact (Reads.smallText s.short).bind_pure fun s : String => Value.text s

theorem shows_signed (n : Signed) : Shows Layout.intx.read n.wire (decimal n.value) := by
  refine ⟨.wide n.value, ?_, rfl⟩
  rw [Layout.read]
  exact (Reads.intx n.short).bind_pure Value.wide

theorem fields_payer (payer : Option Key) (h : FieldsShow fields back members) :
    FieldsShow (burnParties payer.isSome ++ fields) (payerBytes payer ++ back)
      (Json.member? "from" (payer.map fun k => hex k.bytes) ++ members) := by
  cases payer with
  | none => exact h
  | some k => exact fields_cons "from" (shows_key k) h

theorem fixed_ne_nil {size : Nat} (b : Fixed (size + 1)) : b.bytes ≠ [] := by
  intro none
  have length := b.length
  rw [none] at length
  cases length

theorem key_ne_nil (k : Key) : k.bytes ≠ [] := fixed_ne_nil k

theorem u64_ne_nil (n : UInt64) : u64 n ≠ [] := List.cons_ne_nil _ _

theorem shows_instances (c : Counted UInt64) :
    Shows (Layout.counted .u64).read (c.wire u64) (instancesShown c) :=
  shows_counted u64 (fun n => decimal n.toNat) c shows_u64 u64_ne_nil

theorem shows_transfer (payer : Option Key) (receiver : Key) (token : UInt64) (name : String)
    (h : Shows layout.read back j) :
    Shows
      (Layout.record (transferParties payer.isSome ++ [("token_id", .u64), (name, layout)])).read
      (receiver.bytes ++ payerBytes payer ++ u64 token ++ back)
      (withPayer [("to", hex receiver.bytes)] payer
        [("token_id", decimal token.toNat), (name, j)]) := by
  have sent := fields_cons "token_id" (shows_u64 token) (fields_last name h)
  have whole := shows_record (fields_cons "to" (shows_key receiver) (fields_payer payer sent))
  simp only [List.append_assoc]
  exact whole

theorem shows_burn (payer : Option Key) (token : UInt64) (name : String)
    (h : Shows layout.read back j) :
    Shows
      (Layout.record (("token_id", .u64) :: burnParties payer.isSome ++ [(name, layout)])).read
      (u64 token ++ payerBytes payer ++ back)
      (withPayer [("token_id", decimal token.toNat)] payer [(name, j)]) := by
  have burned := fields_payer payer (fields_last name h)
  have whole := shows_record (fields_cons "token_id" (shows_u64 token) burned)
  simp only [List.append_assoc]
  exact whole

theorem shows_fungibleTransfer (payer : Option Key) (m : FungibleTransfer) :
    Shows (Layout.transferFungible payer.isSome).read (m.wire payer) (m.shown payer) :=
  shows_transfer payer m.receiver m.token "amount" (shows_u64 m.amount)

theorem shows_nftTransfer (payer : Option Key) (m : NftTransfer) :
    Shows (Layout.transferNftSingle payer.isSome).read (m.wire payer) (m.shown payer) :=
  shows_transfer payer m.receiver m.token "instance_id" (shows_u64 m.instanceId)

theorem shows_nftTransfers (payer : Option Key) (m : NftTransfers) :
    Shows (Layout.transferNftMulti payer.isSome).read (m.wire payer) (m.shown payer) :=
  shows_transfer payer m.receiver m.token "instance_ids" (shows_instances m.instances)

theorem shows_fungibleBurn (payer : Option Key) (m : FungibleBurn) :
    Shows (Layout.burnFungible payer.isSome).read (m.wire payer) (m.shown payer) :=
  shows_burn payer m.token "amount" (shows_signed m.amount)

theorem shows_nftBurn (payer : Option Key) (m : NftBurn) :
    Shows (Layout.burnNft payer.isSome).read (m.wire payer) (m.shown payer) :=
  shows_burn payer m.token "instance_ids" (shows_instances m.instances)

theorem shows_fungibleMint (m : FungibleMint) :
    Shows Layout.mintFungible.read m.wire m.shown := by
  have whole := shows_record (fields_cons "token_id" (shows_u64 m.token)
    (fields_cons "to" (shows_key m.receiver) (fields_last "amount" (shows_signed m.amount))))
  rw [FungibleMint.wire]
  simp only [List.append_assoc]
  exact whole

theorem shows_nftMint (m : NftMint) : Shows Layout.mintNft.read m.wire m.shown := by
  have content := fields_cons "rom" (shows_bytes m.rom) (fields_last "ram" (shows_bytes m.ram))
  have whole := shows_record (fields_cons "token_id" (shows_u64 m.token)
    (fields_cons "to" (shows_key m.receiver)
      (fields_cons "series_id" (shows_u32 m.series) content)))
  rw [NftMint.wire]
  simp only [List.append_assoc]
  exact whole

theorem shows_script (m : Script) : Shows Layout.phantasma.read m.wire m.shown := by
  have whole := shows_record (fields_cons "nexus" (shows_text m.nexus)
    (fields_cons "chain" (shows_text m.chain) (fields_last "script" (shows_bytes m.script))))
  rw [Script.wire]
  simp only [List.append_assoc]
  exact whole

theorem shows_raw (transaction : Blob) :
    Shows Layout.phantasmaRaw.read transaction.wire
      (.obj [("transaction", hex transaction.bytes)]) :=
  shows_record (fields_last "transaction" (shows_bytes transaction))

/-- Every item of a trade begins with a key or a token, so none is written in no bytes. -/
theorem shows_trade (t : Trade) : Shows Layout.trade.read t.wire t.shown := by
  have transfers : Shows (Layout.counted (.transferFungible true)).read _ _ :=
    shows_counted (Paid.wire FungibleTransfer.wire) (Paid.shown FungibleTransfer.shown) t.transfers
      (fun m => shows_fungibleTransfer (some m.payer) m.message)
      fun m => by simp [Paid.wire, FungibleTransfer.wire, key_ne_nil]
  have nftTransfers : Shows (Layout.counted (.transferNftMulti true)).read _ _ :=
    shows_counted (Paid.wire NftTransfers.wire) (Paid.shown NftTransfers.shown) t.nftTransfers
      (fun m => shows_nftTransfers (some m.payer) m.message)
      fun m => by simp [Paid.wire, NftTransfers.wire, key_ne_nil]
  have mints := shows_counted FungibleMint.wire FungibleMint.shown t.mints shows_fungibleMint
    fun m => by simp [FungibleMint.wire, u64_ne_nil]
  have burns : Shows (Layout.counted (.burnFungible true)).read _ _ :=
    shows_counted (Paid.wire FungibleBurn.wire) (Paid.shown FungibleBurn.shown) t.burns
      (fun m => shows_fungibleBurn (some m.payer) m.message)
      fun m => by simp [Paid.wire, FungibleBurn.wire, u64_ne_nil]
  have nftMints := shows_counted NftMint.wire NftMint.shown t.nftMints shows_nftMint
    fun m => by simp [NftMint.wire, u64_ne_nil]
  have nftBurns : Shows (Layout.counted (.burnNft true)).read _ _ :=
    shows_counted (Paid.wire NftBurn.wire) (Paid.shown NftBurn.shown) t.nftBurns
      (fun m => shows_nftBurn (some m.payer) m.message)
      fun m => by simp [Paid.wire, NftBurn.wire, u64_ne_nil]
  have whole := shows_record (fields_cons "transfer_f" transfers
    (fields_cons "transfer_n" nftTransfers (fields_cons "mint_f" mints
      (fields_cons "burn_f" burns (fields_cons "mint_n" nftMints
        (fields_last "burn_n" nftBurns))))))
  rw [Trade.wire]
  simp only [List.append_assoc]
  exact whole

theorem reads_section (s : Section) : Reads RawCall.readSection s.wire s.raw := by
  by_cases h : 0 ≤ s.offset.toInt
  · have args := (Reads.byteArray s.args.short).bind_pure (RawSection.mk s.offset.toInt)
    rw [Section.wire, if_pos h]
    refine (signed_i32 s.offset).bind ?_
    rw [if_pos h]
    exact args
  · have bare := s.bare (by omega)
    rw [Section.wire, if_neg h, Section.raw, bare]
    refine (signed_i32 s.offset).bind ?_
    rw [if_neg h]
    exact Reads.pure _

theorem reads_call (c : Call) : Reads RawCall.read c.wire c.raw := by
  have module : Reads (Stream.word 4) (u32 c.module) c.module.toNat := Reads.word c.module.toNat_lt
  have method : Reads (Stream.word 4) (u32 c.method) c.method.toNat := Reads.word c.method.toNat_lt
  have span : Number.wordSpan 4 = 0x100000000 := rfl
  unfold Call.wire RawCall.read
  rw [List.append_assoc]
  refine module.bind (method.bind ?_)
  unfold Call.raw
  cases c.content with
  | plain args =>
    refine (Reads.signedCount args.short).bind ?_
    rw [if_pos (by omega)]
    exact (Reads.take rfl).bind_pure fun args => RawCall.mk _ _ args none
  | sections items some most =>
    have length : Reads (Stream.signed 4) (Number.toSignedBytes 4 (-(items.length : Int)))
        (-(items.length : Int)) :=
      Reads.signed (by rw [span]) (by omega) (by omega)
    refine length.bind ?_
    rw [if_neg (by omega), Int.natAbs_neg, Int.natAbs_natCast]
    have sections := Reads.times fun s (_ : s ∈ items) => reads_section s
    exact sections.bind_pure fun sections => RawCall.mk _ _ [] (Option.some sections)

theorem call_ne_nil (c : Call) : c.wire ≠ [] := List.cons_ne_nil _ _

theorem reads_calls (items : Counted Call) :
    Reads RawCall.readMany (items.wire Call.wire) (items.items.map Call.raw) :=
  Reads.counted items.short (fun c _ => reads_call c) fun c _ => call_ne_nil c

theorem section_shown (s : Section) : s.raw.toValue.toJson = s.shown := rfl

theorem call_shown (c : Call) : c.raw.toValue.toJson = c.shown := by
  unfold Call.raw Call.shown
  cases c.content with
  | plain args => rfl
  | sections items some most =>
    have same : Value.itemsJson ((items.map Section.raw).map RawSection.toValue) =
        items.map Section.shown := by
      rw [List.map_map, itemsJson_map]
      exact List.map_congr_left fun s _ => section_shown s
    simp only [RawCall.toValue, Value.toJson, Value.fieldsJson, same, CallContent.shown]
    rfl

end ChainDecode.Carbon.Wire
