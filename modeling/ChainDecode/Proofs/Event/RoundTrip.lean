import ChainDecode.Event.Decode
import ChainDecode.Proofs.Event.Content
import ChainDecode.Proofs.Event.Kinds
import ChainDecode.Proofs.Event.Reporting

/-! # Events are read back

An event of a kind with a layout shows what was encoded. Bytes behind it are counted in a warning,
and there is no other.
-/
namespace ChainDecode.Event

open Buffer (Varint)

namespace Written

/-- The type as which a value is read. -/
def type : Written → FieldType
  | text _ => .text
  | big _ => .big
  | address _ => .address
  | hash _ => .hash
  | key _ => .key
  | bytes _ => .bytes
  | time _ => .time
  | auctionType _ => .auctionType
  | saleKind _ => .saleKind
  | restBytes _ => .restBytes
  | restNumber _ => .restNumber

/-- What a value is read as. -/
def value : Written → FieldValue
  | text s => .text s.text
  | big n => .number n.value
  | address a => .address a.address
  | hash h => .bytes h.hash.data
  | key k => .bytes k.data
  | bytes data => .bytes data.data
  | time seconds => .time seconds.toNat
  | auctionType code => .auctionType code.value
  | saleKind code => .saleKind code.value
  | restBytes data => .bytes data
  | restNumber n => .number n.value

theorem reads_address (a : SizedAddress) :
    Reads readAddress (a.size.wire ++ a.address.bytes) a.address := by
  obtain ⟨size, ⟨tag, reserved, key, long⟩, exact⟩ := a
  have length : (tag :: reserved :: key).length = size.value := by
    rw [exact, List.length_cons, List.length_cons, long]
    rfl
  have known : Address.ofBytes (tag :: reserved :: key) = .ok ⟨tag, reserved, key, long⟩ :=
    dif_pos long
  have bytes : Reads readBytes (size.wire ++ (tag :: reserved :: key)) (tag :: reserved :: key) :=
    Reads.bufferArray_form size length
  rw [← List.append_nil (size.wire ++ _)]
  refine bytes.bind ?_
  rw [known]
  exact .pure _

theorem reads_hash (h : SizedHash) : Reads readHash (h.size.wire ++ h.hash.data) h.hash.data := by
  have length : h.hash.data.length = h.size.value := h.hash.exact.trans h.exact.symm
  have bytes : Reads readBytes (h.size.wire ++ h.hash.data) h.hash.data :=
    Reads.bufferArray_form h.size length
  rw [← List.append_nil (h.size.wire ++ _)]
  refine bytes.bind ?_
  rw [if_pos h.hash.exact]
  exact .pure _

theorem reads {w : Written} (closed : w.isOpen = false) : Reads w.type.read w.wire w.value := by
  cases w with
  | text s => exact (Reads.bufferText_form _ s.exact).bind_pure _
  | big n => exact (Reads.bigInteger n.low n.high).bind_pure _
  | address a => exact (reads_address a).bind_pure _
  | hash h => exact (reads_hash h).bind_pure _
  | key k => exact Reads.bind_pure (r := Buffer.take label 32) _ (.take k.exact)
  | bytes data => exact (Reads.bufferArray_form _ data.exact).bind_pure _
  | time seconds => exact (Reads.timestamp label seconds).bind_pure _
  | auctionType code => exact (Reads.varint_form code).bind_pure _
  | saleKind code => exact (Reads.varint_form code).bind_pure _
  | restBytes data => cases closed
  | restNumber n => cases closed

theorem rest_read {w : Written} (all : w.isOpen = true) :
    w.type.read (.start w.wire) = .ok w.value ⟨w.wire.length, []⟩ := by
  cases w with
  | restBytes data =>
    rw [type, FieldType.read, wire, bind_ok (rest_all data)]
    rfl
  | restNumber n =>
    have number := Number.ofSignedBytes_of_fits n.low n.high
    have numeral : Number.numeral n.value = .ok (toString n.value) :=
      if_neg fun long => Nat.not_le.mpr n.short (Number.isLong_iff.mp long)
    have read : readRestNumber (.start (restNumber n).wire) =
        .ok n.value ⟨(restNumber n).wire.length, []⟩ := by
      rw [readRestNumber, bind_ok (rest_all _), wire, number, numeral]
      rfl
    rw [type, FieldType.read, bind_ok read]
    rfl
  | _ => cases all

end Written

theorem reads_fields {fields : List (String × Written)}
    (closed : ∀ f ∈ fields, f.2.isOpen = false) :
    Reads (readFields (fields.map fun f => (f.1, f.2.type))) (fields.flatMap (·.2.wire))
      (fields.map fun f => (f.1, f.2.value)) := by
  induction fields with
  | nil => exact .pure _
  | cons f fields ih =>
    have first := Written.reads (closed f List.mem_cons_self)
    have others := ih fun g member => closed g (List.mem_cons_of_mem f member)
    exact first.bind (others.bind_pure _)

namespace Content

def labels : Content → List String
  | tokenCreate .. => ["symbol"]
  | token .. => ["symbol", "value", "chain"]
  | gas .. => ["address", "price", "amount"]
  | organization .. => ["organization"]
  | membership .. => ["organization", "member"]
  | setting .. => ["name", "value"]
  | auction .. => ["type", "base_symbol", "quote_symbol", "id", "price", "end_price"]
  | infusion .. => ["base_symbol", "token_id", "infused_symbol", "infused_value", "chain"]
  | masterClaim .. => ["symbol", "value", "chain", "claim_date"]
  | chainSwap .. => ["hash", "platform", "chain"]
  | naming .. => ["name"]
  | poll .. => ["subject"]
  | account .. => ["address"]
  | file .. => ["hash"]
  | owner .. => ["hash"]
  | packed .. => ["symbol", "rom_hex", "ram_hex"]
  | sale .. => ["sale_hash", "kind"]
  | channel .. => ["data_hex"]
  | refill .. => ["count"]
  | score .. => ["address", "score"]
  | message .. => ["message"]
  | task .. => ["value"]

def labelled (c : Content) : List (String × Written) := c.labels.zip c.fields

def isAuction : Content → Bool
  | auction .. => true
  | _ => false

def layout (c : Content) : Layout := ⟨c.labelled.map fun f => (f.1, f.2.type), c.isAuction⟩

theorem layout_of_kind (c : Content) : ∀ name ∈ c.kinds, Layout.ofKind? name = some c.layout := by
  cases c <;> exact of_decide_eq_true rfl

theorem labelled_wire (c : Content) : c.labelled.flatMap (·.2.wire) = c.wire := by
  cases c <;> rfl

theorem auctionName_eq (code : Nat) :
    auctionTypes.getD code s!"TypeAuction_{code}" = auctionName code := by
  match code with
  | 0 | 1 | 2 | 3 => rfl
  | _ + 4 => rfl

theorem saleName_eq (code : Nat) :
    saleKinds.getD code s!"SaleEventKind_{code}" = saleName code := by
  match code with
  | 0 | 1 | 2 | 3 | 4 | 5 | 6 | 7 | 8 => rfl
  | _ + 9 => rfl

theorem shown_layout (c : Content) :
    c.layout.toJson (c.labelled.map fun f => (f.1, f.2.value)) = .obj c.shown := by
  cases c with
  | auction base quote id price endPrice type =>
    rw [shown, ← auctionName_eq]
    rfl
  | sale hash kind =>
    rw [shown, ← saleName_eq]
    rfl
  | _ => rfl

/-- What takes all bytes is the only value of its event. -/
theorem open_alone {c : Content} (all : c.isOpen = true) :
    ∃ name w, c.labelled = [(name, w)] ∧ w.isOpen = true := by
  cases c with
  | channel data => exact ⟨_, _, rfl, rfl⟩
  | task n => exact ⟨_, _, rfl, rfl⟩
  | _ => cases all

theorem fields_read (c : Content) {tail : List UInt8} (alone : c.isOpen = true → tail = []) :
    (readFields c.layout.fields).onBytes (c.wire ++ tail) =
      .ok (c.labelled.map fun f => (f.1, f.2.value), ⟨c.wire.length, tail⟩) := by
  have layout : c.layout.fields = c.labelled.map fun f => (f.1, f.2.type) := rfl
  by_cases all : c.isOpen = true
  · obtain ⟨name, w, only, rest⟩ := open_alone all
    have bytes : c.wire = w.wire := by simp [← labelled_wire, only]
    rw [alone all, List.append_nil, layout, only, bytes, Read.onBytes, EStateM.run,
      List.map_singleton, readFields, bind_ok (Written.rest_read rest)]
    rfl
  · rw [layout, ← labelled_wire]
    refine (reads_fields fun f member => ?_).onBytes tail
    have inside := (List.of_mem_zip (a := f.1) (b := f.2) member).2
    have closed : ∀ w ∈ c.fields, ¬ w.isOpen = true := by simpa [isOpen] using all
    exact Bool.eq_false_iff.mpr (closed f.2 inside)

/-- An event shows its kind, its bytes and what it holds. One line counts the bytes behind it. -/
theorem decodeKind_wire (c : Content) {kind : Kind} (known : kind.name ∈ c.kinds)
    {tail : List UInt8} (alone : c.isOpen = true → tail = []) :
    ∃ e, decodeKind (c.wire ++ tail) kind = .ok (e,
        if tail = [] then []
        else [Text.ofString s!"legacy event decode left {tail.length} trailing bytes"]) ∧
      e.toJson = .obj [("kind", .str kind.name), ("kind_id", .nat kind.id),
        ("raw_hex", .str (Text.Hex.encode (c.wire ++ tail))), ("decoded", .obj c.shown)] := by
  refine ⟨⟨c.wire ++ tail, some kind.name, some kind.id,
    some (c.layout, c.labelled.map fun f => (f.1, f.2.value))⟩, ?_, ?_⟩
  · rw [decodeKind, c.layout_of_kind kind.name known]
    dsimp only
    rw [c.fields_read alone]
    cases tail <;> rfl
  · rw [← c.shown_layout]
    rfl

theorem mem_names : ∀ e ∈ Layout.table, ∀ name ∈ e.1, name ∈ Kind.names := by decide

theorem ofHint_kinds {c : Content} {name : String} (known : name ∈ c.kinds) :
    ∃ id, Kind.ofHint (some (Text.ofString name)) = .ok (some ⟨id, name⟩) := by
  obtain ⟨kinds, listed, inside⟩ := mem_table (c.layout_of_kind name known)
  obtain ⟨id, place⟩ := List.getElem?_of_mem (mem_names _ listed name inside)
  exact ⟨id, Kind.ofHint_name place⟩

def noText : Rom.SizedText := ⟨.byte 0 (by decide), "", by decide +kernel⟩

def noBytes : Rom.Sized := ⟨.byte 0 (by decide), [], rfl⟩

def zero : Rom.Signed := ⟨0, 0, by decide, by decide⟩

def zeroKey : Key := ⟨List.replicate 32 0, rfl⟩

def zeroHash : SizedHash := ⟨.byte 32 (by decide), zeroKey, rfl⟩

def nobody : SizedAddress := ⟨.byte 34 (by decide), Address.zero, rfl⟩

theorem zero_short (digits : Nat) : Int.natAbs 0 < Nat.pow 10 digits := Nat.pow_pos (by decide)

def blanks : List Content :=
  [.tokenCreate noText, .token noText zero noText, .gas nobody zero zero, .organization noText,
    .membership noText nobody, .setting noText zero,
    .auction noText noText zero zero zero (.byte 0 (by decide)),
    .infusion noText zero noText zero noText, .masterClaim noText zero noText 0,
    .chainSwap zeroHash noText noText, .naming noText, .poll noText, .account nobody,
    .file zeroHash, .owner zeroKey, .packed noText noBytes noBytes,
    .sale zeroHash (.byte 0 (by decide)), .channel [], .refill zero, .score nobody zero,
    .message noText, .task ⟨0, 0, by decide, by decide, zero_short _⟩]

theorem layout_known (name : String) :
    (Layout.ofKind? name).isSome = true ↔ ∃ c : Content, name ∈ c.kinds := by
  constructor
  · intro known
    obtain ⟨layout, known⟩ := Option.isSome_iff_exists.mp known
    obtain ⟨kinds, listed, inside⟩ := mem_table known
    have table : ∀ e ∈ Layout.table, ∀ name ∈ e.1, ∃ c ∈ blanks, name ∈ c.kinds := by decide
    obtain ⟨c, -, named⟩ := table _ listed name inside
    exact ⟨c, named⟩
  · rintro ⟨c, named⟩
    rw [c.layout_of_kind name named]
    rfl

end Content

/-- Every kind with a layout has contents described here, and its name is a hint for it. An event
of such a kind is shown as it was written, before any bytes unless it takes all of them, and nothing
is told but how many follow. -/
theorem events_are_read_back :
    (∀ name, (Layout.ofKind? name).isSome = true ↔ ∃ c : Content, name ∈ c.kinds) ∧
    ∀ c : Content,
      (∀ name ∈ c.kinds, ∃ id, Kind.ofHint (some (Text.ofString name)) = .ok (some ⟨id, name⟩)) ∧
      ∀ (hint : Option Text) (kind : Kind) (tail : List UInt8),
        Kind.ofHint hint = .ok (some kind) → kind.name ∈ c.kinds →
        (c.isOpen = true → tail = []) →
          ∃ e, decode (c.wire ++ tail) hint = .ok (e,
              if tail = [] then []
              else [Text.ofString s!"legacy event decode left {tail.length} trailing bytes"]) ∧
            e.toJson = .obj [("kind", .str kind.name), ("kind_id", .nat kind.id),
              ("raw_hex", .str (Text.Hex.encode (c.wire ++ tail))), ("decoded", .obj c.shown)] := by
  refine ⟨Content.layout_known, fun c => ⟨fun name => Content.ofHint_kinds, ?_⟩⟩
  intro hint kind tail named known alone
  rw [decode, named]
  exact c.decodeKind_wire known alone

/-- A classic auction of a crown for ten. -/
def classicAuction : Content :=
  .auction ⟨.byte 5 (by decide), "CROWN", by decide +kernel⟩
    ⟨.byte 4 (by decide), "SOUL", by decide +kernel⟩ ⟨1, 7, by decide, by decide⟩
    ⟨1, 10, by decide, by decide⟩ Content.zero (.byte 1 (by decide))

/-- The type is written first and shown last, and a byte behind the event is counted. -/
theorem classicAuction_read_back :
    Kind.ofHint (some (Text.ofString "OrderCreated")) = .ok (some ⟨18, "OrderCreated"⟩) ∧
      "OrderCreated" ∈ classicAuction.kinds ∧ classicAuction.isOpen = false ∧
      ∃ e, decode (classicAuction.wire ++ [0]) (some (Text.ofString "OrderCreated")) =
          .ok (e, [Text.ofString "legacy event decode left 1 trailing bytes"]) ∧
        e.toJson = .obj [("kind", .str "OrderCreated"), ("kind_id", .nat 18),
          ("raw_hex", .str (Text.Hex.encode (classicAuction.wire ++ [0]))),
          ("decoded", .obj classicAuction.shown)] := by
  have named : Kind.ofHint (some (Text.ofString "OrderCreated")) =
      .ok (some ⟨18, "OrderCreated"⟩) := Kind.ofHint_name (by decide)
  have known : "OrderCreated" ∈ classicAuction.kinds := by decide
  have closed : classicAuction.isOpen = false := rfl
  obtain ⟨e, done, shown⟩ :=
    (events_are_read_back.2 classicAuction).2 _ _ [0] named known (by simp [closed])
  exact ⟨named, known, closed, e, done, shown⟩

end ChainDecode.Event
