import ChainDecode.Proofs.Carbon.CallWarning
import ChainDecode.Proofs.Carbon.RoundTrip

/-! # Reading Carbon transactions back

The type in front of an envelope selects the layout of its message. Bytes behind an envelope are
counted in a warning, which no warning about calls can be taken for.
-/
namespace ChainDecode.Carbon

theorem readOf_code (type : TxType) : Message.readOf (.nat type.code) = Message.read type := by
  cases type <;> rfl

theorem nameOf_code (type : TxType) : TxType.nameOf (.nat type.code) = type.name := by
  cases type <;> rfl

/-- The warning about bytes behind a transaction. -/
def leftover (n : Nat) : Text := s!"Carbon decode left {n} trailing bytes"

theorem trailing_eq (p : Nat) (rest : List UInt8) :
    Transaction.trailing ⟨p, rest⟩ = if rest = [] then [] else [leftover rest.length] := by
  cases rest with
  | nil => rfl
  | cons b rest => rfl

theorem leftover_letters (n : Nat) :
    (leftover n).letters = (Text.ofString "Carbon decode left ").letters ++
      ((Text.ofString (toString n)).letters ++ (Text.ofString " trailing bytes").letters) := by
  rw [leftover, Text.ofString_append, Text.ofString_append, Text.append_assoc]
  rfl

theorem leftover_not_call (n : Nat) : ¬ TellsOfCall (leftover n) := by
  rintro ⟨back, same⟩
  have third : ((Text.ofString "Call arg").letters ++ back)[2]? = (leftover n).letters[2]? := by
    rw [same]
  rw [leftover_letters, List.getElem?_append_left (by decide),
    List.getElem?_append_left (by decide)] at third
  exact absurd third (by decide)

theorem leftover_inj {n m : Nat} (h : leftover n = leftover m) : n = m := by
  have letters := congrArg Text.letters h
  rw [leftover_letters, leftover_letters] at letters
  have digits := List.append_cancel_right (List.append_cancel_left letters)
  have strings : toString n = toString m := Text.ofString_inj.mp (congrArg Text.mk digits)
  have back : ∀ k : Nat, Nat.ofDigitChars 10 (toString k).toList 0 = k := by
    intro k
    rw [Nat.toString_eq_repr, Nat.toList_repr]
    exact Nat.ofDigitChars_toDigits (by omega) (by omega)
  rw [← back n, strings, back m]

namespace Wire

/-- The type of a message. -/
def Message.kind : Message → TxType
  | call _ => .call
  | calls _ => .callMulti
  | trade _ => .trade
  | transferFungible _ => .transferFungible
  | transferFungibleGasPayer _ => .transferFungibleGasPayer
  | transferNftSingle _ => .transferNftSingle
  | transferNftSingleGasPayer _ => .transferNftSingleGasPayer
  | transferNftMulti _ => .transferNftMulti
  | transferNftMultiGasPayer _ => .transferNftMultiGasPayer
  | mintFungible _ => .mintFungible
  | burnFungible _ => .burnFungible
  | burnFungibleGasPayer _ => .burnFungibleGasPayer
  | mintNft _ => .mintNft
  | burnNft _ => .burnNft
  | burnNftGasPayer _ => .burnNftGasPayer
  | phantasma _ => .phantasma
  | phantasmaRaw _ => .phantasmaRaw

theorem type_eq (m : Message) : m.type = (m.kind.code, m.kind.name) := by
  cases m <;> rfl

def Recovers (read : Carbon.Message) (m : Message) : Prop :=
  Reads (Carbon.Message.read m.kind) m.wire read ∧ read.toValue.toJson = m.shown ∧
    read.decodeCalls = m.decodedCalls

theorem recovers_layout {m : Message} {layout : Layout} (kind : m.kind.layout? = some layout)
    (h : Shows layout.read m.wire m.shown) (plain : m.decodedCalls = (.none, [])) :
    ∃ read, Recovers read m := by
  obtain ⟨v, value, shown⟩ := h
  refine ⟨.fields v, ?_, shown, plain.symm⟩
  rw [Carbon.Message.read, kind]
  exact value.bind_pure Carbon.Message.fields

theorem recovers_message (m : Message) : ∃ read, Recovers read m := by
  cases m with
  | call c => exact ⟨.call c.raw, (reads_call c).bind_pure _, call_shown c, rfl⟩
  | calls items =>
    refine ⟨.calls (items.items.map Call.raw), (reads_calls items).bind_pure _, ?_, rfl⟩
    have same : Value.itemsJson ((items.items.map Call.raw).map RawCall.toValue) =
        items.items.map Call.shown := by
      rw [List.map_map, itemsJson_map]
      exact List.map_congr_left fun c _ => call_shown c
    simp only [Carbon.Message.toValue, Value.toJson, Value.fieldsJson, same]
    rfl
  | trade t => exact recovers_layout rfl (shows_trade t) rfl
  | transferFungible m => exact recovers_layout rfl (shows_fungibleTransfer none m) rfl
  | transferFungibleGasPayer m =>
    exact recovers_layout rfl (shows_fungibleTransfer (some m.payer) m.message) rfl
  | transferNftSingle m => exact recovers_layout rfl (shows_nftTransfer none m) rfl
  | transferNftSingleGasPayer m =>
    exact recovers_layout rfl (shows_nftTransfer (some m.payer) m.message) rfl
  | transferNftMulti m => exact recovers_layout rfl (shows_nftTransfers none m) rfl
  | transferNftMultiGasPayer m =>
    exact recovers_layout rfl (shows_nftTransfers (some m.payer) m.message) rfl
  | mintFungible m => exact recovers_layout rfl (shows_fungibleMint m) rfl
  | burnFungible m => exact recovers_layout rfl (shows_fungibleBurn none m) rfl
  | burnFungibleGasPayer m =>
    exact recovers_layout rfl (shows_fungibleBurn (some m.payer) m.message) rfl
  | mintNft m => exact recovers_layout rfl (shows_nftMint m) rfl
  | burnNft m => exact recovers_layout rfl (shows_nftBurn none m) rfl
  | burnNftGasPayer m => exact recovers_layout rfl (shows_nftBurn (some m.payer) m.message) rfl
  | phantasma m => exact recovers_layout rfl (shows_script m) rfl
  | phantasmaRaw transaction => exact recovers_layout rfl (shows_raw transaction) rfl

def Witness.raw (w : Witness) : Carbon.Witness := ⟨w.address.bytes, w.signature.bytes⟩

theorem reads_witness (w : Witness) : Reads Carbon.Envelope.readWitness w.wire w.raw :=
  (Reads.take w.address.length).bind
    ((Reads.take w.signature.length).bind_pure (Carbon.Witness.mk w.address.bytes))

theorem reads_witnesses (items : Counted Witness) :
    Reads Carbon.Envelope.readWitnesses (items.wire Witness.wire) (items.items.map Witness.raw) :=
  Reads.counted items.short (fun w _ => reads_witness w) fun w _ => by
    simp [Witness.wire, key_ne_nil]

/-- What an envelope is read as, given what its message is read as. -/
def Envelope.raw (e : Envelope) (message : Carbon.Message) : Carbon.Envelope :=
  ⟨e.message.type.1, e.expiry.toInt, e.maxGas.toNat, e.maxData.toNat, e.gasFrom.bytes,
    e.payload.text, message, e.witnesses.items.map Witness.raw⟩

theorem reads_envelope {e : Envelope} {message : Carbon.Message} (h : Recovers message e.message) :
    Reads Carbon.Envelope.read e.wire (e.raw message) := by
  have type : Reads (Stream.word 1) (Number.toBytes 1 e.message.type.1) e.message.type.1 := by
    refine Reads.word ?_
    rw [type_eq]
    cases e.message.kind <;> decide
  have gas : Reads (Stream.word 8) (u64 e.maxGas) e.maxGas.toNat := Reads.word e.maxGas.toNat_lt
  have data : Reads (Stream.word 8) (u64 e.maxData) e.maxData.toNat :=
    Reads.word e.maxData.toNat_lt
  have content : Reads (Carbon.Message.readOf (.nat e.message.type.1)) e.message.wire message := by
    rw [type_eq, readOf_code]
    exact h.1
  unfold Envelope.wire Carbon.Envelope.read
  simp only [List.append_assoc]
  refine type.bind ((signed_i64 e.expiry).bind (gas.bind (data.bind
    ((Reads.take e.gasFrom.length).bind ((Reads.smallText e.payload.short).bind ?_)))))
  exact content.bind ((reads_witnesses e.witnesses).bind_pure fun witnesses =>
    Carbon.Envelope.mk _ _ _ _ _ _ message witnesses)

theorem decode_wire {e : Envelope} {message : Carbon.Message} (h : Recovers message e.message)
    (rest : List UInt8) :
    Transaction.decode (e.wire ++ rest) =
      .ok ((Transaction.ofEnvelope (e.raw message)).1,
        (if rest = [] then [] else [leftover rest.length]) ++ e.message.decodedCalls.2) := by
  rw [← trailing_eq e.wire.length, ← h.2.2, Transaction.decode, (reads_envelope h).onBytes rest]
  rfl

theorem shown_wire {e : Envelope} {message : Carbon.Message} (h : Recovers message e.message) :
    (Transaction.ofEnvelope (e.raw message)).1.toJson = e.shown := by
  obtain ⟨_, shown, calls⟩ := h
  have name : TxType.nameOf (.nat e.message.type.1) = e.message.type.2 := by
    rw [type_eq, nameOf_code]
  have witnesses : (e.witnesses.items.map Witness.raw).map Carbon.Witness.toJson =
      e.witnesses.items.map Witness.shown := by
    rw [List.map_map]
    rfl
  simp only [Transaction.ofEnvelope, Envelope.raw, Transaction.toJson, Witnesses.fields, name,
    witnesses, shown, calls, Envelope.shown]
  rfl

theorem decodedCalls_tell (m : Message) : AllTellOfCalls m.decodedCalls.2 := by
  cases m with
  | call c => exact decodeCall_tells 0 c.raw
  | calls items => exact decodeCalls_tells _
  | _ => exact all_tell_nil

/-- A written envelope is decoded to a record that shows every field as it was written, whatever
bytes follow it. They are counted in a warning, and nothing else is warned of in this way. -/
theorem decode_shows_what_was_written (e : Envelope) (rest : List UInt8) :
    ∃ t warnings, Transaction.decode (e.wire ++ rest) = .ok (t, warnings) ∧
      t.toJson = e.shown ∧
      warnings = (if rest = [] then [] else [leftover rest.length]) ++ e.message.decodedCalls.2 ∧
      ∀ n, leftover n ∈ warnings ↔ rest ≠ [] ∧ n = rest.length := by
  obtain ⟨message, h⟩ := recovers_message e.message
  refine ⟨_, _, decode_wire h rest, shown_wire h, rfl, ?_⟩
  intro n
  -- The other warnings are about calls, and those begin differently.
  have other : leftover n ∉ e.message.decodedCalls.2 := by
    intro member
    exact leftover_not_call n (decodedCalls_tell e.message _ member)
  rw [List.mem_append, or_iff_left other]
  by_cases none : rest = []
  · rw [if_pos none]
    simp [none]
  · rw [if_neg none, List.mem_singleton]
    constructor
    · intro same
      exact ⟨none, leftover_inj same⟩
    · rintro ⟨_, rfl⟩
      rfl

end Wire

end ChainDecode.Carbon
