import ChainDecode.Outcome.Transaction
import ChainDecode.Proofs.Carbon.Bounds
import ChainDecode.Proofs.Vm.Limits
import ChainDecode.Proofs.Vm.Wire

/-! # When decoding a transaction has an outcome

Whatever is wrong with a text or with its bytes lands in the errors and warnings of an outcome. Only
a number that is too long for a numeral does not, and it is told here exactly when one is met.
-/
namespace ChainDecode.Outcome

variable {table : Option Abi.Table} {protocol : Option Int}

/-- Bytes of the virtual machine's transaction whose script has a call that cannot be shown. -/
def HoldsLongNumber (c : Vm.Conventions) (bytes : List UInt8) : Prop :=
  ∃ container cursor, Vm.Container.read.onBytes bytes = .ok (container, cursor) ∧
    Vm.Overflows c container.script

/-- The bytes of a virtual machine's transaction that are decoded: all of them when they are no
Carbon transaction, otherwise those that a `Phantasma_Raw` message carries. -/
def DecodedAsVm (bytes inner : List UInt8) : Prop :=
  (∃ f, Carbon.Transaction.decode bytes = .error f) ∧ inner = bytes ∨
    ∃ t warnings, Carbon.Transaction.decode bytes = .ok (t, warnings) ∧
      Carbon.TxType.ofJson? t.type = some .phantasmaRaw ∧ t.message.inner? = some inner

theorem container_cause {bytes : List UInt8} {f : Fault}
    (h : Vm.Container.read.onBytes bytes = .error f) : f.isDecode = true :=
  Vm.container_stops.onBytes h

theorem decode_cases (bytes : List UInt8) :
    (∃ found, Vm.Transaction.decode (.numbered table protocol) bytes = .ok found) ∨
      (∃ f, Vm.Transaction.decode (.numbered table protocol) bytes = .error f ∧
        f.isDecode = true ∧ ¬ HoldsLongNumber (.numbered table protocol) bytes) ∨
      Vm.Transaction.decode (.numbered table protocol) bytes = .error .digitLimit ∧
        HoldsLongNumber (.numbered table protocol) bytes := by
  cases decoded : Vm.Transaction.decode (.numbered table protocol) bytes with
  | ok found => exact Or.inl ⟨found, rfl⟩
  | error f =>
    rcases Vm.decode_error.mp decoded with stop | ⟨rfl, container, cursor, read, overflows⟩
    · refine Or.inr (Or.inl ⟨f, rfl, container_cause stop, ?_⟩)
      rintro ⟨container, cursor, read, _⟩
      rw [stop] at read
      cases read
    · exact Or.inr (Or.inr ⟨rfl, container, cursor, read, overflows⟩)

theorem not_long_of_ok {bytes : List UInt8} {found : Vm.Transaction × List Text}
    (h : Vm.Transaction.decode (.numbered table protocol) bytes = .ok found) :
    ¬ HoldsLongNumber (.numbered table protocol) bytes := by
  rintro ⟨container, cursor, read, overflows⟩
  have stop := Vm.decode_error.mpr (Or.inr ⟨rfl, container, cursor, read, overflows⟩)
  rw [h] at stop
  cases stop

theorem addVm_error {bytes : List UInt8} {o : Outcome} {f : Fault} :
    addVm (.numbered table protocol) bytes o = .error f ↔
      f = .digitLimit ∧ HoldsLongNumber (.numbered table protocol) bytes := by
  unfold addVm
  rcases decode_cases bytes with ⟨found, decoded⟩ | ⟨g, decoded, reported, short⟩ | ⟨decoded, long⟩
  · rw [decoded]
    simp [not_long_of_ok decoded]
  · rw [decoded]
    simp [reported, short]
  · have outside : ¬ Fault.digitLimit.isDecode = true := by decide
    rw [decoded]
    simp [outside, long, eq_comm]

theorem addInner_error {t : Carbon.Transaction} {o : Outcome} {f : Fault} :
    addInner (.numbered table protocol) t o = .error f ↔
      f = .digitLimit ∧ Carbon.TxType.ofJson? t.type = some .phantasmaRaw ∧
        ∃ inner, t.message.inner? = some inner ∧
          HoldsLongNumber (.numbered table protocol) inner := by
  -- Without inner bytes there is a warning, and there is no container in them either.
  have nothing : ¬ HoldsLongNumber (.numbered table protocol) [] := by
    rintro ⟨container, cursor, read, _⟩
    cases read
  unfold addInner
  by_cases raw : Carbon.TxType.ofJson? t.type = some .phantasmaRaw
  · rw [if_neg (by simp [raw])]
    cases carried : t.message.inner? with
    | none => simp
    | some inner =>
      have only : ∀ P : List UInt8 → Prop,
          (∃ other, some inner = some other ∧ P other) ↔ P inner := by
        intro P
        simp
      rw [only, Option.getD_some]
      cases inner with
      | nil => simp [nothing]
      | cons b rest =>
        dsimp only
        rcases decode_cases (b :: rest) with
          ⟨found, decoded⟩ | ⟨g, decoded, reported, short⟩ | ⟨decoded, long⟩
        · rw [decoded]
          simp [not_long_of_ok decoded]
        · rw [decoded]
          simp [reported, short]
        · have outside : ¬ Fault.digitLimit.isDecode = true := by decide
          rw [decoded]
          simp [outside, long, raw, eq_comm]
  · rw [if_pos raw]
    simp [raw]

theorem addBytes_error {bytes : List UInt8} {o : Outcome} {f : Fault} :
    addBytes (.numbered table protocol) bytes o = .error f ↔
      f = .digitLimit ∧ ∃ inner, DecodedAsVm bytes inner ∧
        HoldsLongNumber (.numbered table protocol) inner := by
  unfold addBytes DecodedAsVm
  cases decoded : Carbon.Transaction.decode bytes with
  | ok found =>
    obtain ⟨t, warnings⟩ := found
    dsimp only [addCarbon]
    rw [addInner_error]
    constructor
    · rintro ⟨limit, raw, inner, carried, long⟩
      exact ⟨limit, inner, Or.inr ⟨t, warnings, rfl, raw, carried⟩, long⟩
    · rintro ⟨limit, inner, ⟨⟨_, other⟩, _⟩ | ⟨_, _, same, raw, carried⟩, long⟩
      · cases other
      · cases same
        exact ⟨limit, raw, inner, carried, long⟩
  | error g =>
    dsimp only
    rw [if_pos (Carbon.decode_cause decoded), addVm_error]
    constructor
    · rintro ⟨limit, long⟩
      exact ⟨limit, bytes, Or.inl ⟨⟨g, rfl⟩, rfl⟩, long⟩
    · rintro ⟨limit, _, ⟨_, rfl⟩ | ⟨_, _, other, _⟩, long⟩
      · exact ⟨limit, long⟩
      · cases other

/-- Decoding a text has an outcome for every table and every protocol version, except when a script
that is decoded on the way has a call with a number too long for a numeral. -/
theorem ofHex_stops_iff (table : Option Abi.Table) (protocol : Option Int) (format text : Text)
    (f : Fault) :
    ofHex (.numbered table protocol) format text = .error f ↔
      f = .digitLimit ∧ ∃ bytes inner, Text.Hex.decode text = .ok bytes ∧
        DecodedAsVm bytes inner ∧ HoldsLongNumber (.numbered table protocol) inner := by
  unfold ofHex
  cases decoded : Text.Hex.decode text with
  | ok bytes =>
    dsimp only
    rw [addBytes_error]
    simp
  | error g => simp

theorem carbon_rejects_name (t : Vm.Wire.Transaction)
    (long : 16 < (Text.Utf8.encode t.nexus.text).length) :
    ∃ f, Carbon.Transaction.decode t.wire = .error f := by
  obtain ⟨b, rest, first, large⟩ := Buffer.shortest_cons (Text.Utf8.encode t.nexus.text).length
  cases decoded : Carbon.Transaction.decode t.wire with
  | error f => exact ⟨f, rfl⟩
  | ok found =>
    rw [Vm.Wire.Transaction.wire, Vm.Wire.Name.wire, first] at decoded
    have known := Carbon.decode_known decoded
    omega

theorem ofHex_wire_stops {t : Vm.Wire.Transaction} (format : Text)
    (name : 16 < (Text.Utf8.encode t.nexus.text).length)
    (overflows : Vm.Overflows (.numbered table protocol) t.script.bytes) :
    ofHex (.numbered table protocol) format (Text.Hex.encode t.wire) = .error .digitLimit := by
  unfold ofHex
  rw [Text.Hex.decode_encode]
  exact addBytes_error.mpr ⟨rfl, t.wire, Or.inl ⟨carbon_rejects_name t name, rfl⟩, _, _,
    Vm.Wire.onBytes_container t, overflows⟩

def unsignedOnMain (nexus : Vm.Wire.Name) (script : Vm.Wire.Blob) (expiration : UInt32) :
    Vm.Wire.Transaction where
  nexus := nexus
  chain := ⟨"main", (Vm.Wire.isPlain_iff _).mp (by decide +kernel), by decide +kernel⟩
  script := script
  expiration := expiration
  payload := ⟨[], by decide⟩
  signatures := []
  few := by decide

def longNumber : List UInt8 := List.replicate 2000 0x7f

def longCall : Vm.Wire.Transaction :=
  unsignedOnMain
    ⟨"simulation-network", (Vm.Wire.isPlain_iff _).mp (by decide +kernel), by decide +kernel⟩
    ⟨Vm.loadedCall longNumber, by decide +kernel⟩ 1700000000

/-- A call of the method that is named by a number of 4817 digits has no outcome. -/
theorem ofHex_longCall :
    ofHex (.numbered none none) "pretty" (Text.Hex.encode longCall.wire) = .error .digitLimit := by
  have fits : longNumber.length ≤ 0xffff := by decide +kernel
  have long : Number.IsLong (Number.ofSignedBytes longNumber) := by decide +kernel
  have name : 16 < (Text.Utf8.encode longCall.nexus.text).length := by decide +kernel
  exact ofHex_wire_stops "pretty" name (Vm.loadedCall_overflows fits long _)

end ChainDecode.Outcome
