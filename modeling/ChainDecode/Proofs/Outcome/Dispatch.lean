import ChainDecode.Proofs.Carbon.Envelope
import ChainDecode.Proofs.Outcome.Totality

/-! # Which format a transaction is read in

Carbon is tried first, whatever bytes follow what it reads. A transaction of the virtual machine is
shown as it was written unless its bytes begin like a Carbon transaction.
-/
namespace ChainDecode.Outcome

variable {table : Option Abi.Table} {protocol : Option Int}

theorem carbon_rejects_short {bytes : List UInt8} (short : bytes.length < 66) :
    ∃ f, Carbon.Transaction.decode bytes = .error f := by
  cases decoded : Carbon.Transaction.decode bytes with
  | error f => exact ⟨f, rfl⟩
  | ok found =>
    have long := Carbon.decode_long decoded
    omega

theorem addInner_keeps {c : Vm.Conventions} {t : Carbon.Transaction} {o shown : Outcome}
    (h : addInner c t o = .ok shown) : shown.carbon = o.carbon := by
  unfold addInner at h
  by_cases raw : Carbon.TxType.ofJson? t.type ≠ some .phantasmaRaw
  · rw [if_pos raw] at h
    cases h
    rfl
  rw [if_neg raw] at h
  cases carried : t.message.inner?.getD [] with
  | nil =>
    rw [carried] at h
    cases h
    rfl
  | cons b rest =>
    rw [carried] at h
    dsimp only at h
    cases decoded : Vm.Transaction.decode c (b :: rest) with
    | ok found =>
      rw [decoded] at h
      cases h
      rfl
    | error f =>
      rw [decoded] at h
      by_cases reported : f.isDecode = true
      · simp only [if_pos reported] at h
        cases h
        rfl
      · simp [reported] at h

theorem addBytes_carbon {bytes : List UInt8} {found : Carbon.Transaction × List Text} (o : Outcome)
    (h : Carbon.Transaction.decode bytes = .ok found) :
    (∃ shown, addBytes (.numbered table protocol) bytes o = .ok shown ∧
      shown.carbon = some found.1) ∨
      addBytes (.numbered table protocol) bytes o = .error .digitLimit := by
  cases result : addBytes (.numbered table protocol) bytes o with
  | ok shown =>
    refine Or.inl ⟨shown, rfl, ?_⟩
    rw [addBytes, h] at result
    exact addInner_keeps result
  | error f =>
    rw [(addBytes_error.mp result).1]
    exact Or.inr rfl

theorem addBytes_vm {t : Vm.Wire.Transaction} {f : Fault} (o : Outcome)
    (h : Carbon.Transaction.decode t.wire = .error f)
    (short : ¬ Vm.Overflows (.numbered table protocol) t.script.bytes) :
    ∃ analysis warnings, addBytes (.numbered table protocol) t.wire o =
      .ok ({ o with vm := some (t.shown analysis) }.warn warnings) := by
  have read := Vm.Wire.onBytes_container t
  cases decoded : Vm.Transaction.decode (.numbered table protocol) t.wire with
  | ok found =>
    obtain ⟨analysis, same⟩ := Vm.Wire.decode_wire decoded
    refine ⟨analysis, found.2, ?_⟩
    rw [addBytes, h]
    simp only [if_pos (Carbon.decode_cause h), addVm, decoded, same]
  | error g =>
    rcases Vm.decode_error.mp decoded with stop | ⟨_, container, cursor, other, overflows⟩
    · rw [read] at stop
      cases stop
    · rw [read] at other
      cases other
      exact absurd overflows short

/-- Bytes that Carbon rejects are shown as the transaction that was written, unless its script has a
call that cannot be shown; bytes that Carbon accepts are shown as what Carbon reads. It rejects
every transaction of a nexus with a long name and every short one. -/
theorem addBytes_wire (table : Option Abi.Table) (protocol : Option Int) (t : Vm.Wire.Transaction)
    (source : Source) (input format : Text) :
    (match Carbon.Transaction.decode t.wire with
      | .error _ => Vm.Overflows (.numbered table protocol) t.script.bytes ∨
        ∃ shown analysis,
          addBytes (.numbered table protocol) t.wire (start source input format) = .ok shown ∧
            shown.vm = some (t.shown analysis) ∧ shown.carbon = none ∧ shown.errors = []
      | .ok found =>
        (∃ shown,
          addBytes (.numbered table protocol) t.wire (start source input format) = .ok shown ∧
            shown.carbon = some found.1) ∨
          addBytes (.numbered table protocol) t.wire (start source input format) =
            .error .digitLimit) ∧
      (16 < (Text.Utf8.encode t.nexus.text).length ∨ t.wire.length < 66 →
        ∃ f, Carbon.Transaction.decode t.wire = .error f) := by
  constructor
  · cases decoded : Carbon.Transaction.decode t.wire with
    | ok found => exact addBytes_carbon (start source input format) decoded
    | error f =>
      by_cases long : Vm.Overflows (.numbered table protocol) t.script.bytes
      · exact Or.inl long
      · obtain ⟨analysis, warnings, shown⟩ :=
          addBytes_vm (start source input format) decoded long
        exact Or.inr ⟨_, analysis, shown, rfl, rfl, rfl⟩
  · rintro (name | short)
    · exact carbon_rejects_name t name
    · exact carbon_rejects_short short

def idle : Vm.Wire.Transaction :=
  unsignedOnMain ⟨"mainnet", (Vm.Wire.isPlain_iff _).mp (by decide +kernel), by decide +kernel⟩
    ⟨List.replicate 92 0, by decide +kernel⟩ 0

/-- The names and the length of the script are its times and limits. -/
def idleAsCarbon : Carbon.Wire.Envelope where
  expiry := 0x0474656e6e69616d
  maxGas := 0x5c6e69616d
  maxData := 0
  gasFrom := ⟨Address.zero.key, Address.zero.key_length⟩
  payload := ⟨"", by decide +kernel⟩
  message := .transferNftMulti
    ⟨⟨Address.zero.key, Address.zero.key_length⟩, 0, ⟨[], by unfold Reads.IsCount; decide⟩⟩
  witnesses := ⟨[], by unfold Reads.IsCount; decide⟩

theorem idle_wire : idle.wire = idleAsCarbon.wire ++ List.replicate 6 0 := by decide +kernel

/-- The nexus `mainnet` is shown nowhere: its length is taken for the type of a transfer. -/
theorem addBytes_idle : ∃ shown,
    addBytes (.numbered none none) idle.wire
      (start .transactionHex (Text.Hex.encode idle.wire) "pretty") = .ok shown ∧
        shown.carbon.isSome = true ∧ shown.vm.isNone = true := by
  obtain ⟨message, h⟩ := Carbon.Wire.recovers_message idleAsCarbon.message
  have decoded := Carbon.Wire.decode_wire h (List.replicate 6 0)
  rw [← idle_wire] at decoded
  unfold addBytes
  rw [decoded]
  exact ⟨_, rfl, rfl, rfl⟩

end ChainDecode.Outcome
