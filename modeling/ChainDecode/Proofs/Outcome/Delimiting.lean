import ChainDecode.Proofs.Carbon.Delimiting
import ChainDecode.Proofs.Outcome.Dispatch

/-! # Both formats find their own end

A transaction of either format is decoded to the same record and the same warnings whatever bytes
follow it, but for the one warning that tells of them. Every shorter front of it is refused with a
cause that tells of the end of the bytes.
-/
namespace ChainDecode

namespace Vm

theorem signature_delimits : Delimits EndsBuffer Container.readSignature := by
  have bytes : Delimits EndsBuffer Container.readBytes := .bufferArray _ _
  exact .bind (.bufferWord _ 1) fun _ => .ite (.pure _)
    (.ite (.bind bytes fun _ => .pure _)
      (.ite (.bind (.bufferWord _ 1) fun _ => .bind bytes fun _ => .pure _) (.throw _)))

theorem signature_takes : Takes 1 Container.readSignature := by
  have bytes : Takes 0 Container.readBytes := (Takes.bufferArray _ _).weaken (Nat.zero_le 1)
  have curve : Takes 0 (Buffer.word Container.label 1) :=
    (Takes.bufferWord _ 1).weaken (Nat.zero_le 1)
  exact .before (.bufferWord _ 1) fun _ => .ite (.pure _)
    (.ite (.before bytes fun _ => .pure _)
      (.ite (.before curve fun _ => .before bytes fun _ => .pure _) (.throw _ 0)))

theorem container_delimits : Delimits EndsBuffer Container.read := by
  have bytes : Delimits EndsBuffer Container.readBytes := .bufferArray _ _
  -- The names only decide between the rest of the container and a cause.
  have body : ∀ nexus chain : String, Delimits EndsBuffer
      (do
        let script ← Container.readBytes
        let expiration ← Buffer.timestamp Container.label
        let payload ← Container.readBytes
        let count ← Buffer.length Container.label Buffer.varintMax
        let signatures ← times Container.readSignature count
        pure (Container.mk nexus chain script expiration payload signatures)) := fun _ _ =>
    .bind bytes fun _ => .bind (.bufferWord _ 4) fun _ => .bind bytes fun _ =>
      (Delimits.length _ _).bind
        (fun n => (Takes.times_each signature_takes n).before fun _ => .pure _)
        fun n => .bind (.times signature_delimits n) fun _ => .pure _
  exact .bind (.bufferText _) fun nexus => .bind (.bufferText _) fun chain =>
    .ite (body nexus chain) (.throw _)

def leftoverLine (rest : List UInt8) : List Text :=
  if rest = [] then [] else ["VM decode did not consume all bytes"]

/-- Once its container is read, only the warning about the bytes behind it depends on them. -/
theorem decode_container {bytes rest : List UInt8} {container : Container} {k : Nat}
    (read : Container.read.onBytes bytes = .ok (container, ⟨k, rest⟩)) (c : Conventions) :
    Transaction.decode c bytes =
      ((Transaction.ofContainer container).analyseScript c "VM disassembly failed").map
        fun found => (found.1, leftoverLine rest ++ found.2) := by
  have line : (if (Cursor.mk k rest).atEnd then []
      else [Text.ofString "VM decode did not consume all bytes"]) = leftoverLine rest := by
    cases rest <;> rfl
  have rest : Transaction.decode c bytes = (do
      let found ← (Transaction.ofContainer container).analyseScript c "VM disassembly failed"
      pure (found.1, leftoverLine rest ++ found.2)) := by
    rw [Transaction.decode, read, ← line]
    rfl
  rw [rest]
  cases (Transaction.ofContainer container).analyseScript c "VM disassembly failed" with
  | ok found => rfl
  | error f => rfl

/-- A container that takes exactly the first `k` bytes. -/
structure Spans (bytes : List UInt8) (k : Nat) (container : Container) : Prop where
  within : k ≤ bytes.length
  taken : Container.read.onBytes bytes = .ok (container, ⟨k, bytes.drop k⟩)
  -- Whatever follows these bytes, the container is the same.
  followed : ∀ s, Container.read.onBytes (bytes.take k ++ s) = .ok (container, ⟨k, s⟩)
  -- Whatever follows them, only the warning about it changes.
  decoded : ∀ c s, Transaction.decode c (bytes.take k ++ s) =
    ((Transaction.ofContainer container).analyseScript c "VM disassembly failed").map
      fun found => (found.1, leftoverLine s ++ found.2)
  -- With fewer bytes neither is read, because a read runs past the end.
  cut : ∀ j < k, ∃ f, f.kind = .bounds ∧ Container.read.onBytes (bytes.take j) = .error f ∧
    ∀ c, Transaction.decode c (bytes.take j) = .error f

theorem container_spans {bytes : List UInt8} {container : Container} {cursor : Cursor}
    (h : Container.read.onBytes bytes = .ok (container, cursor)) :
    ∃ k, Spans bytes k container := by
  obtain ⟨k, within, rfl, needed⟩ := container_delimits.onBytes h
  have length : (bytes.take k).length = k := List.length_take_of_le within
  have followed : ∀ s, Container.read.onBytes (bytes.take k ++ s) = .ok (container, ⟨k, s⟩) := by
    intro s
    have read := needed.reads.onBytes s
    rwa [length] at read
  refine ⟨k, within, h, followed, fun c s => decode_container (followed s) c, ?_⟩
  intro j small
  obtain ⟨f, stop, ends⟩ := needed.onBytes (j := j) (by rwa [length])
  rw [List.take_take, Nat.min_eq_left (Nat.le_of_lt small)] at stop
  refine ⟨f, ends, stop, fun c => ?_⟩
  rw [Transaction.decode, stop]
  rfl

end Vm

namespace Carbon

/-- The warning about bytes behind a transaction, if there are any. -/
def leftoverLine (rest : List UInt8) : List Text :=
  if rest = [] then [] else [leftover rest.length]

theorem decode_envelope_ok {bytes rest : List UInt8} {e : Envelope} {k : Nat}
    (read : Envelope.read.onBytes bytes = .ok (e, ⟨k, rest⟩)) :
    Transaction.decode bytes =
      .ok ((Transaction.ofEnvelope e).1, leftoverLine rest ++ (Transaction.ofEnvelope e).2) := by
  rw [leftoverLine, ← trailing_eq k, Transaction.decode, read]
  rfl

theorem ofEnvelope_tells (e : Envelope) : AllTellOfCalls (Transaction.ofEnvelope e).2 := by
  change AllTellOfCalls e.message.decodeCalls.2
  cases e.message with
  | call c => exact decodeCall_tells 0 c
  | calls items => exact decodeCalls_tells items
  | fields v => exact all_tell_nil

/-- A transaction that takes exactly the first `k` bytes, with its own warnings. -/
structure Spans (bytes : List UInt8) (k : Nat) (t : Transaction) (own : List Text) : Prop where
  within : k ≤ bytes.length
  taken : ∃ e, Envelope.read.onBytes bytes = .ok (e, ⟨k, bytes.drop k⟩)
  -- Its own warnings tell of no bytes behind it.
  quiet : ∀ n, leftover n ∉ own
  -- Whatever follows these bytes, only the warning about it changes.
  followed : ∀ s, Transaction.decode (bytes.take k ++ s) = .ok (t, leftoverLine s ++ own)
  -- With fewer bytes there is no transaction, because the stream ends inside it.
  cut : ∀ j < k, ∃ f, Transaction.decode (bytes.take j) = .error f ∧ f.kind = .bounds ∧
    f.message.startsWith "end of stream" = true

theorem transaction_spans {bytes : List UInt8} {t : Transaction} {warnings : List Text}
    (h : Transaction.decode bytes = .ok (t, warnings)) :
    ∃ k own, Spans bytes k t own ∧ warnings = leftoverLine (bytes.drop k) ++ own := by
  obtain ⟨⟨e, cursor⟩, read, _⟩ := except_bind_ok.mp h
  obtain ⟨k, within, rfl, needed⟩ := envelope_delimits.onBytes read
  have found := (decode_envelope_ok read).symm.trans h
  cases found
  have length : (bytes.take k).length = k := List.length_take_of_le within
  refine ⟨k, _, ⟨within, ⟨e, read⟩, ?_, ?_, ?_⟩, rfl⟩
  · intro n member
    exact leftover_not_call n (ofEnvelope_tells e _ member)
  · intro s
    have read := needed.reads.onBytes s
    rw [length] at read
    exact decode_envelope_ok read
  · intro j small
    obtain ⟨f, stop, ends⟩ := needed.onBytes (j := j) (by rwa [length])
    rw [List.take_take, Nat.min_eq_left (Nat.le_of_lt small)] at stop
    refine ⟨f, ?_, ends.kind, ends.message⟩
    rw [Transaction.decode, stop]
    rfl

end Carbon

/-- Bytes that are decoded in either format begin with a transaction that finds its own end. -/
theorem transactions_find_their_end (bytes : List UInt8) :
    (∀ t warnings, Carbon.Transaction.decode bytes = .ok (t, warnings) →
      ∃ k own, Carbon.Spans bytes k t own ∧
        warnings = Carbon.leftoverLine (bytes.drop k) ++ own) ∧
      ∀ container cursor, Vm.Container.read.onBytes bytes = .ok (container, cursor) →
        ∃ k, Vm.Spans bytes k container ∧ cursor = ⟨k, bytes.drop k⟩ := by
  constructor
  · intro t warnings h
    exact Carbon.transaction_spans h
  · intro container cursor h
    obtain ⟨k, spans⟩ := Vm.container_spans h
    have same := h.symm.trans spans.taken
    cases same
    exact ⟨k, spans, rfl⟩

/-- The bytes of one transaction of the virtual machine are those of a Carbon transaction and six
more. -/
theorem idle_finds_its_end :
    (∃ t k own, Carbon.Transaction.decode Outcome.idle.wire =
        .ok (t, Carbon.leftoverLine (Outcome.idle.wire.drop k) ++ own) ∧
        Carbon.Spans Outcome.idle.wire k t own) ∧
      ∃ k, Vm.Container.read.onBytes Outcome.idle.wire =
          .ok (Outcome.idle.container, ⟨k, Outcome.idle.wire.drop k⟩) ∧
        Vm.Spans Outcome.idle.wire k Outcome.idle.container := by
  obtain ⟨message, h⟩ := Carbon.Wire.recovers_message Outcome.idleAsCarbon.message
  have decoded := Carbon.Wire.decode_wire h (List.replicate 6 0)
  rw [← Outcome.idle_wire] at decoded
  obtain ⟨k, own, spans, warnings⟩ :=
    (transactions_find_their_end Outcome.idle.wire).1 _ _ decoded
  rw [warnings] at decoded
  have read := Vm.Wire.onBytes_container Outcome.idle
  obtain ⟨m, container, cursor⟩ := (transactions_find_their_end Outcome.idle.wire).2 _ _ read
  rw [cursor] at read
  exact ⟨⟨_, k, own, decoded, spans⟩, m, read, container⟩

end ChainDecode
