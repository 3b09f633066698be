import ChainDecode.Proofs.Carbon.Bounds
import ChainDecode.Proofs.Delimiting

/-! # Carbon transactions find their own end

Counts are compared with the bytes that are left. Every item that is counted takes a byte at least,
so no envelope is accepted or refused for the bytes behind it.
-/
namespace ChainDecode.Carbon

mutual

def Layout.solid : Layout → Bool
  | .counted item => 1 ≤ item.least && item.solid
  | .listed _ item => item.solid
  | .record fields => Layout.solidFields fields
  | _ => true

def Layout.solidFields : List (String × Layout) → Bool
  | [] => true
  | (_, layout) :: rest => layout.solid && Layout.solidFields rest

end

mutual

theorem layout_delimits : (l : Layout) → l.solid = true → Delimits EndsStream l.read
  | .u8, _ => by
    rw [Layout.read]
    exact .bind (.word 1) fun _ => .pure _
  | .u32, _ => by
    rw [Layout.read]
    exact .bind (.word 4) fun _ => .pure _
  | .u64, _ => by
    rw [Layout.read]
    exact .bind (.word 8) fun _ => .pure _
  | .i64, _ => by
    rw [Layout.read]
    exact .bind (.signed 8) fun _ => .pure _
  | .intx, _ => by
    rw [Layout.read]
    exact .bind .intx fun _ => .pure _
  | .fixed size, _ => by
    rw [Layout.read]
    exact .bind (.stream_take size) fun _ => .pure _
  | .bytes, _ => by
    rw [Layout.read]
    exact .bind .byteArray fun _ => .pure _
  | .smallText, _ => by
    rw [Layout.read]
    exact .bind .smallText fun _ => .pure _
  | .typeName, _ => by
    rw [Layout.read]
    exact .bind (.word 1) fun _ => .pure _
  | .counted item, h => by
    simp only [Layout.solid, Bool.and_eq_true, decide_eq_true_eq] at h
    rw [Layout.read]
    exact .counted (layout_delimits item h.2) ((layout_takes item).weaken h.1) Value.list
  | .listed negative item, h => by
    have inner := layout_delimits item (by simpa only [Layout.solid] using h)
    have count : Delimits EndsStream (readListCount negative) :=
      .bind (.signed 4) fun _ => .ite (.throw _) (.pure _)
    rw [Layout.read]
    exact .bind count fun n => .bind (.times inner n) fun _ => .pure _
  | .record fields, h => by
    have inner := fields_delimit fields (by simpa only [Layout.solid] using h)
    rw [Layout.read]
    exact .bind inner fun _ => .pure _

theorem fields_delimit : (fields : List (String × Layout)) →
    Layout.solidFields fields = true → Delimits EndsStream (Layout.readFields fields)
  | [], _ => by
    rw [Layout.readFields]
    exact .pure _
  | (name, layout) :: rest, h => by
    simp only [Layout.solidFields, Bool.and_eq_true] at h
    rw [Layout.readFields]
    exact .bind (layout_delimits layout h.1) fun _ =>
      .bind (fields_delimit rest h.2) fun _ => .pure _

end

theorem section_delimits : Delimits EndsStream RawCall.readSection :=
  .bind (.signed 4) fun _ =>
    .ite (.bind .byteArray fun _ => .pure _) (.bind (.pure _) fun _ => .pure _)

theorem call_delimits : Delimits EndsStream RawCall.read :=
  .bind (.word 4) fun _ => .bind (.word 4) fun _ => .bind (.signed 4) fun _ =>
    .ite (.bind (.stream_take _) fun _ => .pure _)
      (.bind (.times section_delimits _) fun _ => .pure _)

theorem calls_delimit : Delimits EndsStream RawCall.readMany :=
  Delimits.count.bind (Takes.times_each (call_takes.weaken (by omega))) call_delimits.times

theorem message_delimits (type : TxType) : Delimits EndsStream (Message.read type) := by
  have solid : ∀ layout, type.layout? = some layout → layout.solid = true := by
    intro layout kind
    cases type <;> cases kind <;> decide
  unfold Message.read
  cases kind : type.layout? with
  | some layout => exact .bind (layout_delimits layout (solid layout kind)) fun _ => .pure _
  | none =>
    exact .ite (.bind call_delimits fun _ => .pure _) (.bind calls_delimit fun _ => .pure _)

theorem readOf_delimits (code : Json) : Delimits EndsStream (Message.readOf code) := by
  unfold Message.readOf
  cases TxType.ofJson code with
  | ok type => exact message_delimits type
  | error f => exact .throw f

theorem witness_takes : Takes 1 Envelope.readWitness :=
  .before ((Takes.stream_take 32).weaken (by omega)) fun _ =>
    .before ((Takes.stream_take 64).weaken (Nat.zero_le _)) fun _ => .pure _

theorem witnesses_delimit : Delimits EndsStream Envelope.readWitnesses := by
  have witness : Delimits EndsStream Envelope.readWitness :=
    .bind (.stream_take 32) fun _ => .bind (.stream_take 64) fun _ => .pure _
  exact Delimits.count.bind (Takes.times_each witness_takes) witness.times

theorem envelope_delimits : Delimits EndsStream Envelope.read :=
  .bind (.word 1) fun _ => .bind (.signed 8) fun _ => .bind (.word 8) fun _ =>
    .bind (.word 8) fun _ => .bind (.stream_take 32) fun _ => .bind .smallText fun _ =>
      .bind (readOf_delimits _) fun _ => .bind witnesses_delimit fun _ => .pure _

end ChainDecode.Carbon
