import ChainDecode.Carbon.Transaction
import ChainDecode.Proofs.Stopping

/-! # Bytes that are no Carbon transaction

Decoding stops with causes in the bytes alone, so a caller always goes on. It stops on every number
that no type has, and on everything shorter than the shortest transaction.
-/
namespace ChainDecode.Carbon

mutual

def Layout.causes : Layout → List Fault
  | .counted item => item.causes
  | .listed negative item => negative :: item.causes
  | .record fields => Layout.fieldCauses fields
  | _ => []

def Layout.fieldCauses : List (String × Layout) → List Fault
  | [] => []
  | (_, layout) :: rest => layout.causes ++ Layout.fieldCauses rest

end

mutual

def Layout.least : Layout → Nat
  | .u8 | .smallText | .typeName | .intx => 1
  | .u32 | .bytes | .counted _ | .listed .. => 4
  | .u64 | .i64 => 8
  | .fixed size => size
  | .record fields => Layout.fieldsLeast fields

def Layout.fieldsLeast : List (String × Layout) → Nat
  | [] => 0
  | (_, layout) :: rest => layout.least + Layout.fieldsLeast rest

end

mutual

theorem layout_stops {kind : Fault → Prop} [CoversStreams kind] : (l : Layout) →
    (∀ f ∈ l.causes, kind f) → StopsOnly kind l.read
  | .u8, _ => by
    rw [Layout.read]
    exact .bind (.word 1) fun _ => .pure _
  | .u32, _ => by
    rw [Layout.read]
    exact .bind (.word 4) fun _ => .pure _
  | .u64, _ => by
    rw [Layout.read]
    exact .bind (.word 8) fun _ => .pure _
  | .i64, _ => by
    rw [Layout.read]
    exact .bind (.signed 8) fun _ => .pure _
  | .intx, _ => by
    rw [Layout.read]
    exact .bind .intx fun _ => .pure _
  | .fixed size, _ => by
    rw [Layout.read]
    exact .bind (.stream_take size) fun _ => .pure _
  | .bytes, _ => by
    rw [Layout.read]
    exact .bind .byteArray fun _ => .pure _
  | .smallText, _ => by
    rw [Layout.read]
    exact .bind .smallText fun _ => .pure _
  | .typeName, _ => by
    rw [Layout.read]
    exact .bind (.word 1) fun _ => .pure _
  | .counted item, h => by
    have inner := layout_stops item (by simpa only [Layout.causes] using h)
    rw [Layout.read]
    exact .bind .count fun n => .bind (.times inner n) fun _ => .pure _
  | .listed negative item, h => by
    simp only [Layout.causes, List.mem_cons, forall_eq_or_imp] at h
    have inner := layout_stops item h.2
    have count : StopsOnly kind (readListCount negative) :=
      .bind (.signed 4) fun _ => .ite (.throw h.1) (.pure _)
    rw [Layout.read]
    exact .bind count fun n => .bind (.times inner n) fun _ => .pure _
  | .record fields, h => by
    have inner := fields_stop fields (by simpa only [Layout.causes] using h)
    rw [Layout.read]
    exact .bind inner fun _ => .pure _

theorem fields_stop {kind : Fault → Prop} [CoversStreams kind] :
    (fields : List (String × Layout)) → (∀ f ∈ Layout.fieldCauses fields, kind f) →
      StopsOnly kind (Layout.readFields fields)
  | [], _ => by
    rw [Layout.readFields]
    exact .pure _
  | (name, layout) :: rest, h => by
    simp only [Layout.fieldCauses, List.mem_append] at h
    have first := layout_stops layout fun f member => h f (Or.inl member)
    have others := fields_stop rest fun f member => h f (Or.inr member)
    rw [Layout.readFields]
    exact .bind first fun _ => .bind others fun _ => .pure _

end

mutual

theorem layout_takes : (l : Layout) → Takes l.least l.read
  | .u8 => by
    rw [Layout.read]
    exact .before (.word 1) fun _ => .pure _
  | .u32 => by
    rw [Layout.read]
    exact .before (.word 4) fun _ => .pure _
  | .u64 => by
    rw [Layout.read]
    exact .before (.word 8) fun _ => .pure _
  | .i64 => by
    rw [Layout.read]
    exact .before (.signed 8) fun _ => .pure _
  | .intx => by
    rw [Layout.read]
    exact .before .intx fun _ => .pure _
  | .fixed size => by
    rw [Layout.read]
    exact .before (.stream_take size) fun _ => .pure _
  | .bytes => by
    rw [Layout.read]
    exact .before .byteArray fun _ => .pure _
  | .smallText => by
    rw [Layout.read]
    exact .before .smallText fun _ => .pure _
  | .typeName => by
    rw [Layout.read]
    exact .before (.word 1) fun _ => .pure _
  | .counted item => by
    have inner := (layout_takes item).weaken (Nat.zero_le _)
    rw [Layout.read]
    exact .before .count fun n => .before (.times inner n) fun _ => .pure _
  | .listed negative item => by
    have inner := (layout_takes item).weaken (Nat.zero_le _)
    have count : Takes 4 (readListCount negative) :=
      .before (.signed 4) fun _ => .ite (.throw _ 0) (.pure _)
    rw [Layout.read]
    exact .before count fun n => .before (.times inner n) fun _ => .pure _
  | .record fields => by
    rw [Layout.read, Layout.least]
    exact .before (fields_take fields) fun _ => .pure _

theorem fields_take : (fields : List (String × Layout)) →
    Takes (Layout.fieldsLeast fields) (Layout.readFields fields)
  | [] => by
    rw [Layout.readFields]
    exact .pure _
  | (name, layout) :: rest => by
    rw [Layout.readFields, Layout.fieldsLeast]
    exact .bind (layout_takes layout) fun _ => .before (fields_take rest) fun _ => .pure _

end

theorem section_stops {kind : Fault → Prop} [CoversStreams kind] :
    StopsOnly kind RawCall.readSection :=
  .bind (.signed 4) fun _ =>
    .ite (.bind .byteArray fun _ => .pure _) (.bind (.pure _) fun _ => .pure _)

theorem call_stops {kind : Fault → Prop} [CoversStreams kind] : StopsOnly kind RawCall.read :=
  .bind (.word 4) fun _ => .bind (.word 4) fun _ => .bind (.signed 4) fun _ =>
    .ite (.bind (.stream_take _) fun _ => .pure _)
      (.bind (.times section_stops _) fun _ => .pure _)

theorem calls_stop {kind : Fault → Prop} [CoversStreams kind] :
    StopsOnly kind RawCall.readMany := .bind .count (.times call_stops)

theorem section_takes : Takes 0 RawCall.readSection :=
  .before ((Takes.signed 4).weaken (Nat.zero_le _)) fun _ =>
    .ite (.before (Takes.byteArray.weaken (Nat.zero_le _)) fun _ => .pure _)
      (.before (.pure _) fun _ => .pure _)

theorem call_takes : Takes 12 RawCall.read := by
  have content : ∀ module method length : Int, Takes 0
      (if 0 ≤ length then do
        let args ← Stream.take length.toNat
        pure (RawCall.mk module method args none)
      else do
        let sections ← times RawCall.readSection length.natAbs
        pure (RawCall.mk module method [] (some sections))) := fun module method length =>
    .ite (.before ((Takes.stream_take _).weaken (Nat.zero_le _)) fun _ => .pure _)
      (.before (.times section_takes _) fun _ => .pure _)
  exact .bind (.word 4) fun module => .bind (.word 4) fun method => .bind (.signed 4) fun length =>
    content module method length

theorem calls_take : Takes 4 RawCall.readMany :=
  .before .count fun n => .times (call_takes.weaken (Nat.zero_le _)) n

theorem message_stops (type : TxType) : StopsOnly InBytes (Message.read type) := by
  have causes : ∀ layout, type.layout? = some layout → layout.causes = [] := by
    intro layout kind
    cases type <;> cases kind <;> rfl
  unfold Message.read
  cases kind : type.layout? with
  | some layout =>
    have plain : ∀ f ∈ layout.causes, InBytes f := by
      intro f member
      rw [causes layout kind] at member
      cases member
    exact .bind (layout_stops layout plain) fun _ => .pure _
  | none => exact .ite (.bind call_stops fun _ => .pure _) (.bind calls_stop fun _ => .pure _)

theorem message_takes (type : TxType) : Takes 4 (Message.read type) := by
  have least : ∀ layout, type.layout? = some layout → 4 ≤ layout.least := by
    intro layout kind
    cases type <;> cases kind <;> decide
  unfold Message.read
  cases kind : type.layout? with
  | some layout =>
    exact .before ((layout_takes layout).weaken (least layout kind)) fun _ => .pure _
  | none =>
    exact .ite (.before (call_takes.weaken (by omega)) fun _ => .pure _)
      (.before calls_take fun _ => .pure _)

theorem ofJson_ok {v : Json} {type : TxType} (h : TxType.ofJson v = .ok type) :
    TxType.ofJson? v = some type := by
  unfold TxType.ofJson at h
  split at h
  · cases h
  split at h
  · rename_i same
    cases h
    exact same
  · obtain ⟨_, _, other⟩ := except_bind_ok.mp h
    cases other

theorem ofCode_lt {n : Int} {type : TxType} (h : TxType.ofCode? n = some type) : n < 17 := by
  unfold TxType.ofCode? at h
  split at h
  · omega
  · obtain ⟨small, _⟩ := List.getElem?_eq_some_iff.mp h
    change n.toNat < 17 at small
    omega

theorem ofJson_nat {n : Nat} {type : TxType} (h : TxType.ofJson (.nat n) = .ok type) : n ≤ 16 := by
  have code : TxType.ofCode? n = some type := ofJson_ok h
  have small := ofCode_lt code
  omega

theorem ofJson_cause {v : Json} {f : Fault} (key : v.isKey = true) (short : v.hasLong = false)
    (h : TxType.ofJson v = .error f) : InBytes f := by
  unfold TxType.ofJson at h
  rw [if_neg (by simp [key])] at h
  split at h
  · cases h
  · rw [Json.shown, if_neg (by simp [short])] at h
    cases h
    rfl

theorem ofJson_long {n : Int} (long : Number.IsLong n) :
    TxType.ofJson (.int n) = .error .digitLimit := by
  have none : TxType.ofJson? (.int n) = none := by
    cases type : TxType.ofJson? (.int n) with
    | none => rfl
    | some type =>
      have small := ofCode_lt type
      have positive : ¬ n < 0 := by
        intro negative
        rw [TxType.ofJson?, Json.whole?, Option.bind_some, TxType.ofCode?, if_pos negative] at type
        cases type
      exact absurd long (Number.word_short (by omega))
  rw [TxType.ofJson, if_neg (by simp [Json.isKey]), none]
  simp [Json.shown, Json.hasLong, long, bind, Except.bind]

theorem readOf_stops {code : Json} (key : code.isKey = true) (short : code.hasLong = false) :
    StopsOnly InBytes (Message.readOf code) := by
  unfold Message.readOf
  cases kind : TxType.ofJson code with
  | ok type => exact message_stops type
  | error f => exact .throw (ofJson_cause key short kind)

theorem readOf_long {n : Int} (long : Number.IsLong n) (bytes : List UInt8) :
    (Message.readOf (.int n)).onBytes bytes = .error .digitLimit := by
  rw [Message.readOf, ofJson_long long]
  rfl

theorem readOf_takes (n : Nat) : Takes 4 (Message.readOf (.nat n)) := by
  unfold Message.readOf
  cases TxType.ofJson (.nat n) with
  | ok type => exact message_takes type
  | error f => exact .throw f 4

theorem readOf_known {n : Nat} {c d : Cursor} {message : Message}
    (h : Message.readOf (.nat n) c = .ok message d) : n ≤ 16 := by
  unfold Message.readOf at h
  cases code : TxType.ofJson (.nat n) with
  | ok type => exact ofJson_nat code
  | error f =>
    rw [code] at h
    cases h

theorem nat_short {n : Nat} (small : n < Number.wordSpan 1) : (Json.nat n).hasLong = false := by
  change n < 256 at small
  exact Json.hasLong_int_false.mpr (Number.word_short (by omega))

theorem envelope_stops : StopsOnly InBytes Envelope.read :=
  .bind_of (.word 1) (.word 1) fun _ small => .bind (.signed 8) fun _ => .bind (.word 8) fun _ =>
    .bind (.word 8) fun _ => .bind (.stream_take 32) fun _ => .bind .smallText fun _ =>
      .bind (readOf_stops rfl (nat_short small)) fun _ =>
        .bind (.bind .count (.times (.bind (.stream_take 32) fun _ =>
          .bind (.stream_take 64) fun _ => .pure _))) fun _ => .pure _

theorem witnesses_take : Takes 4 Envelope.readWitnesses := by
  have witness : Takes 0 Envelope.readWitness :=
    .before ((Takes.stream_take 32).weaken (Nat.zero_le _)) fun _ =>
      .before ((Takes.stream_take 64).weaken (Nat.zero_le _)) fun _ => .pure _
  exact .before .count (.times witness)

/-- Sixty-six bytes is the length of an envelope around the shortest message. -/
theorem envelope_takes : Takes 66 Envelope.read :=
  .bind (.word 1) fun type => .bind (.signed 8) fun _ => .bind (.word 8) fun _ =>
    .bind (.word 8) fun _ => .bind (.stream_take 32) fun _ => .bind .smallText fun _ =>
      .bind (readOf_takes type) fun _ => .before witnesses_take fun _ => .pure _

theorem envelope_known {b : UInt8} {rest : List UInt8} {e : Envelope} {d : Cursor}
    (h : Envelope.read (.start (b :: rest)) = .ok e d) : b.toNat ≤ 16 := by
  obtain ⟨type, c, first, h⟩ := of_bind_ok h
  have byte : Stream.word 1 (.start (b :: rest)) = .ok b.toNat ⟨1, rest⟩ := rfl
  rw [byte] at first
  cases first
  obtain ⟨_, _, _, h⟩ := of_bind_ok h
  obtain ⟨_, _, _, h⟩ := of_bind_ok h
  obtain ⟨_, _, _, h⟩ := of_bind_ok h
  obtain ⟨_, _, _, h⟩ := of_bind_ok h
  obtain ⟨_, _, _, h⟩ := of_bind_ok h
  obtain ⟨message, _, found, _⟩ := of_bind_ok h
  exact readOf_known found

theorem decode_cause {bytes : List UInt8} {f : Fault} (h : Transaction.decode bytes = .error f) :
    f.isDecode = true := by
  rcases except_bind_error.mp h with stop | ⟨_, _, other⟩
  · exact StopsOnly.onBytes envelope_stops stop
  · cases other

theorem decode_envelope {bytes : List UInt8} {found : Transaction × List Text}
    (h : Transaction.decode bytes = .ok found) :
    ∃ e d, Envelope.read (.start bytes) = .ok e d := by
  obtain ⟨⟨e, d⟩, read, _⟩ := except_bind_ok.mp h
  exact ⟨e, d, of_onBytes_ok read⟩

theorem decode_long {bytes : List UInt8} {found : Transaction × List Text}
    (h : Transaction.decode bytes = .ok found) : 66 ≤ bytes.length := by
  obtain ⟨e, d, read⟩ := decode_envelope h
  have taken := envelope_takes _ e d read
  exact Nat.le_trans (Nat.le_add_left _ _) taken

theorem decode_known {b : UInt8} {rest : List UInt8} {found : Transaction × List Text}
    (h : Transaction.decode (b :: rest) = .ok found) : b.toNat ≤ 16 := by
  obtain ⟨e, d, read⟩ := decode_envelope h
  exact envelope_known read

end ChainDecode.Carbon
