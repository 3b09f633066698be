import ChainDecode.Proofs.Address
import ChainDecode.Proofs.Carbon.Report
import ChainDecode.Proofs.Outcome.Delimiting

/-! # A message without its envelope

A node reports the bytes of a message alone. Those bytes are what an envelope holds between its
payload and its witnesses, and they are decoded to the same record, as far as the node reports the
rest of the envelope beside them. They are refused for nothing but a part of the report.
-/
namespace ChainDecode.Carbon

/-- An envelope, and the bytes that its payload and its message are read from. -/
structure Sliced where
  envelope : Envelope
  payload : List UInt8
  message : List UInt8

/-- Reads an envelope and keeps the bytes between the payload and the witnesses. -/
def Sliced.read : Read Sliced := do
  let type ← Stream.word 1
  let expiry ← Stream.signed 8
  let maxGas ← Stream.word 8
  let maxData ← Stream.word 8
  let gasFrom ← Stream.take 32
  let size ← Stream.word 1
  let payload ← Stream.take size
  let start ← get
  let message ← Message.readOf (.nat type)
  let stop ← get
  let witnesses ← Envelope.readWitnesses
  let text := Text.Utf8.decode payload
  pure ⟨⟨type, expiry, maxGas, maxData, gasFrom, text, message, witnesses⟩, payload,
    start.rest.take (stop.position - start.position)⟩

theorem envelope_of_sliced : Envelope.read = Sliced.envelope <$> Sliced.read := by
  -- Looking at the cursor takes nothing.
  have look : ∀ {α : Type} (r : Read α), (get >>= fun _ => r) = r := fun _ => rfl
  simp only [Envelope.read, Sliced.read, Stream.smallText, map_eq_pure_bind, bind_assoc, pure_bind,
    look]

theorem sliced_message {bytes : List UInt8} {s : Sliced} {c : Cursor}
    (h : Sliced.read.onBytes bytes = .ok (s, c)) :
    Reads (Message.readOf (.nat s.envelope.type)) s.message s.envelope.message ∧
      s.envelope.gasFrom.length = 32 ∧ s.envelope.payload = Text.Utf8.decode s.payload ∧
      ¬ Number.IsLong s.envelope.expiry := by
  have run := of_onBytes_ok h
  obtain ⟨type, _, _, run⟩ := of_bind_ok run
  obtain ⟨expiry, _, expires, run⟩ := of_bind_ok run
  obtain ⟨maxGas, _, _, run⟩ := of_bind_ok run
  obtain ⟨maxData, _, _, run⟩ := of_bind_ok run
  obtain ⟨gasFrom, _, key, run⟩ := of_bind_ok run
  obtain ⟨size, _, _, run⟩ := of_bind_ok run
  obtain ⟨payload, start, _, run⟩ := of_bind_ok run
  rw [bind_get] at run
  obtain ⟨message, stop, found, run⟩ := of_bind_ok run
  rw [bind_get] at run
  obtain ⟨witnesses, _, _, run⟩ := of_bind_ok run
  cases run
  exact ⟨(readOf_delimits _).taken found, Yields.take 32 _ _ _ _ key, rfl,
    Yields.signed_short 8 (by decide) _ _ _ expires⟩

namespace Report

variable (r : Report)

def HasHexPayload : Prop :=
  ∀ v, r.payload.present? = some v →
    ∃ hex payload, v = .str hex ∧ Text.Hex.decode hex = .ok payload

/-- The parts whose types matter are null or of their own types. -/
structure Typed : Prop where
  gasPayer : r.gasPayer = .null ∨ ∃ text, r.gasPayer = .str text
  expiration : r.expiration = .null ∨ ∃ n, r.expiration = .int n
  signatures : r.signatures = .null ∨ ∃ items, r.signatures = .arr items

/-- The values are those of a transaction whose payload has these bytes. -/
structure Matches (t : Transaction) (payload : List UInt8) : Prop where
  gasPayer : ∃ text : String, Address.textOfKeyHex t.gasFrom = .ok text ∧ r.gasPayer = .str text
  gasLimit : ∃ limit, t.maxGas = .str limit ∧ r.gasLimit = .str limit
  expiration : ∃ n : Int, t.expiry = toString n ∧ r.expiration = .int n
  payload : r.payload = .str (Text.Hex.encode payload)

end Report

def payerLine (reason : Text) : Text := "Failed to derive gasFrom from gasPayer: " ++ reason

namespace Report

variable {r : Report} {f : Fault}

theorem gasFrom_lines {gasFrom : Text} {warnings : List Text}
    (derived : r.gasFrom = .ok (gasFrom, warnings)) :
    warnings = [] ∨ ∃ reason, warnings = [payerLine reason] := by
  unfold Report.gasFrom at derived
  split at derived
  · cases derived
    exact Or.inl rfl
  · split at derived
    · cases derived
      exact Or.inl rfl
    · cases derived
      exact Or.inr ⟨_, rfl⟩
  · cases derived

theorem payloadText_ok (h : r.HasHexPayload) : ∃ text, r.payloadText = .ok text := by
  unfold payloadText
  cases present : r.payload.present? with
  | none => exact ⟨"", rfl⟩
  | some v =>
    obtain ⟨hex, payload, rfl, decoded⟩ := h v present
    dsimp only
    rw [decoded]
    exact ⟨_, rfl⟩

theorem plain_payer (h : r.Typed) : ¬ r.OddPayer := by
  rintro ⟨v, present, odd⟩
  rcases h.gasPayer with none | ⟨text, given⟩
  · rw [none] at present
    cases present
  · rw [given, Json.present?] at present
    split at present
    · cases present
    · cases present
      cases odd

theorem elements_typed (h : r.Typed) : ¬ r.SingleSignature := by
  rintro ⟨present, f, stop⟩
  rcases h.signatures with none | ⟨items, given⟩
  · exact present none
  · rw [given] at stop
    cases stop

theorem refuses_typed (h : r.Typed) (hex : r.HasHexPayload) :
    r.Refuses f ↔ f = .digitLimit ∧ ∃ n, r.expiration = .int n ∧ Number.IsLong n := by
  constructor
  · intro refuses
    cases refuses with
    | expiration long =>
      rcases h.expiration with none | ⟨n, given⟩
      · rw [none] at long
        cases long
      · rw [given] at long
        exact ⟨rfl, n, given, Json.hasLong_int.mp long⟩
    | payer short odd => exact absurd odd (plain_payer h)
    | payload short payer stop =>
      obtain ⟨text, decoded⟩ := payloadText_ok hex
      cases decoded.symm.trans stop
    | signatures short payer payload single => exact absurd single (elements_typed h)
  · rintro ⟨rfl, n, given, long⟩
    exact .expiration (by rw [given]; exact Json.hasLong_int.mpr long)

section Own

variable {e : Envelope} {payload : List UInt8}

theorem present_filled {s : String} (h : s ≠ "") :
    (Json.str (.ofString s)).present? = some (.str (.ofString s)) := by
  have letters : (Text.ofString s).isEmpty = false := by
    simpa [Text.isEmpty] using h
  rw [Json.present?, Json.isBlank, letters]
  rfl

theorem gasFrom_own (m : r.Matches (Transaction.ofEnvelope e).1 payload)
    (size : e.gasFrom.length = 32) : r.gasFrom = .ok (Text.Hex.encode e.gasFrom, []) := by
  obtain ⟨text, shown, given⟩ := m.gasPayer
  obtain ⟨key, a, -, decoded, made, named⟩ :=
    Address.textOfKeyHex_ok (Text.keyHex_encode size)
  cases (Text.Hex.decode_encode e.gasFrom).symm.trans decoded
  cases shown.symm.trans named
  have recovered := Address.keyOfText_text made
  have filled : a.text ≠ "" := by
    intro blank
    rw [blank] at recovered
    cases recovered
  rw [Report.gasFrom, given, present_filled filled]
  dsimp only
  rw [recovered]

theorem maxGas_own (m : r.Matches (Transaction.ofEnvelope e).1 payload) :
    r.maxGas = .str (toString e.maxGas) := by
  obtain ⟨limit, shown, given⟩ := m.gasLimit
  cases shown
  have filled : toString e.maxGas ≠ "" := Nat.repr_ne_empty
  rw [Report.maxGas, given, present_filled filled]
  rfl

theorem expiration_own (m : r.Matches (Transaction.ofEnvelope e).1 payload) :
    r.expiration = .int e.expiry := by
  obtain ⟨n, shown, given⟩ := m.expiration
  have same : toString e.expiry = toString n := Text.ofString_inj.mp shown
  rw [given, Number.toString_int_inj same]

theorem payload_own (m : r.Matches (Transaction.ofEnvelope e).1 payload) :
    r.payloadText = .ok (Text.Utf8.decode payload) := by
  rw [Report.payloadText, m.payload]
  cases payload with
  | nil => decide +kernel
  | cons b rest =>
    have filled : Text.Hex.encode (b :: rest) ≠ "" := by
      simp [Text.Hex.encode, Text.Hex.ofByte]
    rw [present_filled filled]
    dsimp only
    rw [Text.Hex.decode_encode]
    rfl

variable (short : ¬ Number.IsLong e.expiry)

include short

theorem expiry_own (m : r.Matches (Transaction.ofEnvelope e).1 payload) :
    r.expiry = .ok (toString e.expiry) := by
  have same : ((Json.int e.expiry).present?).getD (.int 0) = .int e.expiry := by
    unfold Json.present?
    split
    · rename_i blank
      exact congrArg Json.int (eq_of_beq blank).symm
    · rfl
  rw [Report.expiry, expiration_own m, same]
  exact Json.shown_ok.mpr ⟨Json.hasLong_int_false.mpr short, rfl⟩

theorem not_refuses_own (m : r.Matches (Transaction.ofEnvelope e).1 payload)
    (size : e.gasFrom.length = 32) (elements : ¬ r.SingleSignature) : ¬ r.Refuses f := by
  intro refuses
  cases refuses with
  | expiration long =>
    rw [expiration_own m, Json.hasLong_int] at long
    exact short long
  | payer _ odd => exact gasFrom_ok.mp ⟨_, gasFrom_own m size⟩ odd
  | payload _ _ stop => cases (payload_own m).symm.trans stop
  | signatures _ _ _ single => exact elements single

end Own

end Report

/-- What the record of a bare message has in common with the record `t` of its envelope, whose
warnings about calls are `own` and whose payload has the bytes `payload`. -/
structure Converges (t : Transaction) (own : List Text) (payload : List UInt8) (r : Report)
    (u : Transaction) (warnings : List Text) : Prop where
  type : u.type = t.type
  name : TxType.nameOf u.type = TxType.nameOf t.type
  message : u.message = t.message
  calls : u.calls = t.calls
  -- Nothing but a warning about the gas payer comes before the warnings about calls.
  warned : warnings = own ∨ ∃ reason, warnings = payerLine reason :: own
  quiet : ∀ n, leftover n ∉ warnings
  -- With the values of the envelope only the data limit and the witnesses may differ.
  matching : r.Matches t payload →
    warnings = own ∧ u = { t with maxData := "0", witnesses := u.witnesses }

/-- What a message cut out of the envelope of `t` comes to beside a report. -/
structure Alone (t : Transaction) (own : List Text) (payload : List UInt8) (r : Report)
    (result : Except Fault (Transaction × List Text)) : Prop where
  converges : ∀ u warnings, result = .ok (u, warnings) → Converges t own payload r u warnings
  refused : ∀ f, result = .error f ↔ r.Refuses f
  typed : r.Typed → r.HasHexPayload →
    ∀ f, result = .error f ↔ f = .digitLimit ∧ ∃ n, r.expiration = .int n ∧ Number.IsLong n
  own : r.Matches t payload → ¬ r.SingleSignature → ∃ found, result = .ok found

theorem leftover_not_payer (n : Nat) (reason : Text) : leftover n ≠ payerLine reason := by
  intro same
  have first : (leftover n).letters[0]? = (payerLine reason).letters[0]? := by rw [same]
  have payer : (payerLine reason).letters =
      (Text.ofString "Failed to derive gasFrom from gasPayer: ").letters ++ reason.letters := rfl
  rw [leftover_letters, payer, List.getElem?_append_left (by decide),
    List.getElem?_append_left (by decide)] at first
  exact absurd first (by decide)

section Cut

variable {e : Envelope} {payload message : List UInt8} {r : Report}

theorem decodeMessage_converges
    (reads : Reads (Message.readOf (.nat e.type)) message e.message)
    (size : e.gasFrom.length = 32) (text : e.payload = Text.Utf8.decode payload)
    (short : ¬ Number.IsLong e.expiry) {u : Transaction} {warnings : List Text}
    (decoded : Transaction.decodeMessage (.nat e.type) message r = .ok (u, warnings)) :
    Converges (Transaction.ofEnvelope e).1 (Transaction.ofEnvelope e).2 payload r u warnings := by
  have taken := reads.onBytes []
  rw [List.append_nil] at taken
  obtain ⟨_, read, decoded⟩ := except_bind_ok.mp decoded
  cases taken.symm.trans read
  obtain ⟨expiry, expires, decoded⟩ := except_bind_ok.mp decoded
  obtain ⟨⟨gasFrom, payer⟩, derived, decoded⟩ := except_bind_ok.mp decoded
  obtain ⟨shown, payloaded, decoded⟩ := except_bind_ok.mp decoded
  obtain ⟨witnesses, -, decoded⟩ := except_bind_ok.mp decoded
  cases decoded
  have lines := Report.gasFrom_lines derived
  have quiet : ∀ n, leftover n ∉ (Transaction.ofEnvelope e).2 := fun n member =>
    leftover_not_call n (ofEnvelope_tells e _ member)
  refine ⟨rfl, rfl, rfl, rfl, ?_, ?_, ?_⟩
  · rcases lines with rfl | ⟨reason, rfl⟩
    · exact Or.inl rfl
    · exact Or.inr ⟨reason, rfl⟩
  · intro n member
    rcases List.mem_append.mp member with front | back
    · rcases lines with rfl | ⟨reason, rfl⟩
      · cases front
      · exact leftover_not_payer n reason (List.mem_singleton.mp front)
    · exact quiet n back
  · intro m
    cases (Report.gasFrom_own m size).symm.trans derived
    cases (Report.payload_own m).symm.trans payloaded
    cases (Report.expiry_own short m).symm.trans expires
    refine ⟨rfl, ?_⟩
    rw [Report.maxGas_own m, ← text]
    rfl

theorem decodeMessage_refuses
    (reads : Reads (Message.readOf (.nat e.type)) message e.message) (f : Fault) :
    Transaction.decodeMessage (.nat e.type) message r = .error f ↔ r.Refuses f := by
  have taken := reads.onBytes []
  rw [List.append_nil] at taken
  rw [decodeMessage_error, taken]
  simp

theorem decodeMessage_alone (reads : Reads (Message.readOf (.nat e.type)) message e.message)
    (size : e.gasFrom.length = 32) (text : e.payload = Text.Utf8.decode payload)
    (short : ¬ Number.IsLong e.expiry) :
    Alone (Transaction.ofEnvelope e).1 (Transaction.ofEnvelope e).2 payload r
      (Transaction.decodeMessage (.nat e.type) message r) where
  converges _ _ decoded := decodeMessage_converges reads size text short decoded
  refused := decodeMessage_refuses reads
  typed own hex f := (decodeMessage_refuses reads f).trans (Report.refuses_typed own hex)
  own m elements := by
    cases decoded : Transaction.decodeMessage (.nat e.type) message r with
    | ok found => exact ⟨found, rfl⟩
    | error f =>
      have refuses := (decodeMessage_refuses reads f).mp decoded
      exact absurd refuses (Report.not_refuses_own short m size elements)

end Cut

theorem sliced_of_decode {bytes : List UInt8} {t : Transaction} {warnings : List Text}
    (h : Transaction.decode bytes = .ok (t, warnings)) :
    ∃ s cursor own, Sliced.read.onBytes bytes = .ok (s, cursor) ∧
      Transaction.ofEnvelope s.envelope = (t, own) ∧
      warnings = leftoverLine cursor.rest ++ own := by
  obtain ⟨⟨e, cursor⟩, read, _⟩ := except_bind_ok.mp h
  have found := (decode_envelope_ok read).symm.trans h
  cases found
  rw [envelope_of_sliced, onBytes_map] at read
  obtain ⟨⟨s, _⟩, sliced, same⟩ := except_map_ok.mp read
  cases same
  exact ⟨s, _, _, sliced, rfl, rfl⟩

/-- A message cut out of an accepted envelope is accepted alone unless the report beside it is
refused, and its record is the envelope's as far as the message decides it. -/
theorem bare_message_converges {bytes : List UInt8} {t : Transaction} {warnings : List Text}
    (h : Transaction.decode bytes = .ok (t, warnings)) :
    ∃ s cursor own, Sliced.read.onBytes bytes = .ok (s, cursor) ∧
      Transaction.ofEnvelope s.envelope = (t, own) ∧
      warnings = leftoverLine cursor.rest ++ own ∧ AllTellOfCalls own ∧
      ∀ r : Report, Alone t own s.payload r (Transaction.decodeMessage t.type s.message r) := by
  obtain ⟨s, cursor, own, sliced, same, told⟩ := sliced_of_decode h
  cases same
  obtain ⟨reads, size, text, short⟩ := sliced_message sliced
  exact ⟨s, cursor, _, sliced, rfl, told, ofEnvelope_tells s.envelope, fun r =>
    decodeMessage_alone reads size text short⟩

theorem sevens_length : (List.replicate 32 (7 : UInt8)).length = 32 := List.length_replicate

theorem eight_short : Reads.IsCount [(3 : UInt8), 0, 0, 0, 0, 0, 0, 0].length := by
  unfold Reads.IsCount
  decide

theorem unwitnessed_short : Reads.IsCount ([] : List Wire.Witness).length := by
  unfold Reads.IsCount
  decide

/-- A user pays for a call that asks for the supply of a token, with a note in the payload. -/
def paidSupply : Wire.Envelope where
  expiry := 1700000000
  maxGas := 100000
  maxData := 64
  gasFrom := ⟨List.replicate 32 7, sevens_length⟩
  payload := ⟨"note", by decide +kernel⟩
  message := .call ⟨1, 17, .plain ⟨[3, 0, 0, 0, 0, 0, 0, 0], eight_short⟩⟩
  witnesses := ⟨[], unwitnessed_short⟩

def payerText : String := "P2K4FWx53hePArJzkDVD1jKZdjrgYD9RiswitrqkUdgSBGa"

/-- The call cut out of its envelope gives the same record with the envelope's values beside it. -/
theorem paid_message_converges :
    ∃ t warnings s cursor own,
      Transaction.decode paidSupply.wire = .ok (t, warnings) ∧
      Sliced.read.onBytes paidSupply.wire = .ok (s, cursor) ∧
      ∃ (r : Report) (u : Transaction), r.gasPayer = .str payerText ∧
        r.expiration = .int 1700000000 ∧ r.Typed ∧ r.HasHexPayload ∧ r.Matches t s.payload ∧
        Transaction.decodeMessage t.type s.message r = .ok (u, own) ∧
        u = { t with maxData := "0", witnesses := u.witnesses } := by
  obtain ⟨message, recovers⟩ := Wire.recovers_message paidSupply.message
  have decoded := Wire.decode_wire recovers []
  rw [List.append_nil] at decoded
  obtain ⟨s, cursor, own, sliced, -, -, -, alone⟩ := bare_message_converges decoded
  have payer :
      Address.textOfKeyHex (.ofString (Text.Hex.encode paidSupply.gasFrom.bytes)) =
        .ok payerText := by
    decide +kernel
  let r : Report := ⟨.str payerText, .str (.ofString (toString paidSupply.maxGas.toNat)),
    .int 1700000000, .str (.ofString (Text.Hex.encode s.payload)), .null⟩
  have typed : r.Typed := ⟨Or.inr ⟨_, rfl⟩, Or.inr ⟨_, rfl⟩, Or.inl rfl⟩
  have hex : r.HasHexPayload := by
    intro v present
    unfold Json.present? at present
    split at present
    · cases present
    · cases present
      exact ⟨_, s.payload, rfl, Text.Hex.decode_encode s.payload⟩
  have own_values : r.Matches (Transaction.ofEnvelope (paidSupply.raw message)).1 s.payload :=
    ⟨⟨payerText, payer, rfl⟩, ⟨_, rfl, rfl⟩, ⟨_, rfl, rfl⟩, rfl⟩
  obtain ⟨⟨u, more⟩, accepted⟩ := (alone r).own own_values fun single => single.1 rfl
  obtain ⟨rfl, whole⟩ := ((alone r).converges u more accepted).matching own_values
  exact ⟨_, _, s, cursor, _, decoded, sliced, r, u, rfl, rfl, typed, hex, own_values, accepted,
    whole⟩

/-- Beside the same call, an expiration that is too long for a numeral and a gas payer that is a
number are refused. -/
theorem paid_message_refused :
    ∃ t warnings s cursor,
      Transaction.decode paidSupply.wire = .ok (t, warnings) ∧
      Sliced.read.onBytes paidSupply.wire = .ok (s, cursor) ∧
      (∃ r : Report, r.Typed ∧ r.HasHexPayload ∧ r.expiration = .nat Number.leastLong ∧
        Transaction.decodeMessage t.type s.message r = .error .digitLimit) ∧
      ∃ r : Report, r.HasHexPayload ∧ r.gasPayer = .int 5 ∧
        Transaction.decodeMessage t.type s.message r = .error .notText := by
  obtain ⟨message, recovers⟩ := Wire.recovers_message paidSupply.message
  have decoded := Wire.decode_wire recovers []
  rw [List.append_nil] at decoded
  obtain ⟨s, cursor, own, sliced, same, -⟩ := sliced_of_decode decoded
  obtain ⟨reads, -⟩ := sliced_message sliced
  have type := congrArg (fun found => found.1.type) same
  let late : Report := { Report.empty with expiration := .nat Number.leastLong }
  let numbered : Report := { Report.empty with gasPayer := .int 5 }
  have typed : late.Typed := ⟨Or.inl rfl, Or.inr ⟨_, rfl⟩, Or.inl rfl⟩
  refine ⟨_, _, s, cursor, decoded, sliced, ⟨late, typed, nofun, rfl, ?_⟩,
    ⟨numbered, nofun, rfl, ?_⟩⟩
  · rw [← type]
    exact (decodeMessage_refuses reads _).mpr
      (.expiration (Json.hasLong_int.mpr Number.leastLong_isLong))
  · rw [← type]
    exact (decodeMessage_refuses reads _).mpr (.payer rfl ⟨_, rfl, rfl⟩)

end ChainDecode.Carbon
