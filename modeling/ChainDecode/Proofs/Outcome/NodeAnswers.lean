import ChainDecode.Proofs.Carbon.Report
import ChainDecode.Proofs.Node.Record
import ChainDecode.Proofs.Outcome.Dispatch

/-! # Outcomes of what a node answers

Trouble with a node and values that cannot be read land in the errors of an outcome, and a record is
shown as far as it can be decoded. The answers that have no outcome are told here: objects with a
member of a type that is refused, gas payers that are no text beside a bare message, and numbers too
long for a numeral, beside a bare message or in a script.
-/
namespace ChainDecode.Outcome

variable {table : Option Abi.Table} {protocol : Option Int}

/-- What a client makes of an answer: trouble with the node, or an object to take a record from. An
object that reports an error is trouble for a session, but need not be for every client. -/
inductive Answer
  | trouble (cause : Fault) (node : cause.kind = .node)
  | object (members : List (Text × Json))

def Answer.told : Answer → Except Fault Node.Record
  | trouble cause _ => .error cause
  | object members => Node.Record.ofJson (.obj members)

theorem resultOf_cause {method : Text} {members : List (Text × Json)} {f : Fault}
    (h : Node.resultOf method members = .error f) : f.kind = .node := by
  unfold Node.resultOf at h
  split at h
  · cases h
    rfl
  · dsimp only at h
    split at h
    · cases h
      rfl
    · cases h

theorem exchange_ok (method : Text) (params : List Json) (s : Node.Session) :
    ∃ after, Node.exchange method params s = .ok s.network.next after := ⟨_, rfl⟩

theorem result_cause {method : Text} {reply : Node.Reply} {f : Fault}
    (made : ∀ cause, reply ≠ .broken cause) (h : reply.result method = .error f) :
    f.kind = .node := by
  cases reply with
  | failed reason =>
    cases h
    rfl
  | broken cause => exact absurd rfl (made cause)
  | answered status body =>
    simp only [Node.Reply.result] at h
    split at h
    · cases h
      rfl
    split at h
    · cases h
      rfl
    · exact resultOf_cause h
    · cases h
      rfl

theorem transaction_answer (hash : Json) (s : Node.Session)
    (made : ∀ cause, s.network.next ≠ .broken cause) :
    ∃ (answer : Answer) (after : Node.Session), Node.transaction hash s =
      match answer.told with
      | .ok record => .ok record after
      | .error f => .error f after := by
  obtain ⟨after, asked⟩ := exchange_ok Node.transactionMethod [hash] s
  unfold Node.transaction Node.call
  rw [bind_assoc, bind_ok asked]
  cases answered : s.network.next.result Node.transactionMethod with
  | error f => exact ⟨.trouble f (result_cause made answered), after, rfl⟩
  | ok result =>
    cases result with
    | obj members =>
      refine ⟨.object members, after, ?_⟩
      show (match Node.Record.ofJson (.obj members) with
        | .ok record => pure record
        | .error f => throw f : Node.Talk Node.Record) after = _
      rw [Answer.told]
      cases Node.Record.ofJson (.obj members) <;> rfl
    | _ => exact ⟨.trouble (.transactionMissing hash.display) rfl, after, rfl⟩

structure ReadBare (r : Node.Record) (bytes : List UInt8) : Prop where
  given : ∃ hex, carbonHex? r = some hex ∧ Text.Hex.decode hex = .ok bytes
  unsigned : ∃ f, Carbon.Transaction.decode bytes = .error f

def HoldMessage (r : Node.Record) (bytes : List UInt8) : Prop :=
  ∃ found, (Carbon.Message.readOf (.int r.carbonType)).onBytes bytes = .ok found

/-- The cause at which a bare message is lost. -/
inductive BareEscapes (r : Node.Record) (bytes : List UInt8) : Fault → Prop
  | type (long : Number.IsLong r.carbonType) : BareEscapes r bytes .digitLimit
  | expiration (message : HoldMessage r bytes) (long : Number.IsLong r.expiration) :
      BareEscapes r bytes .digitLimit
  | payer (message : HoldMessage r bytes) (short : ¬ Number.IsLong r.expiration)
      (odd : (reportOf r).OddPayer) : BareEscapes r bytes .notText

/-- The cause at which the outcome of a record is lost. -/
inductive RecordEscapes (c : Vm.Conventions) (r : Node.Record) : Fault → Prop
  | bare {bytes : List UInt8} {f : Fault} (read : ReadBare r bytes)
      (escapes : BareEscapes r bytes f) : RecordEscapes c r f
  | inner {t : Carbon.Transaction} {warnings notes : List Text} {inner : List UInt8}
      (carbon : carbonOf r = .ok (some (t, warnings), notes))
      (raw : Carbon.TxType.ofJson? t.type = some .phantasmaRaw)
      (carried : t.message.inner? = some inner) (long : HoldsLongNumber c inner) :
      RecordEscapes c r .digitLimit
  | script {notes : List Text} {script : List UInt8} (carbon : carbonOf r = .ok (none, notes))
      (decoded : Text.Hex.decode (Text.lower r.script) = .ok script)
      (long : Vm.Overflows c script) : RecordEscapes c r .digitLimit

theorem payloadText_cause {r : Node.Record} {f : Fault}
    (h : (reportOf r).payloadText = .error f) : f.isDecode = true := by
  unfold Carbon.Report.payloadText reportOf at h
  by_cases blank : (Json.str r.payload).isBlank = true
  · simp [Json.present?, blank] at h
  · simp only [Json.present?, if_neg blank] at h
    exact Text.Hex.decode_cause (except_map_error.mp h)

theorem decodeMessage_escapes {r : Node.Record} {bytes : List UInt8} {f : Fault} :
    Carbon.Transaction.decodeMessage (.int r.carbonType) bytes (reportOf r) = .error f ∧
      ¬ f.isDecode = true ↔ BareEscapes r bytes f := by
  rw [Carbon.decodeMessage_error]
  constructor
  · rintro ⟨stop | ⟨message, refuses⟩, outside⟩
    · by_cases long : Number.IsLong r.carbonType
      · cases (Carbon.readOf_long long bytes).symm.trans stop
        exact .type long
      · have stops := Carbon.readOf_stops rfl (Json.hasLong_int_false.mpr long)
        exact absurd (StopsOnly.onBytes stops stop) outside
    · cases refuses with
      | expiration long => exact .expiration message (Json.hasLong_int.mp long)
      | payer short odd => exact .payer message (Json.hasLong_int_false.mp short) odd
      | payload _ _ stop => exact absurd (payloadText_cause stop) outside
      | signatures _ _ _ single =>
        obtain ⟨-, g, stop⟩ := single
        cases stop
  · rintro (long | ⟨message, long⟩ | ⟨message, short, odd⟩)
    · exact ⟨Or.inl (Carbon.readOf_long long bytes), by decide⟩
    · exact ⟨Or.inr ⟨message, .expiration (Json.hasLong_int.mpr long)⟩, by decide⟩
    · exact ⟨Or.inr ⟨message, .payer (Json.hasLong_int_false.mpr short) odd⟩, by decide⟩

/-- The bytes of a record are a Carbon transaction or are none, unless they are read as a bare
message that is lost. -/
theorem carbonOf_error {r : Node.Record} {f : Fault} :
    carbonOf r = .error f ↔ ∃ bytes, ReadBare r bytes ∧ BareEscapes r bytes f := by
  constructor
  · intro stop
    unfold carbonOf at stop
    split at stop
    · cases stop
    rename_i hex given
    split at stop
    · cases stop
    rename_i g refused
    rcases except_bind_error.mp refused with garbled | ⟨bytes, decoded, bare⟩
    · simp [garbled, Text.Hex.decode_cause garbled, bind, Except.bind] at stop
    · have joined : ∀ {α : Type} (next : List UInt8 → Except Fault α),
          (Text.Hex.decode hex >>= next) = next bytes := fun next => by rw [decoded]; rfl
      rw [if_neg (by simp [Carbon.decode_cause bare])] at stop
      dsimp only at stop
      rw [joined] at stop
      split at stop
      · cases stop
      rename_i h failed
      split at stop
      · cases stop
      rename_i outside
      cases stop
      exact ⟨bytes, ⟨⟨hex, given, decoded⟩, g, bare⟩, decodeMessage_escapes.mp ⟨failed, outside⟩⟩
  · rintro ⟨bytes, ⟨⟨hex, given, decoded⟩, g, bare⟩, escapes⟩
    obtain ⟨failed, outside⟩ := decodeMessage_escapes.mpr escapes
    have refused : (Text.Hex.decode hex >>= Carbon.Transaction.decode) = .error g :=
      except_bind_error.mpr (Or.inr ⟨bytes, decoded, bare⟩)
    have lost : (Text.Hex.decode hex >>= fun bytes => Carbon.Transaction.decodeMessage
        (.int r.carbonType) bytes (reportOf r)) = .error f :=
      except_bind_error.mpr (Or.inr ⟨bytes, decoded, failed⟩)
    simp [carbonOf, given, refused, lost, Carbon.decode_cause bare, outside]

theorem addRecord_error {r : Node.Record} {o : Outcome} {f : Fault} :
    addRecord (.numbered table protocol) r o = .error f ↔
      RecordEscapes (.numbered table protocol) r f := by
  unfold addRecord
  rw [except_bind_error]
  constructor
  · rintro (stop | ⟨⟨carbon, notes⟩, found, stop⟩)
    · obtain ⟨bytes, read, escapes⟩ := carbonOf_error.mp stop
      exact .bare read escapes
    cases carbon with
    | some pair =>
      obtain ⟨rfl, raw, inner, carried, long⟩ := addInner_error.mp stop
      exact .inner found raw carried long
    | none =>
      rcases except_bind_error.mp stop with stop | ⟨_, _, other⟩
      · obtain ⟨rfl, script, decoded, long⟩ := Vm.analyseScript_stops.mp stop
        exact .script found decoded long
      · cases other
  · rintro (⟨read, escapes⟩ | ⟨found, raw, carried, long⟩ | ⟨found, decoded, long⟩)
    · exact Or.inl (carbonOf_error.mpr ⟨_, read, escapes⟩)
    · exact Or.inr ⟨_, found, addInner_error.mpr ⟨rfl, raw, _, carried, long⟩⟩
    · have bytes : Text.Hex.decode (scriptOf r).script = .ok _ := decoded
      refine Or.inr ⟨_, found, except_bind_error.mpr (Or.inl ?_)⟩
      exact Vm.analyseScript_stops.mpr ⟨rfl, _, bytes, long⟩

theorem addRecord_shows {c : Vm.Conventions} {r : Node.Record} {o shown : Outcome}
    (h : addRecord c r o = .ok shown) : shown.carbon.isSome = true ∨ shown.vm.isSome = true := by
  obtain ⟨⟨carbon, notes⟩, _, h⟩ := except_bind_ok.mp h
  cases carbon with
  | some found =>
    left
    rw [addInner_keeps h]
    rfl
  | none =>
    obtain ⟨_, _, h⟩ := except_bind_ok.mp h
    cases h
    exact Or.inr rfl

theorem ofHash_shows {c : Vm.Conventions} {format hash url : Text}
    {told : Except Fault Node.Record} {o : Outcome}
    (h : ofHash c format hash url told = .ok o) :
    o.errors ≠ [] ∨ o.carbon.isSome = true ∨ o.vm.isSome = true := by
  unfold ofHash at h
  split at h
  · exact Or.inr (addRecord_shows h)
  split at h
  · cases h
    exact Or.inl (List.cons_ne_nil _ _)
  · cases h

theorem ofHash_error {format hash url : Text} {told : Except Fault Node.Record} {f : Fault} :
    ofHash (.numbered table protocol) format hash url told = .error f ↔
      (told = .error f ∧ f.kind ≠ .node ∧ ¬ f.isValue = true) ∨
        ∃ r, told = .ok r ∧ RecordEscapes (.numbered table protocol) r f := by
  unfold ofHash
  cases told with
  | ok r => simp [addRecord_error]
  | error g =>
    dsimp only
    split
    · rename_i reported
      have known : ¬ (g.kind ≠ .node ∧ ¬ g.isValue = true) := by grind
      constructor
      · intro stop
        cases stop
      · rintro (⟨same, outside⟩ | ⟨r, other, _⟩)
        · cases same
          exact absurd outside known
        · cases other
    · rename_i unreported
      have outside : g.kind ≠ .node ∧ ¬ g.isValue = true := by grind
      constructor
      · intro stop
        cases stop
        exact Or.inl ⟨rfl, outside⟩
      · rintro (⟨same, _⟩ | ⟨r, other, _⟩)
        · cases same
          rfl
        · cases other

/-- The cause at which the outcome of an answer is lost. -/
inductive AnswerEscapes (c : Vm.Conventions) : Answer → Fault → Prop
  | refused {members : List (Text × Json)} {f : Fault} (refuses : Node.Refuses members f) :
      AnswerEscapes c (.object members) f
  | record {members : List (Text × Json)} {r : Node.Record} {f : Fault}
      (read : Node.Record.ofJson (.obj members) = .ok r) (escapes : RecordEscapes c r f) :
      AnswerEscapes c (.object members) f

/-- An outcome of an answer has an error or shows a transaction, and every answer has one but those
that are told above. -/
theorem ofHash_stops_iff (table : Option Abi.Table) (protocol : Option Int)
    (format hash url : Text) (answer : Answer) :
    (∀ o, ofHash (.numbered table protocol) format hash url answer.told = .ok o →
        o.errors ≠ [] ∨ o.carbon.isSome = true ∨ o.vm.isSome = true) ∧
      ∀ f, ofHash (.numbered table protocol) format hash url answer.told = .error f ↔
        AnswerEscapes (.numbered table protocol) answer f := by
  refine ⟨fun o shown => ofHash_shows shown, fun f => ?_⟩
  rw [ofHash_error]
  cases answer with
  | trouble cause node =>
    constructor
    · rintro (⟨same, other, _⟩ | ⟨r, other, _⟩)
      · cases same
        exact absurd node other
      · cases other
    · rintro ⟨⟩
  | object members =>
    constructor
    · rintro (⟨stop, _, outside⟩ | ⟨r, read, escapes⟩)
      · exact .refused (Node.ofJson_refuses.mp ⟨stop, outside⟩)
      · exact .record read escapes
    · rintro (refuses | ⟨read, escapes⟩)
      · obtain ⟨stop, outside⟩ := Node.ofJson_refuses.mpr refuses
        exact Or.inl ⟨stop, Node.refuses_kind refuses, outside⟩
      · exact Or.inr ⟨_, read, escapes⟩

/-- A number that is told for the gas payer stops at the envelope that is made up for it. -/
example : ofHash (.numbered none none) "pretty" "AB" "http://node/rpc"
    (Answer.object [("carbonTxType", .int 3), ("gasPayer", .int 5),
      ("carbonTxData", .str (Text.Hex.encode (List.replicate 48 0)))]).told =
        .error .notText := by
  refine ofHash_error.mpr (Or.inr ⟨_, rfl, .bare ⟨⟨_, rfl, rfl⟩, _, rfl⟩ ?_⟩)
  exact .payer ⟨_, rfl⟩ (Number.word_short (by decide)) ⟨_, rfl, rfl⟩

/-- A node that tells a list for an expiration leaves no outcome. -/
theorem ofHash_listed_expiration :
    ofHash (.numbered none none) "pretty" "AB" "http://node/rpc"
      (Answer.object [("expiration", .arr [.int 1])]).told = .error .wrongShape := by
  rfl

end ChainDecode.Outcome
