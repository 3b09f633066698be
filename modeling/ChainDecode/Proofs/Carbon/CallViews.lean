import Mathlib.Logic.Relation
import ChainDecode.Proofs.Carbon.Bounds
import ChainDecode.Proofs.Carbon.EmbeddedCalls

/-! # Two views of the calls of a transaction

The same call is shown twice: as it stands in the message, and as it is decoded. The two are written
by different functions, and the second takes an empty list of sections for none.
-/
namespace ChainDecode.Carbon

/-- A section is shown under the register of the message's section. It has the same bytes where that
is not negative, and neither bytes nor arguments where it is. -/
def SectionView (entry shown : Json) : Prop :=
  ∃ register : Int, entry.get? "register_offset" = some (.int register) ∧
    shown.get? "register_offset" = some (.int register) ∧
    (0 ≤ register → ∃ hex, entry.get? "args" = some (.str hex) ∧
      shown.get? "args_hex" = some (.str hex)) ∧
    (register < 0 → shown.get? "args_hex" = none ∧ shown.get? "args" = none)

def OneForm (call : Json) : Prop :=
  call.get? "sections" = none ∨ call.get? "args" = none ∧ call.get? "args_hex" = none

structure CallView (entry shown : Json) : Prop where
  module : ∃ n : Int, entry.get? "module_id" = some (.int n) ∧
    shown.get? "module_id" = some (.int n)
  method : ∃ n : Int, entry.get? "method_id" = some (.int n) ∧
    shown.get? "method_id" = some (.int n)
  sectioned : ∀ v, entry.get? "sections" = some v → ∃ entries items, v = .arr entries ∧
    shown.get? "sections" = some (.arr items) ∧ List.Forall₂ SectionView entries items
  plain : entry.get? "sections" = none → ∃ hex, entry.get? "args" = some (.str hex) ∧
    shown.get? "args_hex" = some (.str hex)
  oneForm : ∀ call, Relation.ReflTransGen HoldsCall shown call → OneForm call

/-- A transaction of one call shows it, one of many shows each of them, and any other shows none. -/
structure ViewsAgree (t : Transaction) : Prop where
  call : TxType.ofJson? t.type = some .call →
    ∃ entry shown, t.toJson.get? "msg" = some entry ∧ t.toJson.get? "call" = some shown ∧
      t.toJson.get? "calls" = none ∧ CallView entry shown
  calls : TxType.ofJson? t.type = some .callMulti →
    ∃ message entries shown, t.toJson.get? "msg" = some message ∧
      message.get? "calls" = some (.arr entries) ∧ t.toJson.get? "calls" = some (.arr shown) ∧
      t.toJson.get? "call" = none ∧ List.Forall₂ CallView entries shown
  others : TxType.ofJson? t.type ≠ some .call → TxType.ofJson? t.type ≠ some .callMulti →
    t.toJson.get? "call" = none ∧ t.toJson.get? "calls" = none

/-- No call of a message has an empty list of sections. -/
def RawCall.Framed (c : RawCall) : Prop := c.sections ≠ some []

theorem times_length {σ α : Type} (step : EStateM Fault σ α) (n : Nat) :
    Yields (fun as => as.length = n) (times step n) := by
  induction n with
  | zero => exact .pure rfl
  | succ n ih => exact .after fun a => .bind ih fun rest same => .pure (congrArg Nat.succ same)

theorem call_framed : Yields RawCall.Framed RawCall.read := by
  refine .after fun module => .after fun method => .after fun length => ?_
  split
  · exact .after fun args => .pure nofun
  · rename_i negative
    refine .bind (times_length _ _) fun sections same => .pure fun empty => ?_
    cases empty
    rw [List.length_nil] at same
    omega

theorem calls_framed : Yields (fun calls => ∀ c ∈ calls, c.Framed) RawCall.readMany :=
  .after fun n => .times call_framed n

theorem call_oneForm (c : Call) : OneForm c.toValue.toJson := by
  have sections := get?_call c "sections" (by decide)
  have args := get?_call c "args" (by decide)
  have hex := get?_call c "args_hex" (by decide)
  unfold OneForm
  rw [sections, args, hex]
  cases c.content with
  | sections items => exact Or.inr ⟨rfl, rfl⟩
  | plain bytes arguments =>
    refine Or.inl ?_
    cases arguments <;> rfl

theorem embedded_oneForm {levels : Nat} {raw : RawCall} {call : Json}
    (inside : Relation.ReflTransGen HoldsCall
      (decodeCallWith (readArg levels) raw).1.toValue.toJson call) : OneForm call := by
  have decoded : ∃ levels raw, call = (decodeCallWith (readArg levels) raw).1.toValue.toJson := by
    induction inside with
    | refl => exact ⟨levels, raw, rfl⟩
    | tail _ holds ih =>
      obtain ⟨_, _, rfl⟩ := ih
      obtain ⟨fewer, inner, -, same⟩ := embedded_decoded holds
      exact ⟨fewer, inner, same⟩
  obtain ⟨_, _, rfl⟩ := decoded
  exact call_oneForm _

theorem section_view (read : ArgType → ArgRead Value) (signature : Option CallSignature)
    (s : RawSection) :
    SectionView s.toValue.toJson (decodeSection read signature s).1.toValue.toJson := by
  refine ⟨s.registerOffset, get?_record _ _, ?_, fun some => ?_, fun negative => ?_⟩
  · unfold decodeSection
    split
    · exact get?_record _ _
    · exact get?_record _ _
  · unfold decodeSection
    rw [if_pos some]
    exact ⟨Text.Hex.encode s.args, get?_record _ _, get?_record _ _⟩
  · unfold decodeSection
    rw [if_neg (Int.not_le.mpr negative)]
    exact ⟨get?_record _ _, get?_record _ _⟩

theorem get?_list {ι : Type} {fields : List (String × Value)} {key : String} (value : ι → Value)
    {items : List ι} (h : fields.lookup key = some (.list (items.map value))) :
    (Value.record fields).toJson.get? key = some (.arr (items.map fun x => (value x).toJson)) := by
  rw [get?_record, h, Option.map_some, list_toJson]

theorem get?_sections (c : Call) {items : List CallSection} (h : c.content = .sections items) :
    c.toValue.toJson.get? "sections" = some (.arr (items.map fun s => s.toValue.toJson)) := by
  rw [get?_call c _ (by decide), h, ← list_toJson]
  rfl

theorem call_view (levels : Nat) {c : RawCall} (framed : c.Framed) :
    CallView c.toValue.toJson (decodeCallWith (readArg levels) c).1.toValue.toJson := by
  obtain ⟨module, method, args, sections⟩ := c
  rcases sections with _ | _ | ⟨first, rest⟩
  · exact {
      module := ⟨module, get?_record _ _, get?_record _ _⟩
      method := ⟨method, get?_record _ _, get?_record _ _⟩
      sectioned := fun v sections => by
        rw [RawCall.toValue, get?_record] at sections
        cases sections
      plain := fun _ => ⟨Text.Hex.encode args, get?_record _ _, get?_call _ _ (by decide)⟩
      oneForm := fun _ inside => embedded_oneForm inside }
  · exact absurd rfl framed
  · exact {
      module := ⟨module, get?_record _ _, get?_record _ _⟩
      method := ⟨method, get?_record _ _, get?_record _ _⟩
      sectioned := fun v sections => by
        have entries : (RawCall.mk module method args (some (first :: rest))).toValue.toJson.get?
            "sections" = some (.arr ((first :: rest).map fun s => s.toValue.toJson)) :=
          get?_list RawSection.toValue rfl
        rw [entries] at sections
        cases sections
        refine ⟨_, _, rfl, get?_sections _ rfl, ?_⟩
        rw [List.map_map, List.forall₂_map_left_iff, List.forall₂_map_right_iff,
          List.forall₂_map_right_iff, List.forall₂_same]
        exact fun s _ => section_view _ _ s
      plain := fun none => by
        rw [RawCall.toValue, get?_record] at none
        cases none
      oneForm := fun _ inside => embedded_oneForm inside }

def Message.Of (type : TxType) : Message → Prop
  | .call c => type = .call ∧ c.Framed
  | .calls items => type = .callMulti ∧ ∀ c ∈ items, c.Framed
  | .fields _ => type ≠ .call ∧ type ≠ .callMulti

theorem message_of (type : TxType) : Yields (Message.Of type) (Message.read type) := by
  unfold Message.read
  cases kind : type.layout? with
  | some layout =>
    have other : type ≠ .call ∧ type ≠ .callMulti := by
      constructor <;>
      · rintro rfl
        cases kind
    exact .after fun v => .pure other
  | none =>
    have calls : type = .call ∨ type = .callMulti := by
      cases type <;> cases kind
      · exact Or.inl rfl
      · exact Or.inr rfl
    dsimp only
    split
    · rename_i one
      exact .bind call_framed fun c framed => .pure ⟨one, framed⟩
    · rename_i many
      exact .bind calls_framed fun items framed => .pure ⟨calls.resolve_left many, framed⟩

theorem readOf_ok {code : Json} {c d : Cursor} {m : Message}
    (h : Message.readOf code c = .ok m d) :
    ∃ type, TxType.ofJson? code = some type ∧ Message.read type c = .ok m d := by
  unfold Message.readOf at h
  cases kind : TxType.ofJson code with
  | ok type =>
    rw [kind] at h
    exact ⟨type, ofJson_ok kind, h⟩
  | error f =>
    rw [kind] at h
    cases h

theorem readOf_of (code : Json) :
    Yields (fun m => ∃ type, TxType.ofJson? code = some type ∧ m.Of type)
      (Message.readOf code) := by
  intro c m d read
  obtain ⟨type, kind, read⟩ := readOf_ok read
  exact ⟨type, kind, message_of type c m d read⟩

def sharedNames : List Text :=
  ["type", "type_name", "expiry", "max_gas", "max_data", "gas_from", "payload", "msg", "witnesses"]

theorem get?_calls (t : Transaction) (key : Text) (h : key ∉ sharedNames) :
    t.toJson.get? key = t.calls.fields.lookup key := by
  simp only [sharedNames, List.mem_cons, List.not_mem_nil, or_false, not_or] at h
  obtain ⟨type, typeName, expiry, maxGas, maxData, gasFrom, payload, message, witnesses⟩ := h
  unfold Transaction.toJson Json.get? Json.field?
  cases t.witnesses <;>
    simp [Witnesses.fields, List.lookup_cons, beq_false_of_ne, type, typeName, expiry, maxGas,
      maxData, gasFrom, payload, message, witnesses]

theorem message_calls (items : List RawCall) :
    (Message.calls items).toValue.toJson.get? "calls" =
      some (.arr (items.map fun c => c.toValue.toJson)) :=
  get?_list RawCall.toValue rfl

theorem views_agree {t : Transaction} {type : TxType} (kind : TxType.ofJson? t.type = some type)
    (of : t.message.Of type) (calls : t.calls = t.message.decodeCalls.1) : ViewsAgree t := by
  have shown : t.toJson.get? "msg" = some t.message.toValue.toJson := rfl
  have one := get?_calls t "call" (by decide)
  have many := get?_calls t "calls" (by decide)
  rw [calls] at one many
  cases message : t.message with
  | call c =>
    rw [message] at of shown one many
    obtain ⟨rfl, framed⟩ := of
    exact {
      call := fun _ => ⟨_, _, shown, one, many, call_view _ framed⟩
      calls := fun other => by
        rw [kind] at other
        cases other
      others := fun other => absurd kind other }
  | calls items =>
    rw [message] at of shown one many
    obtain ⟨rfl, framed⟩ := of
    exact {
      call := fun other => by
        rw [kind] at other
        cases other
      calls := fun _ => by
        refine ⟨_, _, _, shown, message_calls items, many, one, ?_⟩
        rw [decodeCalls_each, List.map_map, List.forall₂_map_left_iff, List.forall₂_map_right_iff,
          List.forall₂_same]
        exact fun c member => call_view _ (framed c member)
      others := fun _ other => absurd kind other }
  | fields v =>
    rw [message] at of one many
    exact {
      call := fun same => by
        rw [kind] at same
        cases same
        exact absurd rfl of.1
      calls := fun same => by
        rw [kind] at same
        cases same
        exact absurd rfl of.2
      others := fun _ _ => ⟨one, many⟩ }

theorem envelope_of :
    Yields (fun e : Envelope =>
        ∃ type, TxType.ofJson? (.nat e.type) = some type ∧ e.message.Of type)
      Envelope.read :=
  .after fun type => .after fun _ => .after fun _ => .after fun _ => .after fun _ => .after fun _ =>
    .bind (readOf_of (.nat type)) fun _ of => .after fun _ => .pure of

/-- However a transaction was decoded, what it shows of its calls agrees with its message. -/
theorem decoded_calls_agree_with_the_message :
    (∀ bytes t warnings, Transaction.decode bytes = .ok (t, warnings) → ViewsAgree t) ∧
    ∀ code bytes report t warnings,
      Transaction.decodeMessage code bytes report = .ok (t, warnings) → ViewsAgree t := by
  constructor
  · intro bytes t warnings decoded
    obtain ⟨⟨e, _⟩, read, found⟩ := except_bind_ok.mp decoded
    cases found
    obtain ⟨type, kind, of⟩ := envelope_of.onBytes read
    exact views_agree kind of rfl
  · intro code bytes report t warnings decoded
    obtain ⟨⟨message, _⟩, read, decoded⟩ := except_bind_ok.mp decoded
    obtain ⟨_, -, decoded⟩ := except_bind_ok.mp decoded
    obtain ⟨_, -, decoded⟩ := except_bind_ok.mp decoded
    obtain ⟨_, -, decoded⟩ := except_bind_ok.mp decoded
    obtain ⟨_, -, decoded⟩ := except_bind_ok.mp decoded
    cases decoded
    obtain ⟨type, kind, of⟩ := (readOf_of code).onBytes read
    exact views_agree kind of rfl

/-- An envelope around a call that asks for the supply of a token. -/
def supplyEnvelope : List UInt8 :=
  List.replicate 58 0 ++ [1, 0, 0, 0, 17, 0, 0, 0, 8, 0, 0, 0] ++ [3, 0, 0, 0, 0, 0, 0, 0] ++
    [0, 0, 0, 0]

/-- A message of two calls: one in two sections, the first of them without bytes, and a resolution
that makes a call. -/
def sectionsAndResolution : List UInt8 :=
  [2, 0, 0, 0] ++
    ([1, 0, 0, 0, 17, 0, 0, 0, 254, 255, 255, 255] ++ [255, 255, 255, 255] ++
      [1, 0, 0, 0, 8, 0, 0, 0] ++ [3, 0, 0, 0, 0, 0, 0, 0]) ++
    ([0, 0, 0, 0, 2, 0, 0, 0, 32, 0, 0, 0] ++ supplyResolution.args)

theorem sections_and_resolution_agree :
    (∃ t warnings, Transaction.decode supplyEnvelope = .ok (t, warnings) ∧
      TxType.ofJson? t.type = some .call ∧ ViewsAgree t) ∧
    ∃ t warnings, Transaction.decodeMessage (.int 1) sectionsAndResolution .empty =
        .ok (t, warnings) ∧ TxType.ofJson? t.type = some .callMulti ∧ ViewsAgree t := by
  obtain ⟨enveloped, bare⟩ := decoded_calls_agree_with_the_message
  constructor
  · have kind : ((Transaction.decode supplyEnvelope).toOption.bind fun found =>
        TxType.ofJson? found.1.type) = some .call := by decide +kernel
    cases decoded : Transaction.decode supplyEnvelope with
    | ok found =>
      rw [decoded] at kind
      exact ⟨found.1, found.2, rfl, kind, enveloped _ _ _ decoded⟩
    | error f =>
      rw [decoded] at kind
      cases kind
  · have kind : ((Transaction.decodeMessage (.int 1) sectionsAndResolution .empty).toOption.bind
        fun found => TxType.ofJson? found.1.type) = some .callMulti := by decide +kernel
    cases decoded : Transaction.decodeMessage (.int 1) sectionsAndResolution .empty with
    | ok found =>
      rw [decoded] at kind
      exact ⟨found.1, found.2, rfl, kind, bare _ _ _ _ _ decoded⟩
    | error f =>
      rw [decoded] at kind
      cases kind

end ChainDecode.Carbon
