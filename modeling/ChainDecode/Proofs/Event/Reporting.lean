import ChainDecode.Event.Decode
import ChainDecode.Proofs.Number.Numeral
import ChainDecode.Proofs.Stopping

/-! # What is reported of an event

The bytes of an event are always shown, and fields that cannot be read leave one warning in their
place. Only numbers stop a decode: a hint of digits that is no numeral, and the number of a task
that has too many digits for one. Both are told here exactly.
-/
namespace ChainDecode

theorem Text.beq_ofString (s t : String) :
    (Text.ofString s == Text.ofString t) = decide (s = t) := by
  by_cases same : s = t
  · rw [same, beq_self_eq_true, decide_eq_true rfl]
  · rw [decide_eq_false same, beq_eq_false_iff_ne, ne_eq, Text.ofString_inj]
    exact same

namespace Event

/-- A hint of digits that name no number. -/
def HintUnread (hint : Option Text) : Prop := Number.Unreadable (Text.strip (hint.getD ""))

theorem ofHint_error {hint : Option Text} :
    (∃ f, Kind.ofHint hint = .error f) ↔ HintUnread hint := by
  unfold Kind.ofHint HintUnread
  generalize Text.strip (hint.getD "") = text
  dsimp only
  by_cases digits : Text.isDigits text = true
  · have some : ¬ text.isEmpty = true := by
      rw [Text.isDigits, Bool.and_eq_true] at digits
      simpa using digits.1
    rw [if_neg some, if_pos digits, ← Number.ofNumeral_error_iff digits]
    simp [except_map_error]
  · have readable : ¬ Number.Unreadable text := fun h => digits h.1
    rw [if_neg digits]
    split
    · simp [readable]
    · simp [readable]

theorem readBytes_stops : StopsOnly InBytes readBytes := .bufferArray _ StopsOnly.varintMax_short

theorem field_stops {type : FieldType} (h : type ≠ .restNumber) :
    StopsOnly InBytes type.read := by
  have address : StopsOnly InBytes readAddress := by
    refine .bind readBytes_stops fun data => ?_
    split
    · exact .pure _
    · exact .throw rfl
  have hash : StopsOnly InBytes readHash :=
    .bind readBytes_stops fun _ => .ite (.pure _) (.throw rfl)
  cases type with
  | text => exact .bind (.bufferText _) fun _ => .pure _
  | big => exact .bind (.bigInteger _) fun _ => .pure _
  | address => exact .bind address fun _ => .pure _
  | hash => exact .bind hash fun _ => .pure _
  | key => exact .bind (.buffer_take _ 32) fun _ => .pure _
  | bytes => exact .bind readBytes_stops fun _ => .pure _
  | time => exact .bind (.bufferWord _ 4) fun _ => .pure _
  | auctionType => exact .bind (.varint _ StopsOnly.varintMax_short) fun _ => .pure _
  | saleKind => exact .bind (.varint _ StopsOnly.varintMax_short) fun _ => .pure _
  | restBytes => exact .bind .rest fun _ => .pure _
  | restNumber => exact absurd rfl h

theorem fields_stop {fields : List (String × FieldType)} (h : ∀ f ∈ fields, f.2 ≠ .restNumber) :
    StopsOnly InBytes (readFields fields) := by
  induction fields with
  | nil => exact .pure _
  | cons field fields ih =>
    have rest := ih fun f member => h f (List.mem_cons_of_mem field member)
    exact .bind (field_stops (h field List.mem_cons_self)) fun _ => .bind rest fun _ => .pure _

theorem rest_all (data : List UInt8) : Read.rest (.start data) = .ok data ⟨data.length, []⟩ := by
  have all : Read.rest (.start data) = .ok data ⟨0 + data.length, data.drop data.length⟩ := rfl
  rw [all, Nat.zero_add, List.drop_length]

def HoldLongNumber (data : List UInt8) : Prop := Number.IsLong (Number.ofSignedBytes data)

theorem readRestNumber_error {data : List UInt8} {f : Fault} :
    readRestNumber.onBytes data = .error f ↔ f = .digitLimit ∧ HoldLongNumber data := by
  rw [HoldLongNumber, ← Number.numeral_error, Read.onBytes, EStateM.run, readRestNumber,
    bind_ok (rest_all data)]
  cases Number.numeral (Number.ofSignedBytes data) with
  | ok s =>
    constructor
    · intro stop
      cases stop
    · intro stop
      cases stop
  | error g =>
    constructor
    · intro stop
      cases stop
      rfl
    · intro stop
      cases stop
      rfl

theorem restNumber_error {name : String} {data : List UInt8} {f : Fault} :
    (readFields [(name, .restNumber)]).onBytes data = .error f ↔
      f = .digitLimit ∧ HoldLongNumber data := by
  have single : readFields [(name, .restNumber)] =
      (fun n => [(name, FieldValue.number n)]) <$> readRestNumber := by
    simp [readFields, FieldType.read]
  rw [single, onBytes_map, except_map_error, readRestNumber_error]

def taskKinds : List String := ["TaskStart", "TaskStop"]

theorem mem_table {name : String} {layout : Layout} (h : Layout.ofKind? name = some layout) :
    ∃ kinds, (kinds, layout) ∈ Layout.table ∧ name ∈ kinds := by
  obtain ⟨⟨kinds, _⟩, found, rfl⟩ := Option.map_eq_some_iff.mp h
  have named : name ∈ kinds := by simpa using List.find?_some found
  exact ⟨kinds, List.mem_of_find?_eq_some found, named⟩

theorem layout_numbers {name : String} {layout : Layout} (h : Layout.ofKind? name = some layout) :
    (∀ f ∈ layout.fields, f.2 ≠ .restNumber) ∧ name ∉ taskKinds ∨
      layout.fields = [("value", .restNumber)] ∧ name ∈ taskKinds := by
  have table : ∀ e ∈ Layout.table,
      (∀ f ∈ e.2.fields, f.2 ≠ .restNumber) ∧ (∀ name ∈ e.1, name ∉ taskKinds) ∨
        e.2.fields = [("value", .restNumber)] ∧ ∀ name ∈ e.1, name ∈ taskKinds := by
    decide
  obtain ⟨kinds, listed, named⟩ := mem_table h
  rcases table _ listed with ⟨none, others⟩ | ⟨only, tasks⟩
  · exact Or.inl ⟨none, others name named⟩
  · exact Or.inr ⟨only, tasks name named⟩

theorem ofKind_task {name : String} (h : name ∈ taskKinds) :
    Layout.ofKind? name = some (.inOrder [("value", .restNumber)]) := by
  have each : ∀ name ∈ taskKinds,
      Layout.ofKind? name = some (.inOrder [("value", .restNumber)]) := by
    decide
  exact each name h

theorem decodeKind_error {data : List UInt8} {kind : Kind} {f : Fault} :
    decodeKind data kind = .error f ↔
      f = .digitLimit ∧ kind.name ∈ taskKinds ∧ HoldLongNumber data := by
  unfold decodeKind
  cases known : Layout.ofKind? kind.name with
  | none =>
    have other : kind.name ∉ taskKinds := by
      intro task
      rw [ofKind_task task] at known
      cases known
    simp [other]
  | some layout =>
    dsimp only
    rcases layout_numbers known with ⟨plain, other⟩ | ⟨only, task⟩
    · cases read : (readFields layout.fields).onBytes data with
      | ok found => simp [other]
      | error g =>
        have inBytes : g.isDecode = true := (fields_stop plain).onBytes read
        simp [inBytes, other]
    · rw [only]
      cases read : (readFields [("value", .restNumber)]).onBytes data with
      | ok found =>
        have short : ¬ HoldLongNumber data := by
          intro long
          rw [restNumber_error.mpr ⟨rfl, long⟩] at read
          cases read
        simp [short]
      | error g =>
        obtain ⟨rfl, long⟩ := restNumber_error.mp read
        have outside : ¬ Fault.digitLimit.isDecode = true := by decide
        simp [outside, task, long, eq_comm]

/-- A task whose number has too many digits. -/
def NumberUnread (data : List UInt8) (hint : Option Text) : Prop :=
  ∃ kind, Kind.ofHint hint = .ok (some kind) ∧ kind.name ∈ taskKinds ∧ HoldLongNumber data

theorem decode_error {data : List UInt8} {hint : Option Text} :
    (∃ f, decode data hint = .error f) ↔ HintUnread hint ∨ NumberUnread data hint := by
  unfold decode NumberUnread
  rw [← ofHint_error]
  cases named : Kind.ofHint hint with
  | error f => simp [bind, Except.bind]
  | ok kind =>
    cases kind with
    | none => simp [bind, Except.bind, pure, Except.pure]
    | some kind => simp [bind, Except.bind, decodeKind_error]

/-- What a decoded event shows of its bytes, and what is told about fields that are absent. -/
structure Reports (data : List UInt8) (hint : Option Text) (e : Decoded) (warnings : List Text) :
    Prop where
  raw : e.toJson.get? "raw_hex" = some (.str (Text.Hex.encode data))
  -- Where no fields are shown, one warning says why.
  absent : e.toJson.get? "decoded" = none → ∃ line, warnings = [line]
  -- Where they cannot be read, the warning describes the cause.
  failed : ∀ kind layout f, Kind.ofHint hint = .ok (some kind) →
    Layout.ofKind? kind.name = some layout → (readFields layout.fields).onBytes data = .error f →
      e.toJson.get? "decoded" = none ∧ warnings = [f.message]

theorem raw_shown (e : Decoded) :
    e.toJson.get? "raw_hex" = some (.str (Text.Hex.encode e.data)) := by
  cases kind : e.kind <;> cases id : e.kindId <;>
    simp [Decoded.toJson, Json.get?, Json.field?, Json.member?, Json.member, kind, id,
      List.lookup_cons, Text.beq_ofString]

theorem fields_shown (e : Decoded) :
    e.toJson.get? "decoded" = e.fields.map fun f => f.1.toJson f.2 := by
  cases kind : e.kind <;> cases id : e.kindId <;> cases fields : e.fields <;>
    simp [Decoded.toJson, Json.get?, Json.field?, Json.member?, Json.member, kind, id, fields,
      List.lookup_cons, Text.beq_ofString]

theorem decodeKind_ok {data : List UInt8} {kind : Kind} {e : Decoded} {warnings : List Text}
    (h : decodeKind data kind = .ok (e, warnings)) :
    e.data = data ∧ (e.fields = none → ∃ line, warnings = [line]) ∧
      ∀ layout f, Layout.ofKind? kind.name = some layout →
        (readFields layout.fields).onBytes data = .error f →
          e.fields = none ∧ warnings = [f.message] := by
  unfold decodeKind at h
  cases known : Layout.ofKind? kind.name with
  | none =>
    rw [known] at h
    cases h
    exact ⟨rfl, fun _ => ⟨_, rfl⟩, nofun⟩
  | some layout =>
    rw [known] at h
    dsimp only at h
    cases read : (readFields layout.fields).onBytes data with
    | ok found =>
      rw [read] at h
      cases h
      refine ⟨rfl, nofun, ?_⟩
      rintro _ f ⟨⟩ stop
      rw [read] at stop
      cases stop
    | error f =>
      rw [read] at h
      dsimp only at h
      by_cases reported : f.isDecode = true
      · rw [if_pos reported] at h
        cases h
        refine ⟨rfl, fun _ => ⟨_, rfl⟩, ?_⟩
        rintro _ g ⟨⟩ stop
        rw [read] at stop
        cases stop
        exact ⟨rfl, rfl⟩
      · rw [if_neg reported] at h
        cases h

/-- Every event is reported, except where the hint is of digits that name no number or a task holds
a number of too many digits. Those two stop the decode. -/
theorem decode_reports (data : List UInt8) (hint : Option Text) :
    ((∃ f, decode data hint = .error f) ↔ HintUnread hint ∨ NumberUnread data hint) ∧
      ∀ e warnings, decode data hint = .ok (e, warnings) → Reports data hint e warnings := by
  refine ⟨decode_error, fun e warnings done => ?_⟩
  rw [decode] at done
  cases named : Kind.ofHint hint with
  | error f =>
    rw [named] at done
    cases done
  | ok known =>
    rw [named] at done
    cases known with
    | none =>
      cases done
      refine ⟨raw_shown _, fun _ => ⟨_, rfl⟩, ?_⟩
      intro kind layout f some
      cases named.symm.trans some
    | some kind =>
      obtain ⟨rfl, absent, failed⟩ := decodeKind_ok done
      refine ⟨raw_shown e, ?_, ?_⟩
      · intro none
        rw [fields_shown, Option.map_eq_none_iff] at none
        exact absent none
      · intro other layout f same found stop
        cases named.symm.trans same
        rw [fields_shown, Option.map_eq_none_iff]
        exact failed layout f found stop

/-- A superscript two is a digit, but no numeral has it. -/
theorem decode_superscriptHint :
    decode [0] (some "²") = .error (.badNumeral "²") ∧
      ¬ ∃ e warnings, decode [0] (some "²") = .ok (e, warnings) := by
  have stops : decode [0] (some "²") = .error (.badNumeral "²") := rfl
  refine ⟨stops, ?_⟩
  rintro ⟨e, warnings, done⟩
  rw [stops] at done
  cases done

end Event

end ChainDecode
