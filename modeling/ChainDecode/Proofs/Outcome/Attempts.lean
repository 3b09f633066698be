import ChainDecode.Proofs.Carbon.CallViews
import ChainDecode.Proofs.Outcome.Totality

/-! # What attempts leave in an outcome

One outcome is filled by up to three attempts: as Carbon, as the virtual machine's, and as the
virtual machine's inside Carbon. What an attempt that fails leaves is its report, and nothing of an
attempt is mixed with another.
-/
namespace ChainDecode.Outcome

/-- The outcome is of this input, and holds nothing of what other decodes find. -/
structure OfInput (input format : Text) (o : Outcome) : Prop where
  source : o.source = .transactionHex
  input : o.input = input
  format : o.format = format
  origin : o.origin = none
  event : o.event = none
  rom : o.rom = none
  address : o.address = none

/-- The text is no hexadecimal, which is the only error. -/
structure Unreadable (text : Text) (o : Outcome) : Prop where
  errors : ∃ f, Text.Hex.decode text = .error f ∧ o.errors = [f.message]
  warnings : o.warnings = []
  carbon : o.carbon = none
  vm : o.vm = none

def Carries (t : Carbon.Transaction) (inner : List UInt8) : Prop :=
  Carbon.TxType.ofJson? t.type = some .phantasmaRaw ∧
    t.message = .fields (.record [("transaction", .bytes inner)])

inductive Adds (c : Vm.Conventions) (t : Carbon.Transaction) :
    Option Vm.Transaction → List Text → Prop where
  | nothing (other : Carbon.TxType.ofJson? t.type ≠ some .phantasmaRaw) : Adds c t none []
  | missing (carries : Carries t []) :
      Adds c t none ["Phantasma_Raw payload missing inner transaction bytes"]
  | decoded {inner : List UInt8} {vm : Vm.Transaction} {warnings : List Text}
      (carries : Carries t inner) (some : inner ≠ [])
      (found : Vm.Transaction.decode c inner = .ok (vm, warnings)) : Adds c t (.some vm) warnings
  | refused {inner : List UInt8} {f : Fault} (carries : Carries t inner) (some : inner ≠ [])
      (stop : Vm.Transaction.decode c inner = .error f) :
      Adds c t none ["Phantasma_Raw inner VM decode failed: " ++ f.message]

/-- The bytes are a Carbon transaction. Its warnings come first. -/
structure AsCarbon (c : Vm.Conventions) (bytes : List UInt8) (o : Outcome) : Prop where
  found : ∃ t own more, Carbon.Transaction.decode bytes = .ok (t, own) ∧ o.carbon = some t ∧
    o.warnings = own ++ more ∧ Adds c t o.vm more
  errors : o.errors = []

/-- The bytes are a transaction of the virtual machine alone. -/
structure AsVm (c : Vm.Conventions) (bytes : List UInt8) (o : Outcome) : Prop where
  refused : ∃ f, Carbon.Transaction.decode bytes = .error f
  found : ∃ vm, Vm.Transaction.decode c bytes = .ok (vm, o.warnings) ∧ o.vm = some vm
  carbon : o.carbon = none
  errors : o.errors = []

/-- The bytes are neither. Only the cause of the last attempt is told. -/
structure AsNeither (c : Vm.Conventions) (bytes : List UInt8) (o : Outcome) : Prop where
  refused : ∃ f, Carbon.Transaction.decode bytes = .error f
  errors : ∃ f, Vm.Transaction.decode c bytes = .error f ∧
    o.errors = [f.message, "failed to decode as Carbon or VM"]
  warnings : o.warnings = []
  carbon : o.carbon = none
  vm : o.vm = none

theorem raw_message : Carbon.Message.read .phantasmaRaw =
    Stream.byteArray >>= fun inner =>
      pure (Carbon.Message.fields (.record [("transaction", .bytes inner)])) := by
  show (Carbon.Layout.phantasmaRaw.read >>= fun v => pure (Carbon.Message.fields v)) = _
  simp only [Carbon.Layout.phantasmaRaw, Carbon.Layout.read, Carbon.Layout.readFields, bind_assoc,
    pure_bind]

theorem readOf_raw (code : Json) :
    Yields (fun m => Carbon.TxType.ofJson? code = some .phantasmaRaw →
        ∃ inner, m = .fields (.record [("transaction", .bytes inner)]))
      (Carbon.Message.readOf code) := by
  intro c m d read raw
  obtain ⟨type, kind, read⟩ := Carbon.readOf_ok read
  rw [raw] at kind
  cases kind
  rw [raw_message] at read
  obtain ⟨inner, _, _, read⟩ := of_bind_ok read
  cases read
  exact ⟨inner, rfl⟩

theorem decoded_carries {bytes : List UInt8} {t : Carbon.Transaction} {warnings : List Text}
    (h : Carbon.Transaction.decode bytes = .ok (t, warnings))
    (raw : Carbon.TxType.ofJson? t.type = some .phantasmaRaw) : ∃ inner, Carries t inner := by
  have envelope : Yields (fun e : Carbon.Envelope =>
      Carbon.TxType.ofJson? (.nat e.type) = some .phantasmaRaw →
        ∃ inner, e.message = .fields (.record [("transaction", .bytes inner)]))
      Carbon.Envelope.read :=
    .after fun type => .after fun _ => .after fun _ => .after fun _ => .after fun _ =>
      .after fun _ => .bind (readOf_raw (.nat type)) fun _ inner => .after fun _ => .pure inner
  obtain ⟨⟨e, _⟩, read, found⟩ := except_bind_ok.mp h
  cases found
  obtain ⟨inner, carried⟩ := envelope.onBytes read raw
  exact ⟨inner, raw, carried⟩

variable {c : Vm.Conventions} {bytes : List UInt8} {input format : Text}
  {o shown : Outcome}

theorem addInner_adds {t : Carbon.Transaction} (empty : o.vm = none)
    (carries : Carbon.TxType.ofJson? t.type = some .phantasmaRaw → ∃ inner, Carries t inner)
    (h : addInner c t o = .ok shown) :
    ∃ vm more, Adds c t vm more ∧ shown = { o with vm := vm, warnings := o.warnings ++ more } := by
  unfold addInner at h
  split at h
  · rename_i other
    cases h
    exact ⟨none, [], .nothing other, by rw [← empty, List.append_nil]⟩
  · rename_i raw
    obtain ⟨inner, carried⟩ := carries (not_not.mp raw)
    have bytes : t.message.inner?.getD [] = inner := by
      rw [carried.2]
      rfl
    rw [bytes] at h
    split at h
    · cases h
      exact ⟨none, _, .missing carried, by rw [← empty]; rfl⟩
    · rename_i some
      cases decoded : Vm.Transaction.decode c inner with
      | ok found =>
        rw [decoded] at h
        cases h
        exact ⟨_, _, .decoded carried some decoded, rfl⟩
      | error f =>
        rw [decoded] at h
        dsimp only at h
        split at h
        · cases h
          exact ⟨none, _, .refused carried some decoded, by rw [← empty]; rfl⟩
        · cases h

theorem addVm_attempt (refused : ∃ f, Carbon.Transaction.decode bytes = .error f)
    (h : addVm c bytes (start .transactionHex input format) = .ok shown) :
    OfInput input format shown ∧ (AsVm c bytes shown ∨ AsNeither c bytes shown) := by
  unfold addVm at h
  cases decoded : Vm.Transaction.decode c bytes with
  | ok found =>
    rw [decoded] at h
    cases h
    exact ⟨⟨rfl, rfl, rfl, rfl, rfl, rfl, rfl⟩, Or.inl ⟨refused, ⟨found.1, decoded, rfl⟩, rfl, rfl⟩⟩
  | error f =>
    rw [decoded] at h
    dsimp only at h
    split at h
    · cases h
      exact ⟨⟨rfl, rfl, rfl, rfl, rfl, rfl, rfl⟩,
        Or.inr ⟨refused, ⟨f, decoded, rfl⟩, rfl, rfl, rfl⟩⟩
    · cases h

theorem addBytes_attempt (h : addBytes c bytes (start .transactionHex input format) = .ok shown) :
    OfInput input format shown ∧
      (AsCarbon c bytes shown ∨ AsVm c bytes shown ∨ AsNeither c bytes shown) := by
  unfold addBytes at h
  cases decoded : Carbon.Transaction.decode bytes with
  | ok found =>
    obtain ⟨t, own⟩ := found
    rw [decoded] at h
    obtain ⟨vm, more, adds, rfl⟩ := addInner_adds rfl (decoded_carries decoded) h
    exact ⟨⟨rfl, rfl, rfl, rfl, rfl, rfl, rfl⟩,
      Or.inl ⟨⟨t, own, more, decoded, rfl, rfl, adds⟩, rfl⟩⟩
  | error f =>
    rw [decoded] at h
    dsimp only at h
    split at h
    · obtain ⟨same, attempt⟩ := addVm_attempt ⟨f, decoded⟩ h
      exact ⟨same, Or.inr attempt⟩
    · cases h

theorem encode_small (bytes : List UInt8) :
    ∀ digit ∈ (Text.Hex.encode bytes).toList,
      Text.Hex.isHexDigit digit ∧ digit.toLower = digit := by
  intro digit member
  rw [Text.Hex.encode, String.toList_ofList] at member
  obtain ⟨n, small, rfl⟩ := Text.Hex.flatMap_written bytes digit member
  exact ⟨Text.Hex.hexDigit_digit small, Text.Hex.hexDigit_small small⟩

theorem ofHex_spelled (c : Vm.Conventions) (format : Text) {text : Text}
    (h : Text.Hex.decode text = .ok bytes) :
    ofHex c format text =
      addBytes c bytes (start .transactionHex (Text.Hex.encode bytes) format) := by
  unfold ofHex
  rw [h]
  rfl

theorem not_error_of_isOk {ε α : Type} {x : Except ε α} {e : ε} (h : x.isOk = true) :
    x ≠ .error e := by
  rintro rfl
  cases h

theorem not_ok_of_isOk {ε α : Type} {x : Except ε α} {a : α} (h : x.isOk = false) : x ≠ .ok a := by
  rintro rfl
  cases h

theorem ofHex_returns (c : Vm.Conventions) (format : Text) {text : Text}
    (spells : Text.Hex.decode text = .ok bytes)
    (h : (addBytes c bytes (start .transactionHex (Text.Hex.encode bytes) format)).isOk = true) :
    ∃ o, ofHex c format text = .ok o := by
  rw [ofHex_spelled c format spells]
  cases result : addBytes c bytes (start .transactionHex (Text.Hex.encode bytes) format) with
  | ok o => exact ⟨o, rfl⟩
  | error f => exact absurd result (not_error_of_isOk h)

/-- An outcome is one of four, each of which holds what one attempt found and nothing that another
one left. A text that spells bytes is replaced by their digits, in small letters, and every other
text that spells them has the same outcome. -/
theorem outcome_is_of_one_attempt (c : Vm.Conventions) (format text : Text) (o : Outcome)
    (h : ofHex c format text = .ok o) :
    (OfInput text format o ∧ Unreadable text o) ∨
      ∃ bytes, Text.Hex.decode text = .ok bytes ∧
        OfInput (Text.Hex.encode bytes) format o ∧
        (∀ digit ∈ (Text.Hex.encode bytes).toList,
          Text.Hex.isHexDigit digit ∧ digit.toLower = digit) ∧
        (AsCarbon c bytes o ∨ AsVm c bytes o ∨ AsNeither c bytes o) ∧
        ∀ other, Text.Hex.decode other = .ok bytes → ofHex c format other = .ok o := by
  cases spelled : Text.Hex.decode text with
  | error f =>
    unfold ofHex at h
    rw [spelled] at h
    cases h
    exact Or.inl ⟨⟨rfl, rfl, rfl, rfl, rfl, rfl, rfl⟩, ⟨f, spelled, rfl⟩, rfl, rfl, rfl⟩
  | ok bytes =>
    rw [ofHex_spelled c format spelled] at h
    obtain ⟨same, attempt⟩ := addBytes_attempt h
    exact Or.inr ⟨bytes, rfl, same, encode_small bytes, attempt, fun other spells =>
      (ofHex_spelled c format spells).trans h⟩

/-- A transaction of the nexus `a` and its chain `a` with nothing in it. -/
def blank : List UInt8 := [1, 97, 1, 97, 0, 0, 0, 0, 0, 0, 0]

def wrapped : List UInt8 :=
  16 :: List.replicate 57 0 ++ [11, 0, 0, 0] ++ blank ++ [0, 0, 0, 0]

/-- Each of the four is met, and the two zero bytes in two spellings. -/
theorem each_outcome_is_met :
    (∃ o, ofHex (.numbered none none) "pretty" "xyz" = .ok o ∧ Unreadable "xyz" o) ∧
    (∃ o, ofHex (.numbered none none) "pretty" (Text.Hex.encode wrapped) = .ok o ∧
      AsCarbon (.numbered none none) wrapped o) ∧
    (∃ o, ofHex (.numbered none none) "pretty" (Text.Hex.encode blank) = .ok o ∧
      AsVm (.numbered none none) blank o) ∧
    ∃ o, ofHex (.numbered none none) "pretty" "0000" = .ok o ∧
      ofHex (.numbered none none) "pretty" "0X 00 00" = .ok o ∧
      AsNeither (.numbered none none) [0, 0] o := by
  have one := outcome_is_of_one_attempt (.numbered none none) "pretty"
  have attempt {text : Text} {bytes : List UInt8} (spells : Text.Hex.decode text = .ok bytes)
      {o : Outcome} (result : ofHex (.numbered none none) "pretty" text = .ok o) :
      AsCarbon (.numbered none none) bytes o ∨ AsVm (.numbered none none) bytes o ∨
        AsNeither (.numbered none none) bytes o := by
    rcases one _ o result with ⟨-, ⟨f, bad, -⟩, -⟩ | ⟨bytes', spelled, -, -, attempt, -⟩
    · exact absurd (spells.symm.trans bad) nofun
    · cases spells.symm.trans spelled
      exact attempt
  refine ⟨?_, ?_, ?_, ?_⟩
  · cases spelled : Text.Hex.decode "xyz" with
    | ok bytes => exact absurd spelled (not_ok_of_isOk (by decide +kernel))
    | error f =>
      have result : ofHex (.numbered none none) "pretty" "xyz" =
          .ok ((start .transactionHex "xyz" "pretty").fail [f.message]) := by
        unfold ofHex
        rw [spelled]
      rcases one "xyz" _ result with ⟨-, unreadable⟩ | ⟨bytes, other, -⟩
      · exact ⟨_, result, unreadable⟩
      · exact absurd (spelled.symm.trans other) nofun
  · obtain ⟨o, result⟩ := ofHex_returns (.numbered none none) "pretty"
      (Text.Hex.decode_encode wrapped) (by decide +kernel)
    have accepted : (Carbon.Transaction.decode wrapped).isOk = true := by decide +kernel
    rcases attempt (Text.Hex.decode_encode wrapped) result with
      carbon | ⟨⟨f, stop⟩, -⟩ | ⟨⟨f, stop⟩, -⟩
    · exact ⟨o, result, carbon⟩
    · exact absurd stop (not_error_of_isOk accepted)
    · exact absurd stop (not_error_of_isOk accepted)
  · obtain ⟨o, result⟩ := ofHex_returns (.numbered none none) "pretty"
      (Text.Hex.decode_encode blank) (by decide +kernel)
    rcases attempt (Text.Hex.decode_encode blank) result with
      ⟨⟨t, own, more, found, -⟩, -⟩ | vm | ⟨-, ⟨f, stop, -⟩, -⟩
    · exact absurd found (not_ok_of_isOk (by decide +kernel))
    · exact ⟨o, result, vm⟩
    · exact absurd stop (not_error_of_isOk (by decide +kernel))
  · have zeros : Text.Hex.decode "0000" = .ok [0, 0] := Text.Hex.decode_encode [0, 0]
    obtain ⟨o, result⟩ := ofHex_returns (.numbered none none) "pretty" zeros (by decide +kernel)
    have spelled : ofHex (.numbered none none) "pretty" "0X 00 00" = .ok o := by
      rcases one _ o result with ⟨-, ⟨f, bad, -⟩, -⟩ | ⟨bytes, same, -, -, -, others⟩
      · exact absurd (zeros.symm.trans bad) nofun
      · cases zeros.symm.trans same
        exact others "0X 00 00" (by rfl)
    rcases attempt zeros result with
      ⟨⟨t, own, more, found, -⟩, -⟩ | ⟨-, ⟨vm, found, -⟩, -⟩ | neither
    · exact absurd found (not_ok_of_isOk (by decide +kernel))
    · exact absurd found (not_ok_of_isOk (by decide +kernel))
    · exact ⟨o, result, spelled, neither⟩

end ChainDecode.Outcome
