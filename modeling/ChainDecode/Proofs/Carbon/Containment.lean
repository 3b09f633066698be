import ChainDecode.Proofs.Carbon.Bounds
import ChainDecode.Proofs.Carbon.CallWarning

/-! # Causes that stay inside a call

The decoder of calls turns whatever stops an argument into a warning. Here only causes in the bytes
become warnings and all others escape. Reading an argument meets no others, so nothing escapes and
both decoders agree.
-/
namespace ChainDecode

theorem except_mapM_ok {α β : Type} {f : α → Except Fault β} {g : α → β} {items : List α}
    (h : ∀ x, f x = .ok (g x)) : items.mapM f = .ok (items.map g) := by
  induction items with
  | nil => rfl
  | cons x items ih =>
    rw [List.mapM_cons, h, ih]
    rfl

end ChainDecode

namespace ChainDecode.Carbon

namespace Strict

/-- Decodes arguments in order. Only a cause in the bytes ends the list. -/
def decodeArgsFrom (readArg : ArgType → ArgRead Value) (method : String) :
    List ArgDef → ArgState → Except Fault (List CallArgument × List Text)
  | [], s => .ok ([], s.warnings ++ trailingWarning s.cursor.remaining)
  | arg :: rest, s =>
    match readArg arg.type s with
    | .ok v after => do
      let (arguments, warnings) ← decodeArgsFrom readArg method rest after
      .ok (⟨arg.name, arg.type.name, v⟩ :: arguments, warnings)
    | .error f after =>
      if f.isDecode then
        if arg.isOptional && f.isEndOfStream then
          .ok ([], after.warnings ++ trailingWarning after.cursor.remaining)
        else .ok ([], after.warnings ++ [failureWarning method arg f])
      else .error f

def decodeArgs (readArg : ArgType → ArgRead Value) (signature : Option CallSignature)
    (args : List UInt8) : Except Fault (Option (List CallArgument) × List Text) :=
  match signature with
  | none => .ok (none, [])
  | some s => do
    let (arguments, warnings) ← decodeArgsFrom readArg s.name s.args ⟨.start args, []⟩
    .ok (some arguments, warnings)

def decodeSection (readArg : ArgType → ArgRead Value) (signature : Option CallSignature)
    (s : RawSection) : Except Fault (CallSection × List Text) :=
  if 0 ≤ s.registerOffset then do
    let (arguments, warnings) ← decodeArgs readArg signature s.args
    .ok (⟨s.registerOffset, some (s.args, arguments)⟩, warnings)
  else .ok (⟨s.registerOffset, none⟩, [])

def decodeCallWith (readArg : ArgType → ArgRead Value) (c : RawCall) :
    Except Fault (Call × List Text) :=
  let signature := Catalog.lookup c.module c.method
  let call := Call.mk c.module c.method (Catalog.moduleName? c.module) (signature.map (·.name))
  match c.sections with
  | some (first :: rest) => do
    let decoded ← (first :: rest).mapM (decodeSection readArg signature)
    .ok (call (.sections (decoded.map (·.1))), decoded.flatMap (·.2))
  | _ => do
    let (arguments, warnings) ← decodeArgs readArg signature c.args
    .ok (call (.plain c.args arguments), warnings)

def readEmbedded (readArg : ArgType → ArgRead Value) (c : RawCall) : ArgRead Value :=
  match decodeCallWith readArg c with
  | .ok (call, warnings) => do
    ArgRead.warn warnings
    pure call.toValue
  | .error f => throw f

def readAllEmbedded (readArg : ArgType → ArgRead Value) : List RawCall → ArgRead (List Value)
  | [] => pure []
  | c :: rest => do
    let v ← readEmbedded readArg c
    let values ← readAllEmbedded readArg rest
    pure (v :: values)

def readArg : (levels : Nat) → ArgType → ArgRead Value
  | 0, _ => throw .argumentDepth
  | levels + 1, type =>
    match type with
    | .plain p => ArgRead.lift p.layout.read
    | .dynamicStruct => ArgRead.lift (readStruct levels)
    | .dynamicVariable => ArgRead.lift (readVariableRecord levels)
    | .organizationImport => do
      let name ← ArgRead.lift Layout.smallText.read
      let owner ← ArgRead.lift Layout.key.read
      let metadata ← ArgRead.lift (readStruct levels)
      let members ← readArg levels (.array (.plain .memberImport))
      pure (.record
        [("info", .record [("name", name), ("owner", owner), ("metadata", metadata)]),
          ("member_imports", members)])
    | .seriesImport => do
      let token ← ArgRead.lift Layout.u64.read
      let info ← ArgRead.lift Layout.seriesInfo.read
      let imports ← readArg levels (.array (.plain .nftImport))
      pure (.record [("token_id", token), ("info", info), ("imports", imports)])
    | .calls => do
      let raws ← ArgRead.lift RawCall.readMany
      return .list (← readAllEmbedded (readArg levels) raws)
    | .array (.plain .bytes) => ArgRead.lift (Layout.counted .bytes).read
    | .array item => readArray (readArg levels item)
    | .unknown name => throw (.argumentType name)

def decodeCall (depth : Int) (c : RawCall) : Except Fault (Call × List Text) :=
  decodeCallWith (readArg (levelsFrom depth)) c

def decodeCalls (calls : List RawCall) : Except Fault (List Call × List Text) := do
  let decoded ← calls.mapM (decodeCall 0)
  .ok (decoded.map (·.1), decoded.flatMap (·.2))

def decodeMessage : Message → Except Fault (Calls × List Text)
  | .call c => do
    let (call, warnings) ← decodeCall 0 c
    .ok (.one call, warnings)
  | .calls items => do
    let (calls, warnings) ← decodeCalls items
    .ok (.many calls, warnings)
  | .fields _ => .ok (.none, [])

/-- Decodes a transaction in an envelope. What escapes from its calls escapes from it. -/
def decode (bytes : List UInt8) : Except Fault (Transaction × List Text) := do
  let (envelope, cursor) ← Envelope.read.onBytes bytes
  let (calls, warnings) ← decodeMessage envelope.message
  .ok ({ (Transaction.ofEnvelope envelope).1 with calls := calls },
    Transaction.trailing cursor ++ warnings)

end Strict

def ArgType.strangers : ArgType → List Text
  | .array item => item.strangers
  | .unknown name => [name]
  | _ => []

/-- A kind that the causes of argument values are of, unknown types apart. -/
class CoversArguments (kind : Fault → Prop) : Prop extends CoversStreams kind where
  valueDepth : kind .valueDepth
  valueType : ∀ base, kind (.valueType base)
  argumentDepth : kind .argumentDepth
  nodes : kind .negativeNodes
  array : kind .negativeArray

section Causes

variable {α : Type} {kind : Fault → Prop} [CoversArguments kind]

omit [CoversArguments kind] in
theorem lift_stops {r : Read α} (h : StopsOnly kind r) : StopsOnly kind (ArgRead.lift r) := by
  intro s f t e
  exact h s.cursor f t.cursor (of_lift_error e).1

theorem plain_stops (type : PlainType) : StopsOnly kind type.layout.read := by
  have causes : ∀ f ∈ type.layout.causes, f = .negativeNodes := by
    cases type <;> decide
  refine layout_stops type.layout fun f member => ?_
  rw [causes f member]
  exact CoversArguments.nodes

theorem element_stops {struct : Read Value} (h : StopsOnly kind struct) (base : Nat) :
    StopsOnly kind (readElement struct base) := by
  unfold readElement
  split
  · exact .pure _
  · exact .bind (.signed 1) fun _ => .pure _
  · exact .bind (.signed 2) fun _ => .pure _
  · exact .bind (.signed 4) fun _ => .pure _
  · exact .bind (.signed 8) fun _ => .pure _
  · exact .bind (.signed 32) fun _ => .pure _
  · exact .bind .byteArray fun _ => .pure _
  · exact .bind .byteArray fun _ => .pure _
  · exact .bind (.stream_take 16) fun _ => .pure _
  · exact .bind (.stream_take 32) fun _ => .pure _
  · exact .bind (.stream_take 64) fun _ => .pure _
  · exact h
  · exact .throw (CoversArguments.valueType _)

mutual

theorem struct_stops : (levels : Nat) → StopsOnly kind (readStruct levels)
  | 0 => by
    rw [readStruct]
    exact .throw CoversArguments.valueDepth
  | levels + 1 => by
    have named : StopsOnly kind (readNamed (readVariable levels)) :=
      .bind .smallText fun _ => .bind (variable_stops levels) fun _ => .pure _
    rw [readStruct]
    exact .bind .count fun n => .bind (.times named n) fun _ => .pure _

theorem variable_stops : (levels : Nat) → StopsOnly kind (readVariable levels)
  | 0 => by
    rw [readVariable]
    exact .throw CoversArguments.valueDepth
  | levels + 1 => by
    have element := element_stops (struct_stops levels)
    have typed : ∀ code, StopsOnly kind (readTyped (readStruct levels) code) := fun code =>
      .ite (.bind .count fun n => .bind (.times (element (baseOf code)) n) fun _ => .pure _)
        (element (baseOf code))
    rw [readVariable]
    exact .bind (.word 1) fun _ => .bind (typed _) fun _ => .pure _

end

omit [CoversArguments kind] in
theorem embedded_stops (read : ArgType → ArgRead Value) (raws : List RawCall) :
    StopsOnly kind (readAllEmbedded read raws) := by
  induction raws with
  | nil => exact .pure []
  | cons c rest ih =>
    have call : StopsOnly kind (readEmbedded read c) := by
      intro s f t e
      cases e
    exact .bind call fun _ => .bind ih fun _ => .pure _

theorem argument_stops (levels : Nat) (type : ArgType)
    (strange : ∀ name ∈ type.strangers, kind (.argumentType name)) :
    StopsOnly kind (readArg levels type) := by
  induction levels generalizing type with
  | zero => exact .throw CoversArguments.argumentDepth
  | succ levels ih =>
    have items : ∀ p : PlainType, StopsOnly kind (readArg levels (.array (.plain p))) := by
      intro p
      refine ih _ fun name member => ?_
      cases member
    unfold readArg
    split
    · exact lift_stops (plain_stops _)
    · exact lift_stops (struct_stops levels)
    · exact lift_stops (.map _ (variable_stops levels))
    · exact .bind (lift_stops (plain_stops .smallText)) fun _ =>
        .bind (lift_stops (plain_stops .bytes32)) fun _ =>
          .bind (lift_stops (struct_stops levels)) fun _ => .bind (items _) fun _ => .pure _
    · exact .bind (lift_stops (plain_stops .u64)) fun _ =>
        .bind (lift_stops (plain_stops .seriesInfo)) fun _ => .bind (items _) fun _ => .pure _
    · exact .bind (lift_stops calls_stop) fun raws =>
        .bind (embedded_stops _ raws) fun _ => .pure _
    · refine lift_stops (layout_stops _ fun f member => ?_)
      cases member
    · rename_i item _
      have count : StopsOnly kind (readListCount .negativeArray) :=
        .bind (.signed 4) fun _ => .ite (.throw CoversArguments.array) (.pure _)
      have inner : StopsOnly kind (readArg levels item) := ih item strange
      exact .bind (lift_stops count) fun n => .bind (.times inner n) fun _ => .pure _
    · exact .throw (strange _ List.mem_cons_self)

end Causes

instance : CoversArguments InBytes where
  valueDepth := rfl
  valueType _ := rfl
  argumentDepth := rfl
  nodes := rfl
  array := rfl

theorem argument_inBytes (levels : Nat) (type : ArgType) :
    StopsOnly InBytes (readArg levels type) :=
  argument_stops levels type fun _ _ => rfl

/-- A cause in the bytes that is not an unknown type. -/
structure OfKnownType (f : Fault) : Prop where
  inBytes : InBytes f
  known : ∀ name, f ≠ .argumentType name

instance : CoversArguments OfKnownType where
  short _ _ _ := ⟨rfl, nofun⟩
  tooMany _ _ := ⟨rfl, nofun⟩
  negative _ _ := ⟨rfl, nofun⟩
  valueDepth := ⟨rfl, nofun⟩
  valueType _ := ⟨rfl, nofun⟩
  argumentDepth := ⟨rfl, nofun⟩
  nodes := ⟨rfl, nofun⟩
  array := ⟨rfl, nofun⟩

/-- Every signature of the catalog. -/
def signatures : List CallSignature :=
  Catalog.governance ++ Catalog.token ++ Catalog.virtualMachine ++ Catalog.market

theorem mem_signatures {module method : Int} {signature : CallSignature}
    (h : Catalog.lookup module method = some signature) : signature ∈ signatures := by
  unfold Catalog.lookup at h
  split at h
  · cases h
  · have member := List.mem_of_getElem? h
    simp only [signatures, List.mem_append]
    unfold Catalog.methods at member
    split at member
    · exact Or.inl (Or.inl (Or.inl member))
    · exact Or.inl (Or.inl (Or.inr member))
    · exact Or.inl (Or.inr member)
    · exact Or.inr member
    · cases member

/-- The catalog names no unknown type. -/
theorem signatures_known : ∀ s ∈ signatures, ∀ arg ∈ s.args, arg.type.strangers = [] := by
  decide

namespace Strict

section Same

variable {read : ArgType → ArgRead Value} (stops : ∀ type, StopsOnly InBytes (read type))
include stops

theorem decodeArgsFrom_eq (method : String) (args : List ArgDef) (s : ArgState) :
    decodeArgsFrom read method args s = .ok (Carbon.decodeArgsFrom read method args s) := by
  induction args generalizing s with
  | nil => rfl
  | cons arg rest ih =>
    rw [decodeArgsFrom, Carbon.decodeArgsFrom]
    cases result : read arg.type s with
    | ok v after =>
      simp only [ih after]
      rfl
    | error f after =>
      have cause : f.isDecode = true := stops arg.type s f after result
      simp only [cause, if_true]
      split <;> rfl

theorem decodeArgs_eq (signature : Option CallSignature) (args : List UInt8) :
    decodeArgs read signature args = .ok (Carbon.decodeArgs read signature args) := by
  cases signature with
  | none => rfl
  | some s =>
    simp only [decodeArgs, decodeArgsFrom_eq stops]
    rfl

theorem decodeSection_eq (signature : Option CallSignature) (s : RawSection) :
    decodeSection read signature s = .ok (Carbon.decodeSection read signature s) := by
  unfold decodeSection Carbon.decodeSection
  split
  · rw [decodeArgs_eq stops]
    rfl
  · rfl

theorem decodeCallWith_eq (c : RawCall) :
    decodeCallWith read c = .ok (Carbon.decodeCallWith read c) := by
  obtain ⟨module, method, args, sections⟩ := c
  have plain := decodeArgs_eq stops (Catalog.lookup module method) args
  have parts := decodeSection_eq stops (Catalog.lookup module method)
  rcases sections with _ | _ | ⟨first, rest⟩
  · simp only [decodeCallWith, plain]
    rfl
  · simp only [decodeCallWith, plain]
    rfl
  · simp only [decodeCallWith, except_mapM_ok parts]
    rfl

theorem readAllEmbedded_eq (raws : List RawCall) :
    readAllEmbedded read raws = Carbon.readAllEmbedded read raws := by
  induction raws with
  | nil => rfl
  | cons c rest ih =>
    have call : readEmbedded read c = Carbon.readEmbedded read c := by
      rw [readEmbedded, decodeCallWith_eq stops]
      rfl
    rw [readAllEmbedded, Carbon.readAllEmbedded, call, ih]

end Same

/-- Arguments are read alike at every depth: what their embedded calls meet stays inside them. -/
theorem readArg_eq (levels : Nat) : readArg levels = Carbon.readArg levels := by
  induction levels with
  | zero => rfl
  | succ levels ih =>
    funext type
    cases type with
    | plain p => rfl
    | dynamicStruct => rfl
    | dynamicVariable => rfl
    | organizationImport => rw [readArg, Carbon.readArg, ih]
    | seriesImport => rw [readArg, Carbon.readArg, ih]
    | calls =>
      have embedded := readAllEmbedded_eq (argument_inBytes levels)
      simp only [readArg, Carbon.readArg, ih, embedded]
    | array item =>
      by_cases bytes : item = .plain .bytes
      · subst bytes
        rfl
      · rw [readArg, Carbon.readArg, ih]
        · exact bytes
        · exact bytes
    | unknown name => rfl

theorem decodeCall_eq (depth : Int) (c : RawCall) :
    decodeCall depth c = .ok (Carbon.decodeCall depth c) := by
  rw [decodeCall, readArg_eq]
  exact decodeCallWith_eq (argument_inBytes _) c

theorem decodeCalls_eq (calls : List RawCall) :
    decodeCalls calls = .ok (Carbon.decodeCalls calls) := by
  rw [decodeCalls, except_mapM_ok (decodeCall_eq 0)]
  rfl

theorem decodeMessage_eq (m : Message) : decodeMessage m = .ok m.decodeCalls := by
  cases m with
  | call c =>
    rw [decodeMessage, decodeCall_eq]
    rfl
  | calls items =>
    rw [decodeMessage, decodeCalls_eq]
    rfl
  | fields v => rfl

theorem decode_eq (bytes : List UInt8) : decode bytes = Transaction.decode bytes := by
  unfold decode Transaction.decode
  cases Envelope.read.onBytes bytes with
  | ok found =>
    change (decodeMessage found.1.message >>= _) = _
    rw [decodeMessage_eq]
    rfl
  | error f => rfl

end Strict

theorem catalog_argument_known {module method : Int} {signature : CallSignature}
    (h : Catalog.lookup module method = some signature) {arg : ArgDef}
    (member : arg ∈ signature.args) (levels : Nat) (s t : ArgState) (name : Text) :
    readArg levels arg.type s ≠ .error (.argumentType name) t := by
  intro stop
  have none : ∀ stranger ∈ arg.type.strangers, OfKnownType (.argumentType stranger) := by
    rw [signatures_known signature (mem_signatures h) arg member]
    exact nofun
  exact (argument_stops levels arg.type none s _ t stop).known name rfl

/-- Nothing but a cause in the bytes of its envelope stops a transaction, and nothing at all stops
a call or a list of calls: no cause escapes from an argument, and none of the catalog's is of an
unknown type. -/
theorem causes_stay_inside_calls :
    (∀ bytes, Strict.decode bytes = Transaction.decode bytes ∧
      ((∃ t warnings, Transaction.decode bytes = .ok (t, warnings)) ∨
        ∃ f, Transaction.decode bytes = .error f ∧ (f.kind = .bounds ∨ f.kind = .format))) ∧
    (∀ depth c, Strict.decodeCall depth c = .ok (decodeCall depth c)) ∧
    (∀ calls, Strict.decodeCalls calls = .ok (decodeCalls calls)) ∧
    ∀ module method signature, Catalog.lookup module method = some signature →
      ∀ arg ∈ signature.args, ∀ levels s name t,
        readArg levels arg.type s ≠ .error (.argumentType name) t := by
  refine ⟨fun bytes => ⟨Strict.decode_eq bytes, ?_⟩, Strict.decodeCall_eq, Strict.decodeCalls_eq,
    ?_⟩
  · cases result : Transaction.decode bytes with
    | ok found => exact Or.inl ⟨found.1, found.2, rfl⟩
    | error f =>
      have cause : f.isDecode = true := decode_cause result
      exact Or.inr ⟨f, rfl, by simpa [Fault.isDecode] using cause⟩
  · intro module method signature h arg member levels s name t
    exact catalog_argument_known h member levels s t name

/-- A resolution whose embedded call has no argument bytes warns of that call, and its calls are of
a known type. -/
theorem resolution_keeps_its_causes :
    (∃ signature, Catalog.lookup 0 2 = some signature ∧
      Catalog.arg "calls" .calls ∈ signature.args ∧
      ∀ levels s name t, readArg levels .calls s ≠ .error (.argumentType name) t) ∧
    (decodeCall 0 ⟨0, 2, List.replicate 8 0 ++ [1, 0, 0, 0] ++ [0, 0, 0, 0, 1, 0, 0, 0, 0, 0, 0, 0],
        none⟩).2 =
      [.ofString ("Call arg decode failed (RegisterName.address: bytes32): " ++
        "end of stream: need 32 bytes at offset 0, 0 remaining")] := by
  refine ⟨⟨_, rfl, by decide, ?_⟩, by decide +kernel⟩
  exact causes_stay_inside_calls.2.2.2 0 2 _ rfl (Catalog.arg "calls" .calls) (by decide)

end ChainDecode.Carbon
