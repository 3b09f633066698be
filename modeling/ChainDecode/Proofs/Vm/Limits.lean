import ChainDecode.Proofs.Vm.Assembly
import ChainDecode.Proofs.Vm.Calls
import ChainDecode.Vm.Transaction

/-! # Scripts whose numbers are too long

A number has no numeral when it has more digits than any numeral may have. That is the one cause
that leaves the analysis of a script, and it is told here from the script's history when it does.
-/
namespace ChainDecode.Vm

theorem bytes_stop : StopsOnly InBytes Container.readBytes :=
  .bufferArray _ StopsOnly.varintMax_short

theorem signature_stops : StopsOnly InBytes Container.readSignature := by
  exact .bind (.bufferWord _ 1) fun _ => .ite (.pure _)
    (.ite (.bind bytes_stop fun _ => .pure _)
      (.ite (.bind (.bufferWord _ 1) fun _ => .bind bytes_stop fun _ => .pure _) (.throw rfl)))

theorem container_stops : StopsOnly InBytes Container.read := by
  -- The names only decide between the rest of the container and a cause.
  have body : ∀ nexus chain : String, StopsOnly InBytes
      (do
        let script ← Container.readBytes
        let expiration ← Buffer.timestamp Container.label
        let payload ← Container.readBytes
        let count ← Buffer.length Container.label Buffer.varintMax
        let signatures ← times Container.readSignature count
        pure (Container.mk nexus chain script expiration payload signatures)) := fun _ _ =>
    .bind bytes_stop fun _ => .bind (.bufferWord _ 4) fun _ => .bind bytes_stop fun _ =>
      .bind (.length _ StopsOnly.varintMax_short) fun _ =>
        .bind (.times signature_stops _) fun _ => .pure _
  exact .bind (.bufferText _) fun nexus => .bind (.bufferText _) fun chain =>
    .ite (body nexus chain) (.throw rfl)

theorem operand_stops (shape : OperandShape) : StopsOnly InBytes shape.read := by
  cases shape with
  | byte => exact .bind (.bufferWord _ 1) fun _ => .pure _
  | target => exact .bind (.bufferWord _ 2) fun _ => .pure _
  | size => exact .bind (.varint _ operandMax_short) fun _ => .pure _
  | typeName => exact .bind (.bufferWord _ 1) fun _ => .pure _
  | payload =>
    exact .bind (.varint _ operandMax_short) fun n => .bind (.buffer_take _ n) fun _ => .pure _

theorem operands_stop (shapes : List OperandShape) :
    StopsOnly InBytes (readOperands shapes) := by
  induction shapes with
  | nil => exact .pure []
  | cons shape shapes ih =>
    exact .bind (operand_stops shape) fun _ => .bind ih fun _ => .pure _

theorem instruction_stops : StopsOnly InBytes readInstruction :=
  .bind .position fun _ => .bind (.bufferWord _ 1) fun _ =>
    .bind (operands_stop _) fun _ => .pure _

theorem instructions_stop (most : Nat) : StopsOnly InBytes (readInstructions most) := by
  induction most with
  | zero => exact .pure []
  | succ most ih =>
    exact .get_bind fun _ => .ite (.pure _) (.bind instruction_stops fun _ =>
      .ite (.pure _) (.bind ih fun _ => .pure _))

theorem disassemble_cause {script : List UInt8} {f : Fault} (h : disassemble script = .error f) :
    InBytes f := (instructions_stop _).onBytes (except_map_error.mp h)

/-- A protocol version that is a number, if one is given. -/
def Conventions.numbered (table : Option Abi.Table) (protocol : Option Int) : Conventions :=
  ⟨table, protocol.map .int⟩

/-- A call that cannot be shown: its contract or its method is named by a long number, or it does
not match a protocol version that is one, or such a number is an argument of the signature that it
was resolved to. -/
def Site.IsLong (c : Conventions) (s : Site) : Prop :=
  (∃ v ∈ s.naming, v.IsLong) ∨
    ∃ contract method, s.contract = .ok contract ∧ s.method = .ok method ∧
      (LongVersion c.protocol (callKey contract method) s.operands.length ∨
        (c.fitting (callKey contract method) s.operands.length).length = 1 ∧
          ∃ v ∈ s.operands, v.IsLong)

/-- A script with a call that cannot be shown, behind instructions that can be replayed. -/
def Overflows (c : Conventions) (script : List UInt8) : Prop :=
  ∃ front i back calls m, disassemble script = .ok (front ++ i :: back) ∧
    (replayAll c front).run .fresh = .ok calls m ∧
    i.calls = true ∧ Site.IsLong c ⟨front.reverse, i⟩

variable {table : Option Abi.Table} {protocol : Option Int}

theorem expectedArity_numbered {key : Text} {version : Json} {f : Fault}
    (numbered : (Conventions.numbered table protocol).protocol = some version) :
    expectedArity key version ≠ .error f := by
  obtain ⟨n, -, rfl⟩ := Option.map_eq_some_iff.mp numbered
  unfold expectedArity
  cases arityChange? key with
  | none => nofun
  | some change =>
    have number : (Json.int n).below? change.since = some (decide (n < change.since)) := rfl
    dsimp only
    rw [number]
    cases decide (n < change.since) <;> nofun

theorem mismatch_numbered {key : String} {given : Nat} {f : Fault} :
    mismatch (Conventions.numbered table protocol).protocol key given = .error f ↔
      f = .digitLimit ∧ LongVersion (Conventions.numbered table protocol).protocol key given := by
  rw [mismatch_error, or_iff_left]
  rintro ⟨version, numbered, stop⟩
  exact expectedArity_numbered numbered stop

theorem callOutcome_long {contract method : String} {operands : List Value} {f : Fault} :
    callOutcome (.numbered table protocol) contract method operands = .error f ↔
      f = .digitLimit ∧
        (LongVersion (Conventions.numbered table protocol).protocol (callKey contract method)
            operands.length ∨
          ((Conventions.numbered table protocol).fitting (callKey contract method)
            operands.length).length = 1 ∧ ∃ v ∈ operands, v.IsLong) := by
  unfold callOutcome
  dsimp only
  rw [except_bind_error, except_map_error, mismatch_numbered, and_or_left]
  constructor
  · rintro (arity | ⟨_, _, paired⟩)
    · exact Or.inl arity
    · exact Or.inr (shownPairing_error.mp (except_map_error.mp paired))
  · rintro (arity | ⟨rfl, one, long⟩)
    · exact Or.inl arity
    -- A version that cannot be shown stops the call before its arguments.
    cases checked : mismatch (Conventions.numbered table protocol).protocol
        (callKey contract method) operands.length with
    | error f =>
      obtain ⟨rfl, version⟩ := mismatch_numbered.mp checked
      exact Or.inl ⟨rfl, version⟩
    | ok warnings =>
      exact Or.inr ⟨(), rfl, except_map_error.mpr (shownPairing_error.mpr ⟨rfl, one, long⟩)⟩

theorem outcome_long {s : Site} {f : Fault} :
    s.outcome (.numbered table protocol) = .error f ↔
      f = .digitLimit ∧ s.IsLong (.numbered table protocol) := by
  unfold Site.outcome
  rw [except_bind_error]
  constructor
  · rintro (names | ⟨⟨contract, method⟩, names, call⟩)
    · obtain ⟨limit, named⟩ := names_error.mp names
      exact ⟨limit, Or.inl named⟩
    · obtain ⟨named, called⟩ := Site.names_ok.mp names
      obtain ⟨limit, long⟩ := callOutcome_long.mp call
      exact ⟨limit, Or.inr ⟨contract, method, named, called, long⟩⟩
  · rintro ⟨rfl, named | ⟨contract, method, named, called, long⟩⟩
    · exact Or.inl (names_error.mpr ⟨rfl, named⟩)
    · exact Or.inr ⟨(contract, method), Site.names_ok.mpr ⟨named, called⟩,
        callOutcome_long.mpr ⟨rfl, long⟩⟩

theorem stepOutcome_long {before : List Instruction} {i : Instruction} (shaped : i.Shaped) :
    stepOutcome (.numbered table protocol) before i = .error .digitLimit ↔
      i.calls = true ∧ Site.IsLong (.numbered table protocol) ⟨before, i⟩ := by
  rw [calls_iff shaped]
  by_cases kind : i.IsCall
  · rw [stepOutcome_call kind, except_map_error, outcome_long]
    simp [kind]
  · constructor
    · intro stop
      obtain ⟨_, other⟩ := stepOutcome_plain kind stop
      cases other
    · rintro ⟨calling, _⟩
      exact absurd calling kind

variable {c : Conventions} {m between after : Machine}

theorem replay_stops {before : List Instruction} {i : Instruction} {f : Fault}
    (shaped : i.Shaped) (h : Follows c m before) (stop : stepOutcome c before i = .error f) :
    ∃ after, replay c i m = .error f after := by
  obtain ⟨_, ends, _⟩ := replay_ends shaped h
  rwa [stop] at ends

theorem replayAll_stops {front back : List Instruction} {i : Instruction} {f : Fault}
    {calls : List MethodCall} (run : replayAll c front m = .ok calls between)
    (stop : replay c i between = .error f after) :
    replayAll c (front ++ i :: back) m = .error f after := by
  induction front generalizing m calls with
  | nil =>
    cases run
    exact bind_error stop
  | cons j front ih =>
    obtain ⟨call, next, step, others⟩ := of_bind_ok run
    obtain ⟨more, last, tail, done⟩ := of_bind_ok others
    cases done
    rw [List.cons_append, replayAll, bind_ok step]
    exact bind_error (ih tail)

theorem analyse_error {script : List UInt8} {f : Fault} :
    analyse c script = .error f ↔ disassemble script = .error f ∨
      ∃ is m, disassemble script = .ok is ∧ (replayAll c is).run .fresh = .error f m := by
  unfold analyse
  rw [except_bind_error]
  refine or_congr Iff.rfl ⟨?_, ?_⟩
  · rintro ⟨is, disassembled, stop⟩
    cases run : (replayAll c is).run .fresh with
    | ok calls m =>
      rw [run] at stop
      cases stop
    | error g m =>
      rw [run] at stop
      cases stop
      exact ⟨is, m, disassembled, run⟩
  · rintro ⟨is, m, disassembled, stop⟩
    refine ⟨is, disassembled, ?_⟩
    rw [stop]
    rfl

theorem analyse_limit {script : List UInt8} :
    analyse (.numbered table protocol) script = .error .digitLimit ↔
      Overflows (.numbered table protocol) script := by
  rw [analyse_error]
  constructor
  · rintro (stop | ⟨is, m, disassembled, stop⟩)
    · exact absurd (disassemble_cause stop) (by decide)
    have shaped := disassemble_shaped disassembled
    obtain ⟨front, i, back, rfl, ⟨calls, between, run⟩, step⟩ :=
      replayAll_error shaped (follows_fresh _) stop
    rw [List.append_nil] at step
    obtain ⟨calling, long⟩ := (stepOutcome_long (shaped i (by simp))).mp step
    exact ⟨front, i, back, calls, between, disassembled, run, calling, long⟩
  · rintro ⟨front, i, back, calls, between, disassembled, run, calling, long⟩
    have shaped := disassemble_shaped disassembled
    obtain ⟨follows, _⟩ := replayAll_ok (fun j member => shaped j (List.mem_append_left _ member))
      (follows_fresh _) run
    rw [List.append_nil] at follows
    have step := (stepOutcome_long (shaped i (by simp))).mpr ⟨calling, long⟩
    obtain ⟨after, stop⟩ := replay_stops (shaped i (by simp)) follows step
    exact Or.inr ⟨_, after, disassembled, replayAll_stops run stop⟩

theorem analyse_cause {script : List UInt8} {f : Fault}
    (h : analyse (.numbered table protocol) script = .error f) : InBytes f ∨ f = .digitLimit := by
  rcases analyse_error.mp h with stop | ⟨is, m, disassembled, stop⟩
  · exact Or.inl (disassemble_cause stop)
  have shaped := disassemble_shaped disassembled
  obtain ⟨front, i, back, rfl, _, step⟩ := replayAll_error shaped (follows_fresh _) stop
  by_cases kind : i.IsCall
  · rw [stepOutcome_call kind, except_map_error, outcome_long] at step
    exact Or.inr step.1
  · obtain ⟨name, rfl⟩ := stepOutcome_plain kind step
    exact Or.inl rfl

theorem overflows_nonempty {script : List UInt8} (h : Overflows c script) : script ≠ [] := by
  rintro rfl
  obtain ⟨front, i, back, _, _, disassembled, _⟩ := h
  have none : disassemble [] = .ok [] := rfl
  rw [none] at disassembled
  cases front <;> cases disassembled

/-- What is wrong with a script becomes a warning, unless it is a number that is too long. -/
theorem analyseScript_stops {failure : Text} {t : Transaction} {f : Fault} :
    t.analyseScript (.numbered table protocol) failure = .error f ↔
      f = .digitLimit ∧ ∃ script, Text.Hex.decode t.script = .ok script ∧
        Overflows (.numbered table protocol) script := by
  have outside : ¬ Fault.digitLimit.isDecode = true := by decide
  unfold Transaction.analyseScript
  by_cases empty : t.script.isEmpty = true
  · have nothing : t.script = ⟨[]⟩ := congrArg Text.mk (List.isEmpty_iff.mp empty)
    have none : Text.Hex.decode t.script = .ok [] := by
      rw [nothing]
      rfl
    rw [if_pos empty]
    constructor
    · intro stop
      cases stop
    · rintro ⟨_, script, decoded, overflows⟩
      rw [none] at decoded
      cases decoded
      exact absurd rfl (overflows_nonempty overflows)
  rw [if_neg empty]
  cases decoded : Text.Hex.decode t.script with
  | error g =>
    have reported : g.isDecode = true := Text.Hex.decode_cause decoded
    simp [bind, Except.bind, reported]
  | ok script =>
    have analysis : (Except.ok script >>= analyse (.numbered table protocol)) =
        analyse (.numbered table protocol) script := rfl
    have only : (∃ other, Except.ok script = (Except.ok other : Except Fault _) ∧
        Overflows (.numbered table protocol) other) ↔
          Overflows (.numbered table protocol) script := by simp
    rw [analysis, only, ← analyse_limit]
    cases analysed : analyse (.numbered table protocol) script with
    | ok d => simp
    | error g =>
      rcases analyse_cause analysed with inBytes | rfl
      · have other : g ≠ .digitLimit := by
          rintro rfl
          exact absurd inBytes (by decide)
        simp [show g.isDecode = true from inBytes, other]
      · simp [outside, eq_comm]

theorem analyseScript_error {failure : Text} {t : Transaction} {script : List UInt8} {f : Fault}
    (written : t.script = Text.Hex.encode script) :
    t.analyseScript (.numbered table protocol) failure = .error f ↔
      f = .digitLimit ∧ Overflows (.numbered table protocol) script := by
  rw [analyseScript_stops, written, Text.Hex.decode_encode]
  simp

theorem decode_error {bytes : List UInt8} {f : Fault} :
    Transaction.decode (.numbered table protocol) bytes = .error f ↔
      Container.read.onBytes bytes = .error f ∨
      f = .digitLimit ∧ ∃ container cursor, Container.read.onBytes bytes = .ok (container, cursor) ∧
        Overflows (.numbered table protocol) container.script := by
  unfold Transaction.decode
  rw [except_bind_error]
  refine or_congr Iff.rfl ⟨?_, ?_⟩
  · rintro ⟨⟨container, cursor⟩, read, stop⟩
    rcases except_bind_error.mp stop with stop | ⟨_, _, done⟩
    · obtain ⟨limit, overflows⟩ := (analyseScript_error rfl).mp stop
      exact ⟨limit, container, cursor, read, overflows⟩
    · cases done
  · rintro ⟨limit, container, cursor, read, overflows⟩
    refine ⟨(container, cursor), read, except_bind_error.mpr (Or.inl ?_)⟩
    exact (analyseScript_error rfl).mpr ⟨limit, overflows⟩

def loadedCall (number : List UInt8) : List UInt8 :=
  [13, 0, 3] ++ Buffer.shortest number.length ++ number ++ [7, 0]

open Assembly in
theorem disassemble_loadedCall {number : List UInt8} (fits : number.length ≤ 0xffff) :
    ∃ offset, disassemble (loadedCall number) =
      .ok [⟨0, 13, [.number 0, .number 3, .bytes number]⟩, ⟨offset, 7, [.number 0]⟩] := by
  let length := Size.shortest number.length (Nat.lt_succ_of_le fits)
  have exact : length.value.toNat = number.length := rfl
  let program : List Assembly.Instruction :=
    [⟨13, .load 0 3 ⟨number, length, exact⟩⟩, ⟨7, .register 0⟩]
  have complete : Complete program [] := by
    refine ⟨?_, nofun⟩
    simp [program, Instruction.isReturn]
  have same : loadedCall number = script program ++ [] := by
    simp [loadedCall, script, program, Instruction.wire, Operands.wire, length, Size.wire_shortest]
  rw [same]
  exact ⟨_, disassemble_script complete⟩

theorem loadedCall_overflows {number : List UInt8} (fits : number.length ≤ 0xffff)
    (long : Number.IsLong (Number.ofSignedBytes number))
    (c : Conventions) : Overflows c (loadedCall number) := by
  obtain ⟨offset, disassembled⟩ := disassemble_loadedCall fits
  refine ⟨[⟨0, 13, [.number 0, .number 3, .bytes number]⟩], ⟨offset, 7, [.number 0]⟩, [], [], _,
    disassembled, rfl, rfl, Or.inl ⟨⟨.number, .number (Number.ofSignedBytes number)⟩, ?_, ?_⟩⟩
  · exact List.mem_singleton.mpr rfl
  · exact ⟨_, rfl, long⟩

end ChainDecode.Vm
