import ChainDecode.Proofs.Number.Numeral
import ChainDecode.Proofs.Vm.Replay

/-! # Calls recovered from scripts

A disassembled script is replayed from a fresh machine. Its calls are those that its history tells,
and the only causes with which the replay stops are values that cannot be loaded or shown and a
protocol version that cannot be compared.
-/
namespace ChainDecode.Vm

def OperandShape.Fits : OperandShape → Operand → Prop
  | .byte, .number _ | .target, .number _ | .size, .number _ => True
  | .typeName, .text _ => True
  | .payload, .bytes _ => True
  | _, _ => False

theorem operand_fits (shape : OperandShape) : Yields shape.Fits shape.read := by
  cases shape with
  | byte => exact .after fun _ => .pure trivial
  | target => exact .after fun _ => .pure trivial
  | size => exact .after fun _ => .pure trivial
  | typeName => exact .after fun _ => .pure trivial
  | payload => exact .after fun _ => .after fun _ => .pure trivial

theorem operands_fit (shapes : List OperandShape) :
    Yields (List.Forall₂ OperandShape.Fits shapes) (readOperands shapes) := by
  induction shapes with
  | nil => exact .pure .nil
  | cons shape shapes ih =>
    exact .bind (operand_fits shape) fun _ first => .bind ih fun _ rest => .pure (.cons first rest)

/-- An instruction has the operands of its opcode. -/
def Instruction.WellFormed (i : Instruction) : Prop :=
  List.Forall₂ OperandShape.Fits (Opcode.ofCode i.opcode).operands i.operands

theorem instruction_wellFormed : Yields Instruction.WellFormed readInstruction :=
  .after fun _ => .after fun _ => .bind (operands_fit _) fun _ fit => .pure fit

theorem instructions_wellFormed (most : Nat) :
    Yields (fun is => ∀ i ∈ is, Instruction.WellFormed i) (readInstructions most) := by
  induction most with
  | zero => exact .pure (by simp)
  | succ most ih =>
    unfold readInstructions
    refine .after fun cursor => ?_
    split
    · exact .pure (by simp)
    · refine .bind instruction_wellFormed fun first one => ?_
      split
      · exact .pure (by simp [one])
      · exact .bind ih fun rest others => .pure (by simpa [one] using others)

theorem disassemble_wellFormed {script : List UInt8} {is : List Instruction}
    (h : disassemble script = .ok is) : ∀ i ∈ is, i.WellFormed := by
  unfold disassemble at h
  cases result : (readInstructions script.length).onBytes script with
  | ok found =>
    obtain ⟨read, cursor⟩ := found
    rw [result] at h
    cases h
    exact (instructions_wellFormed _).onBytes result
  | error f =>
    rw [result] at h
    cases h

theorem shaped_of_wellFormed {i : Instruction} (h : i.WellFormed) : i.Shaped := by
  intro calls
  have operands : (Opcode.ofCode i.opcode).operands = [.byte] := by
    simp only [Instruction.calls, Bool.or_eq_true, decide_eq_true_eq] at calls
    rcases calls with code | code
    · rw [code]
      rfl
    · rw [code]
      rfl
  unfold Instruction.WellFormed at h
  rw [operands] at h
  obtain ⟨operand, rest, fit, none, same⟩ := List.forall₂_cons_left_iff.mp h
  rw [same, List.forall₂_nil_left_iff.mp none]
  cases operand with
  | number source => exact ⟨source, rfl⟩
  | _ => exact fit.elim

theorem disassemble_shaped {script : List UInt8} {is : List Instruction}
    (h : disassemble script = .ok is) : ∀ i ∈ is, i.Shaped :=
  fun i member => shaped_of_wellFormed (disassemble_wellFormed h i member)

theorem wordOf_error {name : String} {bytes : List UInt8} {f : Fault}
    (h : Value.wordOf name bytes = .error f) : f = .enumSize name := by
  unfold Value.wordOf at h
  split at h
  · cases h
    rfl
  · cases h

theorem ofBytes_error {type : ValueType} {bytes : List UInt8} {f : Fault}
    (h : Value.ofBytes type bytes = .error f) : ∃ name, f = .enumSize name := by
  unfold Value.ofBytes at h
  split at h
  · cases h
  · cases h
  · cases h
  · exact ⟨_, wordOf_error (except_map_error.mp h)⟩
  · exact ⟨_, wordOf_error (except_map_error.mp h)⟩
  · cases h
  · split at h <;> cases h

/-- A value that holds a number of more digits than any numeral has. -/
def Value.IsLong (v : Value) : Prop :=
  ∃ n, v.data = .number n ∧ Number.IsLong n

theorem asText_error {v : Value} {f : Fault} :
    v.asText = .error f ↔ f = .digitLimit ∧ v.IsLong := by
  unfold Value.asText Value.IsLong
  cases v.data with
  | number n =>
    dsimp only
    rw [Number.numeral_error]
    simp
  | _ => simp

theorem dataJson_error {v : Value} {f : Fault} :
    v.dataJson = .error f ↔ f = .digitLimit ∧ v.IsLong := by
  unfold Value.dataJson Value.IsLong
  cases v.data with
  | number n =>
    have long := Number.numeral_error (n := n) (f := f)
    dsimp only
    cases shown : Number.numeral n with
    | ok s =>
      rw [shown] at long
      simpa [Except.map, pure, Except.pure, bind, Except.bind] using long
    | error g =>
      rw [shown] at long
      simpa [Except.map, bind, Except.bind] using long
  | _ => simp

theorem textOf_error {v : Option Value} {f : Fault} :
    textOf v = .error f ↔ f = .digitLimit ∧ ∃ w, v = some w ∧ w.IsLong := by
  cases v with
  | none => simp [textOf]
  | some w =>
    rw [textOf, asText_error]
    simp

theorem mapM_error {values : List Value} {f : Fault} :
    values.mapM Value.dataJson = .error f ↔ f = .digitLimit ∧ ∃ v ∈ values, v.IsLong := by
  induction values with
  | nil => simp [pure, Except.pure]
  | cons v values ih =>
    rw [List.mapM_cons]
    have first : ∀ g, v.dataJson = .error g ↔ g = .digitLimit ∧ v.IsLong := fun _ => dataJson_error
    simp only [List.mem_cons, exists_eq_or_imp]
    cases shown : v.dataJson with
    | error g =>
      obtain ⟨rfl, long⟩ := (first _).mp shown
      simp [bind, Except.bind, long, eq_comm]
    | ok j =>
      have short : ¬ v.IsLong := by
        intro long
        have stop := (first _).mpr ⟨rfl, long⟩
        rw [shown] at stop
        cases stop
      rw [or_iff_right short, ← ih]
      cases values.mapM Value.dataJson with
      | ok rest => simp [bind, Except.bind, pure, Except.pure]
      | error g => simp [bind, Except.bind]

theorem expectedArity_error {key : Text} {protocol : Json} {f : Fault}
    (h : expectedArity key protocol = .error f) : f = .wrongShape := by
  unfold expectedArity at h
  split at h
  · cases h
  · split at h <;> cases h
    rfl

theorem mismatch_ok {protocol : Option Json} {key : String} {given : Nat} {lines : List Text}
    (h : mismatch protocol key given = .ok lines) :
    lines = [] ∨ ∃ expected version, lines = [mismatchLine key given expected version] := by
  cases protocol with
  | none =>
    cases h
    exact Or.inl rfl
  | some version =>
    obtain ⟨arity, -, told⟩ := except_bind_ok.mp h
    cases arity with
    | none =>
      cases told
      exact Or.inl rfl
    | some expected =>
      dsimp only at told
      split at told
      · cases told
        exact Or.inl rfl
      · obtain ⟨shown, -, same⟩ := except_map_ok.mp told
        exact Or.inr ⟨expected, shown, same.symm⟩

/-- A call does not match a version that is shown with a number too long for it. -/
def LongVersion (protocol : Option Json) (key : Text) (given : Nat) : Prop :=
  ∃ version, protocol = some version ∧ version.hasLong = true ∧
    ∃ expected, expectedArity key version = .ok (some expected) ∧ expected ≠ given

theorem mismatch_error {protocol : Option Json} {key : String} {given : Nat} {f : Fault} :
    mismatch protocol key given = .error f ↔
      (f = .digitLimit ∧ LongVersion protocol key given) ∨
        ∃ version, protocol = some version ∧ expectedArity key version = .error f := by
  cases protocol with
  | none => simp [mismatch, LongVersion]
  | some version =>
    simp only [mismatch, LongVersion, Option.some.injEq, exists_eq_left', except_bind_error]
    rw [or_comm]
    refine or_congr_left ⟨?_, ?_⟩
    · rintro ⟨arity, found, told⟩
      cases arity with
      | none => cases told
      | some expected =>
        dsimp only at told
        split at told
        · cases told
        · obtain ⟨limit, long⟩ := Json.shown_error.mp (except_map_error.mp told)
          exact ⟨limit, long, expected, found, ‹_›⟩
    · rintro ⟨limit, long, expected, found, other⟩
      refine ⟨some expected, found, ?_⟩
      dsimp only
      rw [if_neg other]
      exact except_map_error.mpr (Json.shown_error.mpr ⟨limit, long⟩)

theorem shownPairing_error {operands : List Value} {fitting : List Abi.Signature} {f : Fault} :
    shownPairing operands fitting = .error f ↔
      f = .digitLimit ∧ fitting.length = 1 ∧ ∃ v ∈ operands, v.IsLong := by
  unfold shownPairing
  split
  · rw [except_map_error, mapM_error]
    simp
  · rename_i several
    have other : fitting.length ≠ 1 := by
      intro one
      obtain ⟨signature, same⟩ := List.length_eq_one_iff.mp one
      exact several signature same
    simp [other]

theorem shownPairing_ok {operands : List Value} {fitting : List Abi.Signature}
    {arguments : List Argument} (h : shownPairing operands fitting = .ok arguments) :
    arguments = pairing operands fitting := by
  unfold shownPairing at h
  split at h
  · obtain ⟨_, _, same⟩ := except_map_ok.mp h
    exact same.symm
  · cases h
    rfl

variable {c : Conventions} {s : Site}

def Site.naming (s : Site) : List Value :=
  match s.instruction.action with
  | .switch source => (held s.before source).toList ++ (pushed s.before).getLast?.toList
  | .extCall source => (held s.before source).toList
  | _ => []

theorem names_error {f : Fault} :
    s.names = .error f ↔ f = .digitLimit ∧ ∃ v ∈ s.naming, v.IsLong := by
  unfold Site.names Site.contract Site.method Site.naming
  simp only [except_bind_error, except_map_error]
  cases s.instruction.action with
  | switch source =>
    simp only [textOf_error, List.mem_append, Option.mem_toList]
    constructor
    · rintro (⟨limit, v, contract, long⟩ | ⟨_, _, limit, v, method, long⟩)
      · exact ⟨limit, v, Or.inl contract, long⟩
      · exact ⟨limit, v, Or.inr method, long⟩
    · rintro ⟨limit, v, contract | method, long⟩
      · exact Or.inl ⟨limit, v, contract, long⟩
      · cases contract : textOf (held s.before source) with
        | ok text => exact Or.inr ⟨text, rfl, limit, v, method, long⟩
        | error g =>
          obtain ⟨_, found⟩ := textOf_error.mp contract
          exact Or.inl ⟨limit, found⟩
  | extCall source => simp [textOf_error]
  | _ => simp

theorem outcome_reconstructs {call : MethodCall} (h : s.outcome c = .ok call) :
    Reconstructs c s call := by
  obtain ⟨⟨contract, method⟩, names, made⟩ := except_bind_ok.mp h
  obtain ⟨named, called⟩ := Site.names_ok.mp names
  obtain ⟨_, _, paired⟩ := except_bind_ok.mp made
  obtain ⟨arguments, shown, rfl⟩ := except_map_ok.mp paired
  exact ⟨named, called, shownPairing_ok shown⟩

theorem outcome_cause {f : Fault} (h : s.outcome c = .error f) :
    f = .digitLimit ∨ f = .wrongShape := by
  rcases except_bind_error.mp h with names | ⟨found, _, call⟩
  · exact Or.inl (names_error.mp names).1
  rcases except_bind_error.mp call with arity | ⟨_, _, paired⟩
  · rcases mismatch_error.mp (except_map_error.mp arity) with ⟨limit, _⟩ | ⟨_, _, stop⟩
    · exact Or.inl limit
    · exact Or.inr (expectedArity_error stop)
  · exact Or.inl (shownPairing_error.mp (except_map_error.mp paired)).1

variable {before rest : List Instruction} {m after : Machine}

theorem stepOutcome_none {i : Instruction} {call : Option MethodCall} (other : ¬ i.IsCall)
    (h : stepOutcome c before i = .ok call) : call = none := by
  unfold stepOutcome at h
  cases act : i.action with
  | load target value =>
    rw [act] at h
    obtain ⟨_, _, same⟩ := except_map_ok.mp h
    exact same.symm
  | switch source => exact absurd ⟨source, Or.inl act⟩ other
  | extCall source => exact absurd ⟨source, Or.inr act⟩ other
  | _ =>
    rw [act] at h
    cases h
    rfl

theorem replay_ok {i : Instruction} {call : Option MethodCall} (shaped : i.Shaped)
    (h : Follows c m before) (step : replay c i m = .ok call after) :
    Follows c after (i :: before) ∧
      List.Forall₂ (Reconstructs c) (if i.calls then [⟨before, i⟩] else []) call.toList := by
  obtain ⟨ended, ends, follows⟩ := replay_ends shaped h
  obtain ⟨outcome, rfl⟩ := ends.of_ok step
  refine ⟨follows ⟨call, outcome⟩, ?_⟩
  by_cases kind : i.IsCall
  · rw [stepOutcome_call kind] at outcome
    obtain ⟨found, made, rfl⟩ := except_map_ok.mp outcome
    rw [if_pos ((calls_iff shaped).mpr kind)]
    exact .cons (outcome_reconstructs made) .nil
  · rw [if_neg (by rwa [calls_iff shaped])]
    rw [stepOutcome_none kind outcome]
    exact .nil

theorem replayAll_ok {calls : List MethodCall} (shaped : ∀ i ∈ rest, i.Shaped)
    (h : Follows c m before) (run : replayAll c rest m = .ok calls after) :
    Follows c after (rest.reverse ++ before) ∧
      List.Forall₂ (Reconstructs c) (sitesAfter before rest) calls := by
  induction rest generalizing before m calls with
  | nil =>
    cases run
    exact ⟨h, .nil⟩
  | cons i rest ih =>
    obtain ⟨call, between, step, others⟩ := of_bind_ok run
    obtain ⟨more, last, tail, done⟩ := of_bind_ok others
    cases done
    obtain ⟨follows, first⟩ := replay_ok (shaped i List.mem_cons_self) h step
    obtain ⟨final, sites⟩ :=
      ih (fun j member => shaped j (List.mem_cons_of_mem i member)) follows tail
    refine ⟨?_, List.rel_append first sites⟩
    rwa [List.reverse_cons, List.append_assoc]

theorem replay_error {i : Instruction} {f : Fault} (shaped : i.Shaped) (h : Follows c m before)
    (stop : replay c i m = .error f after) : stepOutcome c before i = .error f := by
  obtain ⟨_, ends, _⟩ := replay_ends shaped h
  exact ends.of_error stop

theorem load_value {i : Instruction} {target : Int} {value : Except Fault Value}
    (act : i.action = .load target value) : ∃ type bytes, value = Value.ofBytes type bytes := by
  unfold Instruction.action at act
  split at act
  · split at act
    · cases act
      exact ⟨_, _, rfl⟩
    · cases act
  · split at act <;> cases act
  · split at act
    · cases act
    split at act
    · cases act
    split at act <;> cases act
  · cases act

theorem stepOutcome_plain {i : Instruction} {f : Fault}
    (other : ¬ i.IsCall)
    (h : stepOutcome c before i = .error f) : ∃ name, f = .enumSize name := by
  unfold stepOutcome at h
  split at h
  · rename_i act
    obtain ⟨type, bytes, rfl⟩ := load_value act
    exact ofBytes_error (except_map_error.mp h)
  · rename_i source act
    exact absurd ⟨source, Or.inl act⟩ other
  · rename_i source act
    exact absurd ⟨source, Or.inr act⟩ other
  · cases h

theorem stepOutcome_cause {i : Instruction} {f : Fault} (h : stepOutcome c before i = .error f) :
    (∃ name, f = .enumSize name) ∨ f = .digitLimit ∨ f = .wrongShape := by
  by_cases kind : i.IsCall
  · rw [stepOutcome_call kind] at h
    exact Or.inr (outcome_cause (except_map_error.mp h))
  · exact Or.inl (stepOutcome_plain kind h)

theorem replayAll_error {f : Fault} (shaped : ∀ i ∈ rest, i.Shaped) (h : Follows c m before)
    (stop : replayAll c rest m = .error f after) :
    ∃ front i back, rest = front ++ i :: back ∧
      (∃ calls between, replayAll c front m = .ok calls between) ∧
      stepOutcome c (front.reverse ++ before) i = .error f := by
  induction rest generalizing before m with
  | nil => cases stop
  | cons i rest ih =>
    -- The run stops at `i`, or behind it with `i` as the last of the history.
    have first := shaped i List.mem_cons_self
    rcases of_bind_error stop with here | ⟨call, between, step, later⟩
    · exact ⟨[], i, rest, rfl, ⟨[], m, rfl⟩, replay_error first h here⟩
    rcases of_bind_error later with later | ⟨_, _, _, done⟩
    · obtain ⟨follows, _⟩ := replay_ok first h step
      obtain ⟨front, j, back, rfl, ⟨calls, final, run⟩, outcome⟩ :=
        ih (fun j member => shaped j (List.mem_cons_of_mem i member)) follows later
      refine ⟨i :: front, j, back, rfl, ⟨call.toList ++ calls, final, ?_⟩, ?_⟩
      · rw [replayAll, bind_ok step, bind_ok run]
        rfl
      · rwa [List.reverse_cons, List.append_assoc]
    · cases done

/-- For every script, table and protocol version: a replay that returns has made the calls that the
history of the script tells, one for each instruction that calls and in their order, and has warned
of nothing else than the history tells. Nothing is left on the stack behind a call, so a call never
lacks the arguments of the signature that it was resolved to. -/
theorem calls_follow_history (c : Conventions) {script : List UInt8} {is : List Instruction}
    (h : disassemble script = .ok is) :
    (∀ calls m, (replayAll c is).run .fresh = .ok calls m →
      List.Forall₂ (Reconstructs c) (sites is) calls ∧ m.warnings = warned c is.reverse) ∧
    (∀ front i back calls m, is = front ++ i :: back → i.calls = true →
      (replayAll c (front ++ [i])).run .fresh = .ok calls m → m.stack = []) ∧
    ∀ key expected given m,
      (replayAll c is).run .fresh ≠ .error (.tooFewArguments key expected given) m := by
  have shaped := disassemble_shaped h
  refine ⟨?_, ?_, ?_⟩
  · intro calls m run
    obtain ⟨follows, made⟩ := replayAll_ok shaped (follows_fresh c) run
    rw [List.append_nil] at follows
    exact ⟨made, follows.warnings⟩
  · intro front i back calls m split calling run
    have inside : ∀ j ∈ front ++ [i], j.Shaped := by
      intro j member
      apply shaped
      rw [split]
      simp only [List.mem_append, List.mem_cons, List.not_mem_nil, or_false] at member ⊢
      tauto
    obtain ⟨follows, _⟩ := replayAll_ok inside (follows_fresh c) run
    rw [follows.stack, List.reverse_append]
    simp [pushed, calling]
  · intro key expected given m stop
    obtain ⟨front, i, back, _, _, outcome⟩ := replayAll_error shaped (follows_fresh c) stop
    rcases stepOutcome_cause outcome with ⟨_, other⟩ | other | other <;> cases other

/-- A table with one method of two parameters. -/
def swapTable : Abi.Table :=
  ⟨[(.text "swap", [⟨[⟨.str "first", .str "String"⟩, ⟨.str "second", .str "String"⟩], .null⟩])]⟩

/-- Two texts are pushed, and the method that is called with them is loaded behind them. -/
def swapScript : List UInt8 :=
  [13, 0, 4, 1, 97, 3, 0] ++ [13, 0, 4, 1, 98, 3, 0] ++ [13, 1, 4, 4, 115, 119, 97, 112, 7, 1]

/-- What a call names, and the texts of its arguments under the names of their parameters. -/
def MethodCall.summary (c : MethodCall) : String × String × List (Option Text × Option String) :=
  (c.contract, c.method, c.arguments.map fun a => (a.param.name.text?, a.value.asText.toOption))

def soleSummary? :
    EStateM.Result Fault Machine (List MethodCall) →
      Option (String × String × List (Option Text × Option String))
  | .ok [call] _ => some call.summary
  | _ => none

theorem soleSummary_some {r : EStateM.Result Fault Machine (List MethodCall)}
    {names : String × String × List (Option Text × Option String)}
    (h : soleSummary? r = some names) : ∃ call m, r = .ok [call] m ∧ call.summary = names := by
  unfold soleSummary? at h
  split at h
  · exact ⟨_, _, rfl, Option.some.inj h⟩
  · cases h

/-- The text pushed last stands for the first parameter. -/
theorem calls_follow_history_swap :
    ∃ is call m, disassemble swapScript = .ok is ∧
      (replayAll ⟨some swapTable, none⟩ is).run .fresh = .ok [call] m ∧
      (List.Forall₂ (Reconstructs ⟨some swapTable, none⟩) (sites is) [call] ∧
        m.warnings = warned ⟨some swapTable, none⟩ is.reverse) ∧
      call.summary = ("", "swap",
        [(some (.ofString "first"), some "b"), (some (.ofString "second"), some "a")]) := by
  have ran : (disassemble swapScript).toOption.bind (fun is =>
      soleSummary? ((replayAll ⟨some swapTable, none⟩ is).run .fresh)) = some ("", "swap",
        [(some (.ofString "first"), some "b"), (some (.ofString "second"), some "a")]) := by
    decide +kernel
  obtain ⟨is, read, ran⟩ := Option.bind_eq_some_iff.mp ran
  have script : disassemble swapScript = .ok is := by
    cases found : disassemble swapScript with
    | ok other =>
      rw [found] at read
      exact congrArg Except.ok (Option.some.inj read)
    | error f =>
      rw [found] at read
      cases read
  obtain ⟨call, m, run, names⟩ := soleSummary_some ran
  exact ⟨is, call, m, script, run, (calls_follow_history ⟨some swapTable, none⟩ script).1 _ _ run,
    names⟩

end ChainDecode.Vm
