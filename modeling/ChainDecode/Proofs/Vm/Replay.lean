import ChainDecode.Proofs.Stopping
import ChainDecode.Proofs.Vm.CallHistory
import Mathlib.Data.List.Forall2

/-! # Replaying a script follows its history

The registers and the stack of the machine hold exactly what a look back at the executed
instructions tells. One lemma for each step says how the step ends, and an instruction ends as its
history says. A run is then taken instruction by instruction.
-/
namespace ChainDecode.Vm

variable {α β : Type}

/-- A step ends as an outcome says: with its value in a given state, or with its cause in any. -/
def Ends (r : EStateM.Result Fault Machine α) (outcome : Except Fault α) (after : Machine) :
    Prop :=
  match outcome with
  | .ok a => r = .ok a after
  | .error f => ∃ m, r = .error f m

theorem Ends.of_ok {r : EStateM.Result Fault Machine α} {outcome : Except Fault α}
    {m after : Machine} {a : α} (h : Ends r outcome after) (value : r = .ok a m) :
    outcome = .ok a ∧ m = after := by
  subst value
  cases outcome with
  | ok b =>
    cases h
    exact ⟨rfl, rfl⟩
  | error f =>
    obtain ⟨_, other⟩ := h
    cases other

theorem Ends.of_error {r : EStateM.Result Fault Machine α} {outcome : Except Fault α}
    {m after : Machine} {f : Fault} (h : Ends r outcome after) (stop : r = .error f m) :
    outcome = .error f := by
  subst stop
  cases outcome with
  | ok a => cases h
  | error g =>
    obtain ⟨_, same⟩ := h
    cases same
    rfl

theorem Ends.bind {x : Run α} {k : α → Run β} {outcome : Except Fault α}
    {next : α → Except Fault β} {m between after : Machine} (h : Ends (x m) outcome between)
    (then_ : ∀ a, outcome = .ok a → Ends (k a between) (next a) after) :
    Ends ((x >>= k) m) (outcome >>= next) after := by
  cases outcome with
  | ok a =>
    have value : x m = .ok a between := h
    rw [bind_ok value]
    exact then_ a rfl
  | error f =>
    obtain ⟨m', stop⟩ := h
    exact ⟨m', bind_error stop⟩

theorem Ends.bind_pure {x : Run α} {outcome : Except Fault α} {m after : Machine} (f : α → β)
    (h : Ends (x m) outcome after) :
    Ends ((x >>= fun a => pure (f a)) m) (outcome.map f) after := by
  cases outcome with
  | ok a =>
    have value : x m = .ok a after := h
    exact bind_ok value
  | error g =>
    obtain ⟨m', stop⟩ := h
    exact ⟨m', bind_error stop⟩

theorem Ends.map {x : Run α} {outcome : Except Fault α} {m after : Machine} (f : α → β)
    (h : Ends (x m) outcome after) : Ends ((f <$> x) m) (outcome.map f) after := by
  rw [← bind_pure_comp]
  exact h.bind_pure f

theorem ends_ofExcept (outcome : Except Fault α) (m : Machine) :
    Ends (Run.ofExcept outcome m) outcome m := by
  cases outcome with
  | ok a => rfl
  | error f => exact ⟨m, rfl⟩

theorem registerText_ends (m : Machine) (r : Int) :
    Ends (registerText r m) (textOf (m.register? r)) m := by
  unfold registerText
  rw [bind_get]
  cases m.register? r with
  | none => rfl
  | some value => exact ends_ofExcept value.asText m

theorem popText_ends (m : Machine) :
    Ends (popText m) (textOf m.stack.head?) { m with stack := m.stack.tail } := by
  obtain ⟨registers, stack, warnings⟩ := m
  unfold popText
  rw [bind_get]
  cases stack with
  | nil => rfl
  | cons value stack => exact ends_ofExcept value.asText ⟨registers, stack, warnings⟩

theorem Machine.warn_nil (m : Machine) : { m with warnings := m.warnings ++ [] } = m := by
  rw [List.append_nil]

theorem checkArity_ends (m : Machine) (protocol : Option Json) (key : String) (given : Nat) :
    Ends (checkArity protocol key given m) ((mismatch protocol key given).map fun _ => ())
      { m with warnings := m.warnings ++ (mismatch protocol key given).toOption.getD [] } := by
  unfold checkArity mismatch
  cases protocol with
  | none => exact congrArg _ m.warn_nil.symm
  | some version =>
    dsimp only
    cases expectedArity key version with
    | error f => exact ⟨m, rfl⟩
    | ok arity =>
      cases arity with
      | none => exact congrArg _ m.warn_nil.symm
      | some expected =>
        dsimp only [bind, Except.bind]
        by_cases same : expected = given
        · rw [if_pos same, if_pos same]
          exact congrArg _ m.warn_nil.symm
        · rw [if_neg same, if_neg same]
          cases version.shown with
          | error f => exact ⟨m, rfl⟩
          | ok shown => rfl

theorem popArguments_ends (params : List Abi.Param) (m : Machine)
    (full : params.length = m.stack.length) :
    Ends (popArguments params m)
      ((m.stack.mapM Value.dataJson).map fun _ => List.zipWith Argument.mk params m.stack)
      { m with stack := [] } := by
  obtain ⟨registers, stack, warnings⟩ := m
  -- The stack shrinks with the parameters, so neither runs out before the other.
  induction params generalizing stack with
  | nil =>
    have none := List.length_eq_zero_iff.mp full.symm
    dsimp only at none
    subst none
    rfl
  | cons param params ih =>
    cases stack with
    | nil => cases full
    | cons value stack =>
      have shown : ((value :: stack).mapM Value.dataJson).map
            (fun _ => List.zipWith Argument.mk (param :: params) (value :: stack)) =
          value.dataJson >>= fun _ =>
            (stack.mapM Value.dataJson).map (fun _ => List.zipWith Argument.mk params stack) >>=
              fun arguments => pure (⟨param, value⟩ :: arguments) := by
        rw [List.mapM_cons]
        cases value.dataJson with
        | error f => rfl
        | ok first => cases stack.mapM Value.dataJson <;> rfl
      dsimp only
      rw [shown, popArguments, bind_get]
      have first := ends_ofExcept value.dataJson ⟨registers, stack, warnings⟩
      have rest := ih stack (Nat.succ.inj full)
      exact first.bind fun _ _ => rest.bind fun _ _ => rfl

def shownPairing (operands : List Value) (fitting : List Abi.Signature) :
    Except Fault (List Argument) :=
  match fitting with
  | [_] => (operands.reverse.mapM Value.dataJson).map fun _ => pairing operands fitting
  | _ => .ok (pairing operands fitting)

def callOutcome (c : Conventions) (contract method : String) (operands : List Value) :
    Except Fault MethodCall :=
  let key := callKey contract method
  (mismatch c.protocol key operands.length).map (fun _ => ()) >>= fun _ =>
    (shownPairing operands (c.fitting key operands.length)).map (MethodCall.mk contract method)

theorem resolve_fitting (c : Conventions) (key : String) (given : Nat) :
    Abi.resolve c.table (Text.ofString key) given = .ofMatches (c.fitting key given) := by
  unfold Abi.resolve Conventions.fitting
  cases c.table with
  | none => rfl
  | some table => rfl

/-- A signature that fits takes as many values as there are, so none is ever lacking. -/
theorem fitting_length {c : Conventions} {key : String} {given : Nat} {s : Abi.Signature}
    (h : s ∈ c.fitting key given) : s.params.length = given := by
  have kept := (List.mem_filter.mp h).2
  exact of_decide_eq_true kept

theorem makeCall_ends (c : Conventions) (contract method : String) (m : Machine) :
    Ends (makeCall c contract method m) (callOutcome c contract method m.stack.reverse)
      ⟨m.registers, [],
        m.warnings ++ callWarnings c (callKey contract method) m.stack.length⟩ := by
  unfold makeCall callOutcome callWarnings
  rw [bind_get]
  dsimp only
  rw [List.length_reverse, ← List.append_assoc]
  refine (checkArity_ends m c.protocol (callKey contract method) m.stack.length).bind ?_
  intro _ _
  rw [resolve_fitting]
  generalize m.warnings ++
    (mismatch c.protocol (callKey contract method) m.stack.length).toOption.getD [] = warnings
  cases fitting : c.fitting (callKey contract method) m.stack.length with
  | nil => rfl
  | cons signature others =>
    cases others with
    | nil =>
      have full : signature.params.length = m.stack.length :=
        fitting_length (by rw [fitting]; exact List.mem_singleton.mpr rfl)
      dsimp only [Abi.Resolution.ofMatches]
      rw [if_neg (by omega), unresolved, List.append_nil, shownPairing, pairing,
        List.reverse_reverse]
      have popped := popArguments_ends signature.params ⟨m.registers, m.stack, warnings⟩ full
      exact popped.bind_pure (MethodCall.mk contract method)
    | cons other more => rfl

namespace Machine

theorem register?_outside (m : Machine) {r : Int} (h : r < 0 ∨ 16 ≤ r) : m.register? r = none := by
  unfold register?
  split
  · rfl
  · have beyond : m.registers[r.toNat]? = none := Vector.getElem?_eq_none (by omega)
    rw [beyond]
    rfl

theorem register?_store (m : Machine) (target : Int) (value : Option Value) {r : Int}
    (h : ¬ (r < 0 ∨ 16 ≤ r)) :
    (m.store target value).register? r = if target = r then value else m.register? r := by
  unfold store register?
  by_cases below : target < 0
  · rw [if_pos below, if_neg (show target ≠ r by omega)]
  · rw [if_neg below, if_neg (show ¬ r < 0 by omega)]
    dsimp only
    by_cases same : target = r
    · subst same
      rw [if_pos rfl, Vector.getElem?_setIfInBounds_self_of_lt (by omega)]
      rfl
    · rw [if_neg same, Vector.getElem?_setIfInBounds_ne (by omega)]
      simp [show ¬ r < 0 by omega]

theorem store_stack (m : Machine) (target : Int) (value : Option Value) :
    (m.store target value).stack = m.stack := by
  unfold store
  split <;> rfl

theorem store_warnings (m : Machine) (target : Int) (value : Option Value) :
    (m.store target value).warnings = m.warnings := by
  unfold store
  split <;> rfl

theorem register?_fresh (r : Int) : fresh.register? r = none := by
  by_cases outside : r < 0 ∨ 16 ≤ r
  · exact fresh.register?_outside outside
  · unfold register? fresh
    rw [if_neg (by omega), Vector.getElem?_replicate, if_pos (by omega)]
    rfl

end Machine

structure Follows (c : Conventions) (m : Machine) (before : List Instruction) : Prop where
  registers : ∀ r, m.register? r = held before r
  stack : m.stack = (pushed before).reverse
  warnings : m.warnings = warned c before

theorem follows_fresh (c : Conventions) : Follows c .fresh [] := by
  constructor
  · exact Machine.register?_fresh
  · rfl
  · rfl

/-- The contract and the method that a call names. -/
def Site.names (s : Site) : Except Fault (String × String) :=
  s.contract >>= fun contract => s.method.map (contract, ·)

theorem Site.names_ok {s : Site} {contract method : String} :
    s.names = .ok (contract, method) ↔ s.contract = .ok contract ∧ s.method = .ok method := by
  unfold names
  cases s.contract with
  | error f => simp [bind, Except.bind]
  | ok first => cases s.method <;> simp [bind, Except.bind, Except.map]

def Site.outcome (c : Conventions) (s : Site) : Except Fault MethodCall :=
  s.names >>= fun names => callOutcome c names.1 names.2 s.operands

def stepOutcome (c : Conventions) (before : List Instruction) (i : Instruction) :
    Except Fault (Option MethodCall) :=
  match i.action with
  | .load _ value => value.map fun _ => none
  | .switch _ | .extCall _ => (Site.outcome c ⟨before, i⟩).map some
  | _ => .ok none

/-- An instruction does what its opcode says: those that call are calls in their operands too. -/
def Instruction.Shaped (i : Instruction) : Prop :=
  i.calls = true → ∃ source, i.operands = [.number source]

abbrev Instruction.IsCall (i : Instruction) : Prop :=
  ∃ source, i.action = .switch source ∨ i.action = .extCall source

def perform (c : Conventions) : Action → Run (Option MethodCall)
  | .load target value => do
    let value ← Run.ofExcept value
    modify fun m => m.store target (some value)
    pure none
  | .copy source target => do
    modify fun m => m.store target (m.register? source)
    pure none
  | .push source => do
    match (← get).register? source with
    | none => Run.warn s!"PUSH from empty register r{source}"
    | some value => modify fun m => { m with stack := value :: m.stack }
    pure none
  | .switch source => do
    let contract ← registerText source
    let method ← popText
    some <$> makeCall c contract method
  | .extCall source => do
    let method ← registerText source
    some <$> makeCall c "" method
  | .idle => pure none

theorem replay_perform (c : Conventions) (i : Instruction) : replay c i = perform c i.action := by
  obtain ⟨offset, opcode, operands⟩ := i
  unfold replay Instruction.action
  dsimp only
  split
  · split
    · rfl
    · rfl
  · split
    · rfl
    · rfl
  · split
    · rfl
    split
    · rfl
    split
    · rfl
    · rfl
  · simp [perform]

theorem calls_iff {i : Instruction} (shaped : i.Shaped) : i.calls = true ↔ i.IsCall := by
  constructor
  · intro calls
    obtain ⟨source, operands⟩ := shaped calls
    refine ⟨source, ?_⟩
    simp only [Instruction.calls, Bool.or_eq_true, decide_eq_true_eq] at calls
    simp only [Instruction.action, operands]
    rcases calls with code | code
    · simp [code, Opcode.extCall, Opcode.push, Opcode.switch]
    · simp [code, Opcode.push, Opcode.switch]
  · rintro ⟨source, act⟩
    unfold Instruction.action at act
    unfold Instruction.calls
    split at act
    all_goals grind

variable {c : Conventions} {m : Machine} {before : List Instruction} {i : Instruction}

theorem held_outside {r : Int} (before : List Instruction) (h : r < 0 ∨ 16 ≤ r) :
    held before r = none := by
  cases before with
  | nil => rfl
  | cons i before => rw [held, if_pos h]

theorem store_follows {target : Int} {value : Option Value} (h : Follows c m before)
    (registers : ∀ r, ¬ (r < 0 ∨ 16 ≤ r) →
      (if target = r then value else held before r) = held (i :: before) r)
    (stack : pushed (i :: before) = pushed before) (quiet : warningsAt c before i = []) :
    Follows c (m.store target value) (i :: before) := by
  constructor
  · intro r
    by_cases outside : r < 0 ∨ 16 ≤ r
    · rw [Machine.register?_outside _ outside, held_outside _ outside]
    · rw [Machine.register?_store _ _ _ outside, h.registers, registers r outside]
  · rw [Machine.store_stack, h.stack, stack]
  · rw [Machine.store_warnings, h.warnings, warned, quiet, List.append_nil]

theorem load_follows {target : Int} {value : Value} (h : Follows c m before)
    (act : i.action = .load target (.ok value)) (plain : i.calls = false) :
    Follows c (m.store target (some value)) (i :: before) := by
  refine store_follows h ?_ ?_ ?_
  · intro r inside
    rw [held, if_neg inside, act]
    rfl
  · rw [pushed, plain, act]
    rfl
  · rw [warningsAt, act]

theorem copy_follows {source target : Int} (h : Follows c m before)
    (act : i.action = .copy source target) (plain : i.calls = false) :
    Follows c (m.store target (m.register? source)) (i :: before) := by
  refine store_follows h ?_ ?_ ?_
  · intro r inside
    rw [held, if_neg inside, act, h.registers]
    dsimp only
    split <;> rfl
  · rw [pushed, plain, act]
    rfl
  · rw [warningsAt, act]

theorem registers_kept (h : Follows c m before)
    (kept : ∀ r, ¬ (r < 0 ∨ 16 ≤ r) → held (i :: before) r = held before r) (r : Int) :
    m.register? r = held (i :: before) r := by
  by_cases outside : r < 0 ∨ 16 ≤ r
  · rw [Machine.register?_outside _ outside, held_outside _ outside]
  · rw [kept r outside, h.registers]

theorem idle_follows (h : Follows c m before) (act : i.action = .idle)
    (plain : i.calls = false) : Follows c m (i :: before) := by
  constructor
  · exact registers_kept h fun r inside => by rw [held, if_neg inside, act]
  · rw [pushed, plain, act, h.stack]
    rfl
  · rw [warned, warningsAt, act, h.warnings, List.append_nil]

theorem push_follows {source : Int} (h : Follows c m before) (act : i.action = .push source)
    (plain : i.calls = false) :
    ∃ after, perform c (.push source) m = .ok none after ∧ Follows c after (i :: before) := by
  have registers := registers_kept h (i := i) fun r inside => by rw [held, if_neg inside, act]
  have stack : pushed (i :: before) = pushed before ++ (held before source).toList := by
    rw [pushed, plain, act]
    rfl
  have warnings : warned c (i :: before) = warned c before ++
      if (held before source).isNone then [Text.ofString s!"PUSH from empty register r{source}"]
      else [] := by
    rw [warned, warningsAt, act]
  rw [perform, bind_get, h.registers]
  cases value : held before source with
  | none =>
    rw [value] at stack warnings
    refine ⟨_, rfl, registers, ?_, ?_⟩
    · rw [stack]
      exact h.stack.trans (congrArg List.reverse (List.append_nil _).symm)
    · rw [warnings, ← h.warnings]
      rfl
  | some v =>
    rw [value] at stack warnings
    refine ⟨_, rfl, registers, ?_, ?_⟩
    · rw [stack, List.reverse_append, ← h.stack]
      rfl
    · rw [warnings, ← h.warnings]
      exact (List.append_nil _).symm

theorem call_follows {contract method : String} {s : Site} (h : Follows c m before)
    (site : s = ⟨before, i⟩) (names : s.contract = .ok contract ∧ s.method = .ok method)
    (act : i.IsCall)
    (calls : i.calls = true) :
    Follows c
      ⟨m.registers, [],
        m.warnings ++ callWarnings c (callKey contract method) s.operands.length⟩
      (i :: before) := by
  subst site
  have kept : ∀ r, ¬ (r < 0 ∨ 16 ≤ r) → held (i :: before) r = held before r := by
    intro r inside
    obtain ⟨source, act | act⟩ := act
    · rw [held, if_neg inside, act]
    · rw [held, if_neg inside, act]
  have about : warningsAt c before i =
      callWarnings c (callKey contract method) (Site.mk before i).operands.length := by
    obtain ⟨source, act | act⟩ := act
    · rw [warningsAt, act]
      simp only [Site.warnings, names]
    · rw [warningsAt, act]
      simp only [Site.warnings, names]
  have registers := registers_kept h kept
  constructor
  · exact registers
  · rw [pushed, calls]
    rfl
  · rw [warned, about, ← h.warnings]

theorem names_end (h : Follows c m before)
    (act : i.IsCall) :
    ∃ naming : Run (String × String),
      perform c i.action = (naming >>= fun names => some <$> makeCall c names.1 names.2) ∧
      Ends (naming m) (Site.mk before i).names
        ⟨m.registers, (Site.mk before i).operands.reverse, m.warnings⟩ := by
  obtain ⟨source, act | act⟩ := act
  · have first := registerText_ends m source
    have second := popText_ends m
    rw [h.registers] at first
    rw [h.stack, List.head?_reverse, List.tail_reverse] at second
    refine ⟨registerText source >>= fun contract => popText >>= fun method =>
      pure (contract, method), ?_, ?_⟩
    · rw [act]
      simp only [bind_assoc, pure_bind]
      rfl
    · simp only [Site.names, Site.contract, Site.method, Site.operands, act]
      exact first.bind fun contract _ => second.bind_pure (contract, ·)
  · have first := registerText_ends m source
    rw [h.registers] at first
    refine ⟨registerText source >>= fun method => pure ("", method), ?_, ?_⟩
    · rw [act]
      simp only [bind_assoc, pure_bind]
      rfl
    · simp only [Site.names, Site.contract, Site.method, Site.operands, act]
      rw [← h.stack]
      exact first.bind_pure ("", ·)

theorem site_ends (h : Follows c m before)
    (act : i.IsCall)
    (calls : i.calls = true) :
    ∃ after, Ends (perform c i.action m) ((Site.outcome c ⟨before, i⟩).map some) after ∧
      ((∃ call, Site.outcome c ⟨before, i⟩ = .ok call) → Follows c after (i :: before)) := by
  obtain ⟨naming, performed, named⟩ := names_end h act
  rw [performed, Site.outcome]
  cases names : (Site.mk before i).names with
  | error f =>
    rw [names] at named
    obtain ⟨m', stop⟩ := named
    refine ⟨m, ⟨m', bind_error stop⟩, ?_⟩
    rintro ⟨_, other⟩
    cases other
  | ok found =>
    obtain ⟨contract, method⟩ := found
    rw [names] at named
    have value : naming m = .ok (contract, method) _ := named
    have made := makeCall_ends c contract method
      ⟨m.registers, (Site.mk before i).operands.reverse, m.warnings⟩
    rw [List.reverse_reverse, List.length_reverse] at made
    have follows := call_follows h rfl (Site.names_ok.mp names) act calls
    rw [bind_ok value]
    exact ⟨_, made.map some, fun _ => follows⟩

theorem stepOutcome_call (act : i.IsCall) :
    stepOutcome c before i = (Site.outcome c ⟨before, i⟩).map some := by
  unfold stepOutcome
  obtain ⟨source, act | act⟩ := act
  · rw [act]
  · rw [act]

theorem replay_ends (shaped : i.Shaped) (h : Follows c m before) :
    ∃ after, Ends (replay c i m) (stepOutcome c before i) after ∧
      ((∃ call, stepOutcome c before i = .ok call) → Follows c after (i :: before)) := by
  rw [replay_perform]
  by_cases kind : i.IsCall
  · obtain ⟨after, ends, follows⟩ := site_ends h kind ((calls_iff shaped).mpr kind)
    rw [stepOutcome_call kind]
    refine ⟨after, ends, ?_⟩
    rintro ⟨call, made⟩
    apply follows
    cases outcome : Site.outcome c ⟨before, i⟩ with
    | ok call => exact ⟨call, rfl⟩
    | error f =>
      rw [outcome] at made
      cases made
  · have plain : i.calls = false := by rwa [← Bool.not_eq_true, calls_iff shaped]
    unfold stepOutcome
    cases act : i.action with
    | load target value =>
      cases value with
      | ok value => exact ⟨_, rfl, fun _ => load_follows h act plain⟩
      | error f =>
        refine ⟨m, ⟨m, rfl⟩, ?_⟩
        rintro ⟨_, stop⟩
        cases stop
    | copy source target => exact ⟨_, rfl, fun _ => copy_follows h act plain⟩
    | push source =>
      obtain ⟨after, step, follows⟩ := push_follows h act plain
      exact ⟨after, step, fun _ => follows⟩
    | switch source => exact absurd ⟨source, Or.inl act⟩ kind
    | extCall source => exact absurd ⟨source, Or.inr act⟩ kind
    | idle => exact ⟨m, rfl, fun _ => idle_follows h act plain⟩

end ChainDecode.Vm
