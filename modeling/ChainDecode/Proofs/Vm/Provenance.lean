import ChainDecode.Proofs.Address
import ChainDecode.Proofs.Vm.Calls

/-! # Where recovered values come from

A machine may run any number of scripts, and a run that stops leaves it as it stands. Whatever it
holds at any moment, and whatever stands in a call, was loaded by an instruction executed before,
and the type that the instruction names fixes its shape.
-/
namespace ChainDecode.Vm

def Data.Fits (d : Data) (type : ValueType) (payload : List UInt8) : Prop :=
  match type with
  | .bytes => d = .bytes payload
  | .number => ∃ n, d = .number n
  | .string => ∃ s, d = .text s
  | .enumeration | .timestamp => ∃ n < 0x100000000, d = .word n
  | .bool => ∃ b, d = .flag b
  | _ =>
    if payload.length = Address.size then ∃ a, d = .address a ∧ a.bytes = payload
    else d = .bytes payload

/-- The instruction loads the value: it names the type and the bytes that the value is made of. -/
def Instruction.Loads (i : Instruction) (v : Value) : Prop :=
  ∃ target code payload, i.opcode = Opcode.load ∧
    i.operands = [.number target, .number code, .bytes payload] ∧
    Value.ofBytes (.ofCode code) payload = .ok v ∧ v.data.Fits (.ofCode code) payload

/-- One of the executed instructions loaded the value. -/
def FromLoad (executed : List Instruction) (v : Value) : Prop := ∃ i ∈ executed, i.Loads v

theorem wordOf_fits {name : String} {payload : List UInt8} {d : Data}
    (h : Value.wordOf name payload = .ok d) : ∃ n < 0x100000000, d = .word n := by
  unfold Value.wordOf at h
  split at h
  · cases h
  · rename_i enough
    cases h
    have length : (payload.take 4).length = 4 := List.length_take_of_le (Nat.le_of_not_lt enough)
    have small := Number.ofBytes_lt (payload.take 4)
    rw [length] at small
    exact ⟨_, small, rfl⟩

theorem ofBytes_fits {type : ValueType} {payload : List UInt8} {v : Value}
    (h : Value.ofBytes type payload = .ok v) : v.data.Fits type payload := by
  -- Types without a rule of their own hold an address, or the bytes as they are.
  have other : (∀ a, Address.ofBytes payload = .ok a → v.data = .address a) →
      (∀ f, Address.ofBytes payload = .error f → v.data = .bytes payload) →
      if payload.length = Address.size then ∃ a, v.data = .address a ∧ a.bytes = payload
      else v.data = .bytes payload := by
    intro ofAddress ofBytes
    by_cases size : payload.length = Address.size
    · obtain ⟨a, found, same⟩ := Address.ofBytes_of_size size
      rw [if_pos size]
      exact ⟨a, ofAddress a found, same⟩
    · obtain ⟨f, none⟩ := Address.ofBytes_of_other_size size
      rw [if_neg size]
      exact ofBytes f none
  unfold Value.ofBytes at h
  cases type with
  | bytes =>
    cases h
    rfl
  | number =>
    cases h
    exact ⟨_, rfl⟩
  | string =>
    cases h
    exact ⟨_, rfl⟩
  | bool =>
    cases h
    exact ⟨_, rfl⟩
  | enumeration =>
    obtain ⟨d, word, rfl⟩ := except_map_ok.mp h
    exact wordOf_fits word
  | timestamp =>
    obtain ⟨d, word, rfl⟩ := except_map_ok.mp h
    exact wordOf_fits word
  | _ =>
    refine other (fun a found => ?_) fun f none => ?_
    · rw [found] at h
      cases h
      rfl
    · rw [none] at h
      cases h
      rfl

theorem load_operands {i : Instruction} {target : Int} {value : Except Fault Value}
    (act : i.action = .load target value) :
    ∃ code payload, i.opcode = Opcode.load ∧
      i.operands = [.number target, .number code, .bytes payload] ∧
      value = Value.ofBytes (.ofCode code) payload := by
  unfold Instruction.action at act
  split at act
  · rename_i operands
    split at act
    · rename_i opcode
      cases act
      exact ⟨_, _, opcode, operands, rfl⟩
    · cases act
  · split at act <;> cases act
  · split at act
    · cases act
    split at act
    · cases act
    split at act <;> cases act
  · cases act

theorem loads_of_action {i : Instruction} {target : Int} {v : Value}
    (act : i.action = .load target (.ok v)) : i.Loads v := by
  obtain ⟨code, payload, opcode, operands, made⟩ := load_operands act
  exact ⟨target, code, payload, opcode, operands, made.symm, ofBytes_fits made.symm⟩

structure Machine.Holds (kind : Value → Prop) (m : Machine) : Prop where
  registers : ∀ v, some v ∈ m.registers → kind v
  stack : ∀ v ∈ m.stack, kind v

namespace Machine.Holds

variable {kind : Value → Prop} {m : Machine}

theorem fresh : Machine.fresh.Holds kind where
  registers v member := by
    unfold Machine.fresh at member
    rw [Vector.mem_replicate] at member
    cases member.2
  stack v member := by cases member

theorem weaken {other : Value → Prop} (h : m.Holds kind) (wider : ∀ v, kind v → other v) :
    m.Holds other :=
  ⟨fun v member => wider v (h.registers v member), fun v member => wider v (h.stack v member)⟩

theorem register? (h : m.Holds kind) {r : Int} {v : Value} (found : m.register? r = some v) :
    kind v := by
  unfold Machine.register? at found
  split at found
  · cases found
  · exact h.registers v (Vector.mem_of_getElem? (Option.join_eq_some_iff.mp found))

theorem store (h : m.Holds kind) (target : Int) {value : Option Value}
    (new : ∀ v, value = some v → kind v) : (m.store target value).Holds kind := by
  unfold Machine.store
  split
  · exact h
  · refine ⟨fun v member => ?_, h.stack⟩
    obtain ⟨r, found⟩ := Vector.getElem?_of_mem member
    rw [Vector.getElem?_setIfInBounds] at found
    split at found
    · split at found
      · exact new v (Option.some.inj found)
      · cases found
    · exact h.registers v (Vector.mem_of_getElem? found)

theorem restack (h : m.Holds kind) {stack : List Value} (values : ∀ v ∈ stack, kind v) :
    { m with stack := stack }.Holds kind := ⟨h.registers, values⟩

theorem warn (h : m.Holds kind) (warning : Text) : (m.warn warning).Holds kind :=
  ⟨h.registers, h.stack⟩

end Machine.Holds

/-- The step keeps a machine that holds values of a kind so, whether it succeeds or stops, and
yields results of a kind. -/
structure Keeps {α : Type} (kind : Value → Prop) (result : α → Prop) (r : Run α) : Prop where
  value : ∀ {m a after}, m.Holds kind → r m = .ok a after → after.Holds kind ∧ result a
  stop : ∀ {m f after}, m.Holds kind → r m = .error f after → after.Holds kind

namespace Keeps

variable {α β : Type} {kind : Value → Prop} {result : α → Prop} {next : β → Prop}

theorem pure {a : α} (h : result a) : Keeps kind result (pure a) where
  value holds e := by
    cases e
    exact ⟨holds, h⟩
  stop _ e := by cases e

theorem throw (f : Fault) : Keeps kind result (throw f : Run α) where
  value _ e := by cases e
  stop holds e := by
    cases e
    exact holds

theorem bind {r : Run α} {f : α → Run β} (h : Keeps kind result r)
    (k : ∀ a, result a → Keeps kind next (f a)) : Keeps kind next (r >>= f) where
  value holds e := by
    obtain ⟨a, m, first, second⟩ := of_bind_ok e
    obtain ⟨held, made⟩ := h.value holds first
    exact (k a made).value held second
  stop holds e := by
    rcases of_bind_error e with first | ⟨a, m, first, second⟩
    · exact h.stop holds first
    · obtain ⟨held, made⟩ := h.value holds first
      exact (k a made).stop held second

theorem map {r : Run α} {f : α → β} (h : Keeps kind result r)
    (k : ∀ a, result a → next (f a)) : Keeps kind next (f <$> r) := by
  rw [← bind_pure_comp]
  exact h.bind fun a made => pure (k a made)

theorem ofExcept (outcome : Except Fault α) :
    Keeps kind (fun a => outcome = .ok a) (Run.ofExcept outcome) := by
  cases outcome with
  | ok a => exact pure rfl
  | error f => exact throw f

theorem anything {r : Run α} (h : Keeps kind result r) : Keeps kind (fun _ => True) r where
  value holds e := ⟨(h.value holds e).1, trivial⟩
  stop holds e := h.stop holds e

theorem get_bind {f : Machine → Run β} (k : ∀ m, m.Holds kind → Keeps kind next (f m)) :
    Keeps kind next (get >>= f) where
  value holds e := (k _ holds).value holds e
  stop holds e := (k _ holds).stop holds e

theorem update {f : Machine → Machine} (k : ∀ m, m.Holds kind → (f m).Holds kind) :
    Keeps kind (fun _ => True) (modify f) where
  value holds e := by
    cases e
    exact ⟨k _ holds, trivial⟩
  stop _ e := by cases e

theorem warn (warning : Text) : Keeps kind (fun _ => True) (Run.warn warning) :=
  update fun _ holds => holds.warn warning

theorem restack {stack : List Value} (values : ∀ v ∈ stack, kind v) :
    Keeps kind (fun _ => True) (modify fun m : Machine => { m with stack := stack }) :=
  update fun _ holds => holds.restack values

end Keeps

variable {kind : Value → Prop}

/-- An argument is of a kind, and is shown by the form of its value beside its parameter. -/
structure Argument.Shows (kind : Value → Prop) (a : Argument) : Prop where
  value : kind a.value
  shown : ∃ members, a.value.members = .ok members ∧
    a.toJson = .ok (.obj (members ++ Json.member "name" a.param.name ++
      Json.member "abi_type" a.param.type))

theorem argument_shows {a : Argument} {data : Json} (value : kind a.value)
    (shown : a.value.dataJson = .ok data) : a.Shows kind := by
  have members : a.value.members = .ok [("vm_type", .str a.value.type.name), ("value", data)] := by
    unfold Value.members
    rw [shown]
    rfl
  refine ⟨value, _, members, ?_⟩
  unfold Argument.toJson
  rw [members]
  rfl

theorem checkArity_keeps (protocol : Option Json) (key : String) (given : Nat) :
    Keeps kind (fun _ => True) (checkArity protocol key given) := by
  unfold checkArity
  split
  · exact .pure trivial
  split
  · exact .throw _
  · exact .pure trivial
  · split
    · exact .pure trivial
    · exact .bind (.ofExcept _) fun _ _ => .warn _

theorem popArguments_keeps (params : List Abi.Param) :
    Keeps kind (fun arguments => ∀ a ∈ arguments, a.Shows kind) (popArguments params) := by
  induction params with
  | nil => exact .pure (List.forall_mem_nil _)
  | cons param rest ih =>
    refine .get_bind fun m holds => ?_
    cases stack : m.stack with
    | nil => exact .pure (List.forall_mem_nil _)
    | cons value below =>
      have values : ∀ v ∈ value :: below, kind v := stack ▸ holds.stack
      refine (Keeps.restack fun v member => values v (List.mem_cons_of_mem _ member)).bind
        fun _ _ => ?_
      refine (Keeps.ofExcept value.dataJson).bind fun data shown => ih.bind fun arguments others =>
        .pure ?_
      have first : Argument.Shows kind ⟨param, value⟩ :=
        argument_shows (values value List.mem_cons_self) shown
      exact List.forall_mem_cons.mpr ⟨first, others⟩

theorem makeCall_keeps (c : Conventions) (contract method : String) :
    Keeps kind (fun call : MethodCall => ∀ a ∈ call.arguments, a.Shows kind)
      (makeCall c contract method) := by
  have drained : ∀ warning, Keeps kind (fun call : MethodCall => ∀ a ∈ call.arguments, a.Shows kind)
      (do
        Run.warn warning
        modify fun m => { m with stack := [] }
        pure ⟨contract, method, []⟩) := fun warning =>
    (Keeps.warn warning).bind fun _ _ => (Keeps.restack (List.forall_mem_nil _)).bind fun _ _ =>
      .pure (List.forall_mem_nil _)
  refine .get_bind fun m _ => (checkArity_keeps _ _ _).bind fun _ _ => ?_
  split
  · exact drained _
  · exact drained _
  · split
    · exact .throw _
    · exact (popArguments_keeps _).bind fun _ shown => .pure shown

theorem registerText_keeps (r : Int) : Keeps kind (fun _ => True) (registerText r) := by
  refine .get_bind fun m _ => ?_
  split
  · exact (Keeps.ofExcept _).anything
  · exact .pure trivial

theorem popText_keeps : Keeps kind (fun _ => True) popText := by
  refine .get_bind fun m holds => ?_
  cases stack : m.stack with
  | nil => exact .pure trivial
  | cons value below =>
    have values : ∀ v ∈ below, kind v := by
      intro v member
      apply holds.stack
      rw [stack]
      exact List.mem_cons_of_mem _ member
    exact (Keeps.restack values).bind fun _ _ => (Keeps.ofExcept _).anything

def Called (kind : Value → Prop) (call : Option MethodCall) : Prop :=
  ∀ made ∈ call, ∀ a ∈ made.arguments, a.Shows kind

theorem perform_keeps (c : Conventions) {act : Action} (plain : ∀ t v, act ≠ .load t v) :
    Keeps kind (Called kind) (perform c act) := by
  have silent : Called kind none := nofun
  have made : ∀ contract method,
      Keeps kind (Called kind) (some <$> makeCall c contract method) := fun contract method =>
    (makeCall_keeps c contract method).map fun call shown other member => by
      cases member
      exact shown
  cases act with
  | load target value => exact absurd rfl (plain target value)
  | copy source target =>
    have copied : Keeps kind (fun _ => True)
        (modify fun m : Machine => m.store target (m.register? source)) :=
      .update fun m holds => holds.store target fun v found => holds.register? found
    exact copied.bind fun _ _ => .pure silent
  | push source =>
    refine .get_bind fun m holds => ?_
    cases found : m.register? source with
    | none => exact (Keeps.warn _).bind fun _ _ => .pure silent
    | some value =>
      have pushed : Keeps kind (fun _ => True)
          (modify fun m : Machine => { m with stack := value :: m.stack }) :=
        .update fun n above =>
          above.restack (List.forall_mem_cons.mpr ⟨holds.register? found, above.stack⟩)
      exact pushed.bind fun _ _ => .pure silent
  | switch source =>
    exact (registerText_keeps source).bind fun _ _ => popText_keeps.bind fun _ _ => made _ _
  | extCall source => exact (registerText_keeps source).bind fun _ _ => made _ _
  | idle => exact .pure silent

theorem FromLoad.later {executed : List Instruction} {v : Value} (h : FromLoad executed v)
    (i : Instruction) : FromLoad (i :: executed) v := by
  obtain ⟨j, member, loads⟩ := h
  exact ⟨j, List.mem_cons_of_mem i member, loads⟩

theorem replay_sources (c : Conventions) {executed : List Instruction} {i : Instruction}
    {m : Machine} (holds : m.Holds (FromLoad executed)) :
    (∀ call after, replay c i m = .ok call after →
      after.Holds (FromLoad (i :: executed)) ∧ Called (FromLoad (i :: executed)) call) ∧
    ∀ f after, replay c i m = .error f after → after.Holds (FromLoad executed) := by
  rw [replay_perform]
  cases act : i.action with
  | load target value =>
    -- A value that cannot be made stops the load before anything is stored.
    cases value with
    | ok v =>
      refine ⟨fun call after e => ?_, fun f after e => by cases e⟩
      cases e
      refine ⟨(holds.weaken fun _ old => old.later i).store target fun w same => ?_, nofun⟩
      cases same
      exact ⟨i, List.mem_cons_self, loads_of_action act⟩
    | error g =>
      refine ⟨fun call after e => (by cases e), fun f after e => ?_⟩
      cases e
      exact holds
  | _ =>
    have keeps : Keeps (FromLoad executed) (Called (FromLoad executed)) (perform c i.action) :=
      perform_keeps c fun t v load => by
        rw [act] at load
        cases load
    rw [act] at keeps
    refine ⟨fun call after e => ?_, fun f after e => keeps.stop holds e⟩
    obtain ⟨held, called⟩ := keeps.value holds e
    refine ⟨held.weaken fun _ old => old.later i, fun made member a argument => ?_⟩
    obtain ⟨value, shown⟩ := called made member a argument
    exact ⟨value.later i, shown⟩

/-- A moment in the life of a machine: what was executed up to it, the latest instruction first, the
call that this one made, and what the machine holds. -/
structure Moment where
  executed : List Instruction
  call : Option MethodCall
  machine : Machine

namespace Moment

def first : Moment := ⟨[], none, .fresh⟩

/-- The moments of a run, one behind each instruction. An instruction that stops the run is not
executed, but what it took from the machine stays taken. -/
def ofRun (c : Conventions) (now : Moment) : List Instruction → List Moment
  | [] => []
  | i :: rest =>
    match replay c i now.machine with
    | .ok call after =>
      let next := ⟨i :: now.executed, call, after⟩
      next :: ofRun c next rest
    | .error _ after => [⟨now.executed, none, after⟩]

def last (now : Moment) (later : List Moment) : Moment := later.getLast?.getD now

/-- The moments of scripts that run one after another. A script that cannot be disassembled does not
run. -/
def ofSession (c : Conventions) (now : Moment) : List (List UInt8) → List Moment
  | [] => []
  | script :: rest =>
    match disassemble script with
    | .ok is => ofRun c now is ++ ofSession c (now.last (ofRun c now is)) rest
    | .error _ => ofSession c now rest

/-- All values of a moment come from loads before it. -/
structure Sourced (now : Moment) : Prop where
  size : now.machine.registers.toList.length = 16
  holds : now.machine.Holds (FromLoad now.executed)
  called : Called (FromLoad now.executed) now.call

variable {c : Conventions} {now : Moment}

theorem last_cons (now next : Moment) (later : List Moment) :
    now.last (next :: later) = next.last later := by
  unfold last
  rw [List.getLast?_cons]
  rfl

theorem sourced_first : first.Sourced := ⟨rfl, .fresh, nofun⟩

theorem ofRun_sourced (h : now.Sourced) (is : List Instruction) :
    ∀ later ∈ ofRun c now is, later.Sourced := by
  induction is generalizing now with
  | nil => exact List.forall_mem_nil _
  | cons i rest ih =>
    obtain ⟨goes, stops⟩ := replay_sources c (i := i) h.holds
    unfold ofRun
    cases step : replay c i now.machine with
    | ok call after =>
      obtain ⟨holds, called⟩ := goes call after step
      have next : Sourced ⟨i :: now.executed, call, after⟩ := ⟨Vector.length_toList, holds, called⟩
      exact List.forall_mem_cons.mpr ⟨next, ih next⟩
    | error f after =>
      have stopped : Sourced ⟨now.executed, none, after⟩ :=
        ⟨Vector.length_toList, stops f after step, nofun⟩
      exact List.forall_mem_singleton.mpr stopped

theorem last_sourced (h : now.Sourced) {later : List Moment} (k : ∀ m ∈ later, m.Sourced) :
    (now.last later).Sourced := by
  unfold last
  cases found : later.getLast? with
  | none => exact h
  | some m => exact k m (List.mem_of_getLast? found)

theorem ofSession_sourced (h : now.Sourced) (scripts : List (List UInt8)) :
    ∀ later ∈ ofSession c now scripts, later.Sourced := by
  induction scripts generalizing now with
  | nil => exact List.forall_mem_nil _
  | cons script rest ih =>
    unfold ofSession
    cases disassemble script with
    | ok is =>
      have run := ofRun_sourced (c := c) h is
      exact List.forall_mem_append.mpr ⟨run, ih (last_sourced h run)⟩
    | error f => exact ih h

/-- The moments of a run end as the run does: behind all its instructions and with all its calls, or
ahead of the instruction that stops it. -/
def EndsAs (c : Conventions) (now : Moment) (is : List Instruction) : Prop :=
  let final := now.last (ofRun c now is)
  match replayAll c is now.machine with
  | .ok calls after =>
    final.machine = after ∧ final.executed = is.reverse ++ now.executed ∧
      (ofRun c now is).filterMap (·.call) = calls
  | .error f after =>
    final.machine = after ∧ ∃ done i rest calls between, is = done ++ i :: rest ∧
      final.executed = done.reverse ++ now.executed ∧
      replayAll c done now.machine = .ok calls between ∧ replay c i between = .error f after

theorem ofRun_goes {i : Instruction} {call : Option MethodCall} {after : Machine}
    (step : replay c i now.machine = .ok call after) (rest : List Instruction) :
    ofRun c now (i :: rest) =
      ⟨i :: now.executed, call, after⟩ :: ofRun c ⟨i :: now.executed, call, after⟩ rest := by
  rw [ofRun, step]

theorem ofRun_stops {i : Instruction} {f : Fault} {after : Machine}
    (step : replay c i now.machine = .error f after) (rest : List Instruction) :
    ofRun c now (i :: rest) = [⟨now.executed, none, after⟩] := by
  rw [ofRun, step]

theorem ofRun_endsAs (c : Conventions) (now : Moment) (is : List Instruction) :
    EndsAs c now is := by
  induction is generalizing now with
  | nil => exact ⟨rfl, rfl, rfl⟩
  | cons i rest ih =>
    unfold EndsAs
    cases step : replay c i now.machine with
    | ok call between =>
      specialize ih ⟨i :: now.executed, call, between⟩
      unfold EndsAs at ih
      rw [ofRun_goes step, last_cons, replayAll, bind_ok step]
      cases run : replayAll c rest between with
      | ok calls after =>
        simp only [run] at ih
        obtain ⟨machine, executed, made⟩ := ih
        rw [bind_ok run]
        refine ⟨machine, ?_, ?_⟩
        · rw [executed, List.reverse_cons, List.append_assoc, List.singleton_append]
        · rw [List.filterMap_cons, made]
          cases call <;> rfl
      | error f after =>
        simp only [run] at ih
        obtain ⟨machine, done, j, others, calls, before, rfl, executed, ran, stopped⟩ := ih
        rw [bind_error run]
        refine ⟨machine, i :: done, j, others, call.toList ++ calls, before, rfl, ?_, ?_, stopped⟩
        · rw [executed, List.reverse_cons, List.append_assoc, List.singleton_append]
        · rw [replayAll, bind_ok step, bind_ok ran]
          rfl
    | error f after =>
      rw [ofRun_stops step, replayAll, bind_error step]
      exact ⟨rfl, [], i, rest, [], now.machine, rfl, rfl, rfl, step⟩

end Moment

/-- Whatever scripts one machine runs, whether a run gets to its end or stops, all that it holds at
any moment and all arguments of its calls come from loads executed before. The moments are those of
the runs. -/
theorem values_come_from_loads (c : Conventions) (scripts : List (List UInt8)) :
    (∀ now ∈ Moment.first :: Moment.ofSession c .first scripts, now.Sourced) ∧
      ∀ now is, Moment.EndsAs c now is :=
  ⟨List.forall_mem_cons.mpr
      ⟨Moment.sourced_first, Moment.ofSession_sourced Moment.sourced_first scripts⟩,
    Moment.ofRun_endsAs c⟩

end ChainDecode.Vm
