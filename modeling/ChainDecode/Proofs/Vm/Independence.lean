import ChainDecode.Proofs.Vm.Calls

/-! # What conventions cannot change

Two replays of one script, each with its own method table and its own protocol version. They name
the same calls and leave the same registers and the same stack; a protocol version alone adds
nothing but warnings about itself.
-/
namespace ChainDecode.Vm

variable {c c' : Conventions} {m m' : Machine} {before : List Instruction}

theorem register?_inside (m : Machine) {r : Nat} (inside : r < 16) :
    m.register? r = m.registers[r] := by
  unfold Machine.register?
  rw [if_neg (Int.not_lt.mpr (Int.natCast_nonneg r)), Int.toNat_natCast,
    Vector.getElem?_eq_getElem inside]
  rfl

theorem Follows.registers_eq (h : Follows c m before) (h' : Follows c' m' before) :
    m.registers = m'.registers := by
  apply Vector.ext
  intro r inside
  rw [← register?_inside m inside, ← register?_inside m' inside, h.registers, h'.registers]

theorem Follows.stack_eq (h : Follows c m before) (h' : Follows c' m' before) :
    m.stack = m'.stack := h.stack.trans h'.stack.symm

def MethodCall.names (call : MethodCall) : String × String := (call.contract, call.method)

variable {s : Site} {call call' : MethodCall}

theorem Reconstructs.names_eq (h : Reconstructs c s call) (h' : Reconstructs c' s call') :
    call.names = call'.names := by
  have contract := h.contract.symm.trans h'.contract
  have method := h.method.symm.trans h'.method
  exact Prod.ext (Except.ok.inj contract) (Except.ok.inj method)

theorem fitting_congr (table : c.table = c'.table) (key : String) (given : Nat) :
    c.fitting key given = c'.fitting key given := by
  unfold Conventions.fitting
  rw [table]

theorem Reconstructs.call_eq (table : c.table = c'.table) (h : Reconstructs c s call)
    (h' : Reconstructs c' s call') : call = call' := by
  obtain ⟨contract, method, arguments⟩ := call
  obtain ⟨contract', method', arguments'⟩ := call'
  obtain ⟨rfl, rfl⟩ := Prod.mk.inj (h.names_eq h')
  have same := h.arguments.trans ((congrArg _ (fitting_congr table _ _)).trans h'.arguments.symm)
  rw [show arguments = arguments' from same]

theorem names_agree {sites : List Site} {calls calls' : List MethodCall}
    (h : List.Forall₂ (Reconstructs c) sites calls)
    (h' : List.Forall₂ (Reconstructs c') sites calls') :
    calls.map MethodCall.names = calls'.map MethodCall.names := by
  induction h generalizing calls' with
  | nil =>
    cases h'
    rfl
  | cons first rest ih =>
    cases h' with
    | cons first' rest' => rw [List.map_cons, List.map_cons, first.names_eq first', ih rest']

theorem calls_agree (table : c.table = c'.table) {sites : List Site}
    {calls calls' : List MethodCall} (h : List.Forall₂ (Reconstructs c) sites calls)
    (h' : List.Forall₂ (Reconstructs c') sites calls') : calls = calls' := by
  induction h generalizing calls' with
  | nil =>
    cases h'
    rfl
  | cons first rest ih =>
    cases h' with
    | cons first' rest' => rw [first.call_eq table first', ih rest']

def tellsOfProtocol (w : Text) : Bool := w.startsWith "protocol "

/-- The warnings that are not about the protocol version. -/
def unversioned (warnings : List Text) : List Text := warnings.filter fun w => !tellsOfProtocol w

theorem unversioned_append (front back : List Text) :
    unversioned (front ++ back) = unversioned front ++ unversioned back := List.filter_append ..

theorem mismatch_tells (protocol : Option Json) (key : String) (given : Nat) :
    unversioned ((mismatch protocol key given).toOption.getD []) = [] := by
  have told : ∀ version back : Text, tellsOfProtocol ("protocol " ++ version ++ back) = true := by
    intro version back
    unfold tellsOfProtocol
    rw [Text.append_assoc]
    exact Text.startsWith_of_front (List.prefix_refl _) _
  cases found : mismatch protocol key given with
  | error f => rfl
  | ok lines =>
    rcases mismatch_ok found with rfl | ⟨expected, version, rfl⟩
    · rfl
    · dsimp only [Except.toOption, Option.getD]
      rw [unversioned, List.filter_cons_of_neg]
      · rfl
      · rw [mismatchLine, Text.append_assoc, told]
        decide

theorem callWarnings_agree (table : c.table = c'.table) (key : String) (given : Nat) :
    unversioned (callWarnings c key given) = unversioned (callWarnings c' key given) := by
  unfold callWarnings
  rw [unversioned_append, unversioned_append, mismatch_tells, mismatch_tells,
    fitting_congr table]

theorem warningsAt_agree (table : c.table = c'.table) (before : List Instruction)
    (i : Instruction) :
    unversioned (warningsAt c before i) = unversioned (warningsAt c' before i) := by
  have site : ∀ s : Site, unversioned (s.warnings c) = unversioned (s.warnings c') := by
    intro s
    unfold Site.warnings
    split
    · exact callWarnings_agree table _ _
    · rfl
  unfold warningsAt
  split
  · rfl
  · exact site _
  · exact site _
  · rfl

theorem warned_agree (table : c.table = c'.table) (before : List Instruction) :
    unversioned (warned c before) = unversioned (warned c' before) := by
  induction before with
  | nil => rfl
  | cons i before ih =>
    rw [warned, warned, unversioned_append, unversioned_append, ih, warningsAt_agree table]

theorem analyse_ok {script : List UInt8} {d : Disassembly} (h : analyse c script = .ok d) :
    disassemble script = .ok d.instructions ∧
      ∃ m, (replayAll c d.instructions).run .fresh = .ok d.calls m ∧ m.warnings = d.warnings := by
  obtain ⟨is, disassembled, rest⟩ := except_bind_ok.mp h
  cases run : (replayAll c is).run .fresh with
  | ok calls m =>
    rw [run] at rest
    cases rest
    exact ⟨disassembled, m, run, rfl⟩
  | error f m =>
    rw [run] at rest
    cases rest

/-- For every script, two analyses that both succeed have the same instructions, name the same
contract and the same method in each of their calls, and end with the same registers and the same
stack, whatever tables and protocol versions they are given. With the same table their calls are the
same altogether, and so are their warnings apart from those about a protocol version. -/
theorem names_ignore_conventions {script : List UInt8} {d d' : Disassembly}
    (h : analyse c script = .ok d) (h' : analyse c' script = .ok d') :
    d.instructions = d'.instructions ∧
      d.calls.map MethodCall.names = d'.calls.map MethodCall.names ∧
      (∃ m m', (replayAll c d.instructions).run .fresh = .ok d.calls m ∧
        (replayAll c' d'.instructions).run .fresh = .ok d'.calls m' ∧
        m.registers = m'.registers ∧ m.stack = m'.stack) ∧
      (c.table = c'.table →
        d.calls = d'.calls ∧ unversioned d.warnings = unversioned d'.warnings) := by
  obtain ⟨disassembled, m, run, warnings⟩ := analyse_ok h
  obtain ⟨disassembled', m', run', warnings'⟩ := analyse_ok h'
  have instructions : d.instructions = d'.instructions :=
    Except.ok.inj (disassembled.symm.trans disassembled')
  have shaped := disassemble_shaped disassembled
  rw [← instructions] at run' ⊢
  obtain ⟨follows, sites⟩ := replayAll_ok shaped (follows_fresh c) run
  obtain ⟨follows', sites'⟩ := replayAll_ok shaped (follows_fresh c') run'
  have left : m.registers = m'.registers ∧ m.stack = m'.stack :=
    ⟨follows.registers_eq follows', follows.stack_eq follows'⟩
  refine ⟨rfl, names_agree sites sites', ⟨m, m', run, run', left⟩, fun table => ?_⟩
  refine ⟨calls_agree table sites sites', ?_⟩
  rw [← warnings, ← warnings', follows.warnings, follows'.warnings]
  exact warned_agree table _

/-- A table with one interop method of three parameters. -/
def notifyTable : Abi.Table :=
  ⟨[(.text "Runtime.Notify",
    [⟨[⟨.str "kind", .str "String"⟩, ⟨.str "address", .str "String"⟩, ⟨.str "data", .str "String"⟩],
      .null⟩])]⟩

/-- Three texts are pushed for a call of the interop method, and one more names the method of a
contract behind it. -/
def notifyScript : List UInt8 :=
  [13, 0, 4, 1, 97, 3, 0, 3, 0, 3, 0] ++
    [13, 1, 4, 14, 82, 117, 110, 116, 105, 109, 101, 46, 78, 111, 116, 105, 102, 121, 7, 1] ++
    [3, 0, 46, 1]

/-- What an analysis names, with the number of arguments of each call and the warnings. -/
def Disassembly.summary (d : Disassembly) : List (String × String) × List Nat × List Text :=
  (d.calls.map MethodCall.names, d.calls.map fun call => call.arguments.length, d.warnings)

/-- The table decides about arguments and the protocol version about a warning, and neither about
the names. -/
theorem notify_named :
    ∃ latest older bare, analyse ⟨some notifyTable, some (.int 19)⟩ notifyScript = .ok latest ∧
      analyse ⟨some notifyTable, some (.int 18)⟩ notifyScript = .ok older ∧
      analyse ⟨none, none⟩ notifyScript = .ok bare ∧
      (latest.calls.map MethodCall.names = bare.calls.map MethodCall.names ∧
        bare.calls.map MethodCall.names = [("", "Runtime.Notify"), ("Runtime.Notify", "a")] ∧
        (latest.calls.map fun call => call.arguments.length) = [3, 0] ∧
        (bare.calls.map fun call => call.arguments.length) = [0, 0]) ∧
      latest.calls = older.calls ∧ latest.warnings ≠ older.warnings ∧
      unversioned latest.warnings = unversioned older.warnings := by
  have found : ∀ c summary, (analyse c notifyScript).toOption.map Disassembly.summary =
      some summary → ∃ d, analyse c notifyScript = .ok d ∧ d.summary = summary := by
    intro c summary h
    cases analysed : analyse c notifyScript with
    | ok d =>
      rw [analysed] at h
      exact ⟨d, rfl, Option.some.inj h⟩
    | error f =>
      rw [analysed] at h
      cases h
  obtain ⟨latest, first, seen⟩ := found ⟨some notifyTable, some (.int 19)⟩
    ([("", "Runtime.Notify"), ("Runtime.Notify", "a")], [3, 0],
      [.ofString "protocol 19 expects 4 args for Runtime.Notify; script provides 3",
        .ofString "missing ABI for Runtime.Notify.a; args omitted"]) (by decide +kernel)
  obtain ⟨older, second, seen'⟩ := found ⟨some notifyTable, some (.int 18)⟩
    ([("", "Runtime.Notify"), ("Runtime.Notify", "a")], [3, 0],
      [.ofString "missing ABI for Runtime.Notify.a; args omitted"]) (by decide +kernel)
  obtain ⟨bare, third, seen''⟩ := found ⟨none, none⟩
    ([("", "Runtime.Notify"), ("Runtime.Notify", "a")], [0, 0],
      [.ofString "missing ABI for Runtime.Notify; args omitted",
        .ofString "missing ABI for Runtime.Notify.a; args omitted"]) (by decide +kernel)
  simp only [Disassembly.summary, Prod.mk.injEq] at seen seen' seen''
  obtain ⟨_, names, _, _⟩ := names_ignore_conventions first third
  obtain ⟨calls, warnings⟩ := (names_ignore_conventions first second).2.2.2 rfl
  refine ⟨latest, older, bare, first, second, third,
    ⟨names, seen''.1, seen.2.1, seen''.2.1⟩, calls, ?_, warnings⟩
  rw [seen.2.2, seen'.2.2]
  exact fun same => absurd (congrArg List.length same) (by decide)

end ChainDecode.Vm
