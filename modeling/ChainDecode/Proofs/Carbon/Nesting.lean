import ChainDecode.Proofs.Carbon.CallWarning
import Mathlib.Data.List.Forall2

/-! # Calls inside calls

The arguments of a call may be calls, so the same call is decoded at any depth and by several ways.
How deep it stands decides only about how much nesting is allowed. As long as no limit is reported,
every level that is added leaves the outcome as it is.
-/
namespace ChainDecode

def Fault.IsDepth (f : Fault) : Prop := f = .valueDepth ∨ f = .argumentDepth

theorem Fault.IsDepth.message {f : Fault} (h : f.IsDepth) :
    (Text.ofString "max depth").letters <:+ f.message.letters := by
  rcases h with rfl | rfl <;> decide

theorem Fault.IsDepth.not_isEndOfStream {f : Fault} (h : f.IsDepth) : f.isEndOfStream = false := by
  rcases h with rfl | rfl <;> rfl

namespace Carbon

/-- The warning reports that nesting went past a limit. -/
def ReportsDepth (w : Text) : Prop := (Text.ofString "max depth").letters <:+: w.letters

instance (w : Text) : Decidable (ReportsDepth w) :=
  inferInstanceAs (Decidable ((Text.ofString "max depth").letters <:+: w.letters))

/-- None of the warnings reports a limit of nesting. -/
def WithinDepth (warnings : List Text) : Prop := ∀ w ∈ warnings, ¬ ReportsDepth w

instance (warnings : List Text) : Decidable (WithinDepth warnings) :=
  inferInstanceAs (Decidable (∀ w ∈ warnings, ¬ ReportsDepth w))

theorem withinDepth_append {front back : List Text} :
    WithinDepth (front ++ back) ↔ WithinDepth front ∧ WithinDepth back := List.forall_mem_append

theorem failure_reports {f : Fault} (h : f.IsDepth) (method : String) (arg : ArgDef) :
    ReportsDepth (failureWarning method arg f) := by
  unfold failureWarning ReportsDepth
  rw [Text.letters_append]
  exact (h.message.trans (List.suffix_append _ _)).isInfix

variable {σ α β : Type} {calm : σ → Prop}

def Shallow (calm : σ → Prop) : EStateM.Result Fault σ α → Prop
  | .ok _ s => calm s
  | .error f s => calm s ∧ ¬ f.IsDepth

theorem Shallow.left {outcome : EStateM.Result Fault σ α} (h : Shallow calm outcome) :
    calm (leftBy outcome) := by
  cases outcome with
  | ok a s => exact h
  | error f s => exact h.1

/-- The second reader does what the first one does, up to a limit of nesting that this one reports.
What was reported before stays so. -/
structure Deepens (calm : σ → Prop) (r deeper : EStateM Fault σ α) : Prop where
  before : ∀ {s}, calm (leftBy (r s)) → calm s
  same : ∀ {s}, Shallow calm (r s) → deeper s = r s

namespace Deepens

theorem pure (a : α) : Deepens calm (pure a) (pure a) := ⟨id, fun _ => rfl⟩

theorem throw {f : Fault} (depth : f.IsDepth) (deeper : EStateM Fault σ α) :
    Deepens calm (throw f) deeper := ⟨id, fun shallow => absurd depth shallow.2⟩

theorem bind {r deeper : EStateM Fault σ α} {k further : α → EStateM Fault σ β}
    (h : Deepens calm r deeper) (next : ∀ a, Deepens calm (k a) (further a)) :
    Deepens calm (r >>= k) (deeper >>= further) where
  before {s} after := by
    cases first : r s with
    | ok a t =>
      rw [bind_ok first] at after
      have between := (next a).before after
      exact h.before (by rwa [first])
    | error f t =>
      rw [bind_error first] at after
      exact h.before (by rwa [first])
  same {s} shallow := by
    cases first : r s with
    | ok a t =>
      rw [bind_ok first] at shallow ⊢
      have between : Shallow calm (r s) := by
        rw [first]
        exact (next a).before shallow.left
      rw [bind_ok ((h.same between).trans first), (next a).same shallow]
    | error f t =>
      rw [bind_error first] at shallow ⊢
      have stopped : Shallow calm (r s) := by rwa [first]
      rw [bind_error ((h.same stopped).trans first)]

theorem times {r deeper : EStateM Fault σ α} (h : Deepens calm r deeper) (n : Nat) :
    Deepens calm (times r n) (times deeper n) := by
  induction n with
  | zero => exact pure []
  | succ n ih => exact bind h fun a => bind ih fun rest => pure (a :: rest)

end Deepens

abbrev ReadDeepens (r deeper : Read α) : Prop := Deepens (fun _ => True) r deeper

theorem Deepens.refl (r : Read α) : ReadDeepens r r := ⟨fun _ => trivial, fun _ => rfl⟩

theorem readElement_deepens {struct deeper : Read Value} (h : ReadDeepens struct deeper)
    (base : Nat) : ReadDeepens (readElement struct base) (readElement deeper base) := by
  unfold readElement
  split <;> first | exact h | exact .refl _

theorem readTyped_deepens {struct deeper : Read Value} (h : ReadDeepens struct deeper)
    (code : UInt8) : ReadDeepens (readTyped struct code) (readTyped deeper code) := by
  have element := readElement_deepens h (baseOf code)
  unfold readTyped
  split
  · exact .bind (.refl _) fun n => .bind (.times element n) fun _ => .pure _
  · exact element

theorem readVariableFields_deepens {struct deeper : Read Value} (h : ReadDeepens struct deeper) :
    ReadDeepens (readVariableFields struct) (readVariableFields deeper) :=
  .bind (.refl _) fun _ => .bind (readTyped_deepens h _) fun _ => .pure _

theorem readDynamic_deepens {levels more : Nat} (le : levels ≤ more) :
    ReadDeepens (readStruct levels) (readStruct more) ∧
      ReadDeepens (readVariable levels) (readVariable more) := by
  induction levels generalizing more with
  | zero => exact ⟨.throw (Or.inl rfl) _, .throw (Or.inl rfl) _⟩
  | succ levels ih =>
    obtain ⟨more, rfl⟩ : ∃ fewer, more = fewer + 1 := ⟨more - 1, by omega⟩
    obtain ⟨struct, fields⟩ := ih (Nat.le_of_succ_le_succ le)
    have named : ReadDeepens (readNamed (readVariable levels)) (readNamed (readVariable more)) :=
      .bind (.refl _) fun _ => .bind fields fun _ => .pure _
    constructor
    · unfold readStruct
      exact .bind (.refl _) fun n => .bind (.times named n) fun _ => .pure _
    · unfold readVariable
      exact readVariableFields_deepens struct

theorem readVariableRecord_deepens {levels more : Nat} (le : levels ≤ more) :
    ReadDeepens (readVariableRecord levels) (readVariableRecord more) := by
  unfold readVariableRecord
  rw [← bind_pure_comp, ← bind_pure_comp]
  exact .bind (readDynamic_deepens le).2 fun _ => .pure _

abbrev ArgDeepens (r deeper : ArgRead α) : Prop :=
  Deepens (fun s : ArgState => WithinDepth s.warnings) r deeper

theorem Deepens.lift {r deeper : Read α} (h : ReadDeepens r deeper) :
    ArgDeepens (ArgRead.lift r) (ArgRead.lift deeper) where
  before {s} after := by
    cases first : r s.cursor with
    | ok a c => rwa [lift_ok first] at after
    | error f c => rwa [lift_error first] at after
  same {s} shallow := by
    cases first : r s.cursor with
    | ok a c =>
      have read : Shallow (fun _ => True) (r s.cursor) := by
        rw [first]
        trivial
      rw [lift_ok first, lift_ok ((h.same read).trans first)]
    | error f c =>
      rw [lift_error first] at shallow
      have read : Shallow (fun _ => True) (r s.cursor) := by
        rw [first]
        exact ⟨trivial, shallow.2⟩
      rw [lift_error first, lift_error ((h.same read).trans first)]

variable {read deeper : ArgType → ArgRead Value}

theorem decodeArgsFrom_deepens (h : ∀ type, ArgDeepens (read type) (deeper type)) (method : String)
    (args : List ArgDef) (s : ArgState)
    (quiet : WithinDepth (decodeArgsFrom read method args s).2) :
    WithinDepth s.warnings ∧
      decodeArgsFrom deeper method args s = decodeArgsFrom read method args s := by
  induction args generalizing s with
  | nil => exact ⟨(withinDepth_append.mp quiet).1, rfl⟩
  | cons arg rest ih =>
    -- Once the outcome of the first argument is known to be calm, both readers yield it.
    have step : Shallow (fun s : ArgState => WithinDepth s.warnings) (read arg.type s) →
        WithinDepth s.warnings ∧ deeper arg.type s = read arg.type s := fun shallow =>
      ⟨(h arg.type).before shallow.left, (h arg.type).same shallow⟩
    unfold decodeArgsFrom at quiet ⊢
    cases first : read arg.type s with
    | ok v t =>
      rw [first] at quiet step
      obtain ⟨between, others⟩ := ih t quiet
      obtain ⟨before, same⟩ := step between
      rw [same]
      simp only [others, before, true_and]
    | error f t =>
      rw [first] at quiet step
      dsimp only at quiet
      have shallow : WithinDepth t.warnings ∧ ¬ f.IsDepth := by
        split at quiet
        · rename_i ended
          obtain ⟨-, stream⟩ := Bool.and_eq_true_iff.mp ended
          refine ⟨(withinDepth_append.mp quiet).1, fun depth => ?_⟩
          rw [depth.not_isEndOfStream] at stream
          cases stream
        · obtain ⟨between, failure⟩ := withinDepth_append.mp quiet
          exact ⟨between, fun depth =>
            failure _ (List.mem_singleton_self _) (failure_reports depth method arg)⟩
      obtain ⟨before, same⟩ := step shallow
      rw [same]
      exact ⟨before, rfl⟩

theorem decodeArgs_deepens (h : ∀ type, ArgDeepens (read type) (deeper type))
    (signature : Option CallSignature) (args : List UInt8)
    (quiet : WithinDepth (decodeArgs read signature args).2) :
    decodeArgs deeper signature args = decodeArgs read signature args := by
  cases signature with
  | none => rfl
  | some s =>
    unfold decodeArgs at quiet ⊢
    simp only [(decodeArgsFrom_deepens h s.name s.args ⟨.start args, []⟩ quiet).2]

theorem decodeSection_deepens (h : ∀ type, ArgDeepens (read type) (deeper type))
    (signature : Option CallSignature) (s : RawSection)
    (quiet : WithinDepth (decodeSection read signature s).2) :
    decodeSection deeper signature s = decodeSection read signature s := by
  unfold decodeSection at quiet ⊢
  split
  · rename_i bytes
    rw [if_pos bytes] at quiet
    simp only [decodeArgs_deepens h signature s.args quiet]
  · rfl

theorem decodeCallWith_deepens (h : ∀ type, ArgDeepens (read type) (deeper type)) (c : RawCall)
    (quiet : WithinDepth (decodeCallWith read c).2) :
    decodeCallWith deeper c = decodeCallWith read c := by
  unfold decodeCallWith at quiet ⊢
  dsimp only at quiet ⊢
  split
  · rename_i first rest sections
    simp only [sections] at quiet
    have same : ∀ s ∈ first :: rest, decodeSection deeper (Catalog.lookup c.module c.method) s =
        decodeSection read (Catalog.lookup c.module c.method) s := by
      intro s member
      refine decodeSection_deepens h _ s fun w inside => quiet w ?_
      rw [List.flatMap_map]
      exact List.mem_flatMap.mpr ⟨s, member, inside⟩
    rw [List.map_congr_left same]
  · rename_i plain
    have quiet : WithinDepth (decodeArgs read (Catalog.lookup c.module c.method) c.args).2 := by
      split at quiet
      · rename_i first rest sections
        exact absurd sections (plain first rest)
      · exact quiet
    simp only [decodeArgs_deepens h _ c.args quiet]

theorem readEmbedded_deepens (h : ∀ type, ArgDeepens (read type) (deeper type)) (c : RawCall) :
    ArgDeepens (readEmbedded read c) (readEmbedded deeper c) where
  before after := (withinDepth_append.mp after).1
  same {s} shallow := by
    have quiet : WithinDepth (decodeCallWith read c).2 := (withinDepth_append.mp shallow).2
    unfold readEmbedded
    rw [decodeCallWith_deepens h c quiet]

theorem readAllEmbedded_deepens (h : ∀ type, ArgDeepens (read type) (deeper type))
    (raws : List RawCall) :
    ArgDeepens (readAllEmbedded read raws) (readAllEmbedded deeper raws) := by
  induction raws with
  | nil => exact .pure []
  | cons c rest ih =>
    exact .bind (readEmbedded_deepens h c) fun v => .bind ih fun values => .pure (v :: values)

theorem readArg_deepens {levels more : Nat} (le : levels ≤ more) (type : ArgType) :
    ArgDeepens (readArg levels type) (readArg more type) := by
  -- Every type is read one level further down, so the levels carry the induction.
  induction levels generalizing more type with
  | zero => exact .throw (Or.inr rfl) _
  | succ levels ih =>
    obtain ⟨more, rfl⟩ : ∃ fewer, more = fewer + 1 := ⟨more - 1, by omega⟩
    replace le := Nat.le_of_succ_le_succ le
    have same : ∀ {γ : Type} (r : Read γ), ArgDeepens (ArgRead.lift r) (ArgRead.lift r) := fun r =>
      .lift (.refl r)
    have struct := (readDynamic_deepens le).1
    unfold readArg
    split
    · exact same _
    · exact .lift struct
    · exact .lift (readVariableRecord_deepens le)
    · exact .bind (same _) fun _ => .bind (same _) fun _ => .bind (.lift struct) fun _ =>
        .bind (ih le _) fun _ => .pure _
    · exact .bind (same _) fun _ => .bind (same _) fun _ => .bind (ih le _) fun _ => .pure _
    · exact .bind (same _) fun raws => .bind (readAllEmbedded_deepens (fun _ => ih le _) raws)
        fun _ => .pure _
    · exact same _
    · exact .bind (same _) fun n => .bind (.times (ih le _) n) fun _ => .pure _
    · exact ⟨id, fun _ => rfl⟩

theorem levelsFrom_antitone {outer inner : Int} (le : outer ≤ inner) :
    levelsFrom inner ≤ levelsFrom outer := by
  unfold levelsFrom
  omega

/-- A call that keeps within the limits decodes the same wherever it has more room. -/
theorem decodeCall_outer {outer inner : Int} (le : outer ≤ inner) (c : RawCall)
    (quiet : WithinDepth (decodeCall inner c).2) : decodeCall outer c = decodeCall inner c :=
  decodeCallWith_deepens (readArg_deepens (levelsFrom_antitone le)) c quiet

def RawCall.withArgs (c : RawCall) (args : List UInt8) : RawCall :=
  { c with args := args, sections := none }

/-- A section with bytes holds what the call with these bytes in one piece decodes to, and one
without holds nothing. -/
def SectionAgrees (depth : Int) (c : RawCall) (s : RawSection) (item : CallSection) : Prop :=
  item.registerOffset = s.registerOffset ∧
    if 0 ≤ s.registerOffset then
      ∃ arguments, (decodeCall depth (c.withArgs s.args)).1.content = .plain s.args arguments ∧
        item.content = some (s.args, arguments)
    else item.content = none

/-- The warnings of the call with the bytes of a section in one piece. -/
def sectionWarnings (depth : Int) (c : RawCall) (s : RawSection) : List Text :=
  if 0 ≤ s.registerOffset then (decodeCall depth (c.withArgs s.args)).2 else []

theorem decodeSection_agrees (depth : Int) (c : RawCall) (s : RawSection) :
    SectionAgrees depth c s
        (decodeSection (readArg (levelsFrom depth)) (Catalog.lookup c.module c.method) s).1 ∧
      (decodeSection (readArg (levelsFrom depth)) (Catalog.lookup c.module c.method) s).2 =
        sectionWarnings depth c s := by
  unfold SectionAgrees sectionWarnings decodeSection
  split
  · exact ⟨⟨rfl, _, rfl, rfl⟩, rfl⟩
  · exact ⟨⟨rfl, rfl⟩, rfl⟩

theorem sections_agree (depth : Int) {c : RawCall} {first : RawSection} {rest : List RawSection}
    (sections : c.sections = some (first :: rest)) :
    ∃ items, (decodeCall depth c).1.content = .sections items ∧
      List.Forall₂ (SectionAgrees depth c) (first :: rest) items ∧
      (decodeCall depth c).2 = (first :: rest).flatMap (sectionWarnings depth c) := by
  unfold decodeCall decodeCallWith
  simp only [sections]
  refine ⟨_, rfl, ?_, ?_⟩
  · rw [List.map_map, List.forall₂_map_right_iff, List.forall₂_same]
    exact fun s _ => (decodeSection_agrees depth c s).1
  · rw [List.flatMap_map]
    exact List.flatMap_congr fun s _ => (decodeSection_agrees depth c s).2

theorem decodeCalls_each (raws : List RawCall) :
    decodeCalls raws =
      (raws.map fun c => (decodeCall 0 c).1, raws.flatMap fun c => (decodeCall 0 c).2) := by
  unfold decodeCalls
  simp only [List.map_map, List.flatMap_map]
  rfl

theorem readAllEmbedded_all (read : ArgType → ArgRead Value) (raws : List RawCall) (s : ArgState) :
    readAllEmbedded read raws s = .ok (raws.map fun c => (decodeCallWith read c).1.toValue)
      { s with warnings := s.warnings ++ raws.flatMap fun c => (decodeCallWith read c).2 } := by
  induction raws generalizing s with
  | nil =>
    rw [List.flatMap_nil, List.append_nil]
    rfl
  | cons c rest ih =>
    have call : readEmbedded read c s = .ok (decodeCallWith read c).1.toValue
        { s with warnings := s.warnings ++ (decodeCallWith read c).2 } := rfl
    rw [readAllEmbedded, bind_ok call, bind_ok (ih _), List.flatMap_cons, ← List.append_assoc]
    rfl

theorem readArg_calls {depth : Int} (low : 0 ≤ depth) (high : depth ≤ maxDepth) {s : ArgState}
    {raws : List RawCall} {after : Cursor} (found : RawCall.readMany s.cursor = .ok raws after)
    (quiet : ∀ c ∈ raws, WithinDepth (decodeCall (depth + 1) c).2) :
    readArg (levelsFrom depth) .calls s =
      .ok (.list ((decodeCalls raws).1.map Call.toValue))
        ⟨after, s.warnings ++ (decodeCalls raws).2⟩ := by
  have levels : levelsFrom depth = levelsFrom (depth + 1) + 1 := by
    unfold levelsFrom
    omega
  have top : ∀ c ∈ raws, decodeCallWith (readArg (levelsFrom (depth + 1))) c = decodeCall 0 c :=
    fun c member => (decodeCall_outer (by omega) c (quiet c member)).symm
  have values :
      (raws.map fun c => (decodeCallWith (readArg (levelsFrom (depth + 1))) c).1.toValue) =
        (decodeCalls raws).1.map Call.toValue := by
    rw [decodeCalls_each, List.map_map]
    exact List.map_congr_left fun c member => congrArg (·.1.toValue) (top c member)
  have warnings : (raws.flatMap fun c => (decodeCallWith (readArg (levelsFrom (depth + 1))) c).2) =
      (decodeCalls raws).2 := by
    rw [decodeCalls_each]
    exact List.flatMap_congr fun c member => congrArg (·.2) (top c member)
  rw [levels, readArg, bind_ok (lift_ok found), bind_ok (readAllEmbedded_all _ raws _), values,
    warnings]
  rfl

/-- A call decodes in the same way wherever it stands. Each of its sections is decoded as the call
with the bytes of the section in one piece; a list of calls is decoded call by call; a call that
keeps within the limits at one depth decodes the same at any smaller depth; and calls that are read
as an argument and keep within the limits there decode as a list of calls at the top does. -/
theorem calls_decode_wherever_they_stand :
    (∀ (depth : Int) (c : RawCall) (first : RawSection) (rest : List RawSection),
      c.sections = some (first :: rest) →
        ∃ items, (decodeCall depth c).1.content = .sections items ∧
          List.Forall₂ (SectionAgrees depth c) (first :: rest) items ∧
          (decodeCall depth c).2 = (first :: rest).flatMap (sectionWarnings depth c)) ∧
    (∀ raws, decodeCalls raws =
      (raws.map fun c => (decodeCall 0 c).1, raws.flatMap fun c => (decodeCall 0 c).2)) ∧
    (∀ (c : RawCall) (outer inner : Int), outer ≤ inner →
      WithinDepth (decodeCall inner c).2 → decodeCall outer c = decodeCall inner c) ∧
    ∀ (depth : Int) (s : ArgState) (raws : List RawCall) (after : Cursor),
      0 ≤ depth → depth ≤ maxDepth → RawCall.readMany s.cursor = .ok raws after →
      (∀ c ∈ raws, WithinDepth (decodeCall (depth + 1) c).2) →
        readArg (levelsFrom depth) .calls s =
          .ok (.list ((decodeCalls raws).1.map Call.toValue))
            ⟨after, s.warnings ++ (decodeCalls raws).2⟩ := by
  refine ⟨fun depth c first rest sections => sections_agree depth sections, decodeCalls_each,
    fun c outer inner le quiet => decodeCall_outer le c quiet,
    fun depth s raws after low high found quiet => readArg_calls low high found quiet⟩

def supplyCall : RawCall := ⟨1, 17, [3, 0, 0, 0, 0, 0, 0, 0], none⟩

/-- A list of that call alone on the wire. -/
def supplyCalls : List UInt8 :=
  [1, 0, 0, 0] ++ [1, 0, 0, 0, 17, 0, 0, 0, 8, 0, 0, 0] ++ [3, 0, 0, 0, 0, 0, 0, 0]

/-- A resolution that makes the call. -/
def supplyResolution : RawCall := ⟨0, 2, [1, 0, 0, 0, 0, 0, 0, 0] ++ supplyCalls, none⟩

/-- The resolution decodes at depth 127 as at the top, since its call is just within the limit
there, and at depth 128 its call is past it. -/
theorem resolution_decodes_to_the_limit :
    (decodeCall 0 supplyResolution = decodeCall 127 supplyResolution ∧
      ¬ WithinDepth (decodeCall 128 supplyResolution).2) ∧
    readArg (levelsFrom 127) .calls ⟨.start supplyCalls, []⟩ =
      .ok (.list ((decodeCalls [supplyCall]).1.map Call.toValue)) ⟨⟨24, []⟩, []⟩ := by
  obtain ⟨-, -, anywhere, embedded⟩ := calls_decode_wherever_they_stand
  have quiet : (decodeCalls [supplyCall]).2 = [] := by decide +kernel
  refine ⟨⟨anywhere supplyResolution 0 127 (by decide) (by decide +kernel), by decide +kernel⟩, ?_⟩
  rw [embedded 127 ⟨.start supplyCalls, []⟩ [supplyCall] ⟨24, []⟩ (by decide) (by decide) rfl
    (by decide +kernel), quiet]
  rfl

end Carbon

end ChainDecode
