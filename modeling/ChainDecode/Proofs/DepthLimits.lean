import ChainDecode.Proofs.Carbon.Containment
import ChainDecode.Proofs.Carbon.EmbeddedCalls
import ChainDecode.Proofs.Rom.RoundTrip

/-! # How deep results nest

Trees, dynamic structs and embedded calls each hand a number of levels down, and what is one step
further inside was read with fewer of them. So the levels at the start bound how far inside anything
can stand.
-/
namespace ChainDecode

variable {α : Type}

/-- The second stands so many steps inside the first. -/
inductive Inside (holds : α → α → Prop) : Nat → α → α → Prop where
  | here (a : α) : Inside holds 0 a a
  | step {k : Nat} {a b c : α} : holds a b → Inside holds k b c → Inside holds (k + 1) a c

/-- If something has no fewer levels than none and every step inside costs some of them, then there
are only as many steps as the levels pay for. -/
theorem Inside.lt_levels {holds : α → α → Prop} {fits : Nat → α → Prop} {cost : Nat}
    (none : ∀ a, ¬ fits 0 a)
    (down : ∀ {levels a b}, fits levels a → holds a b →
      ∃ fewer, fewer + cost ≤ levels ∧ fits fewer b)
    {k levels : Nat} {a b : α} (inside : Inside holds k a b) (h : fits levels a) :
    cost * k < levels := by
  induction inside generalizing levels with
  | here a => exact Nat.pos_of_ne_zero fun zero => none a (zero ▸ h)
  | step one _ ih =>
    obtain ⟨fewer, le, fit⟩ := down h one
    have rest := ih fit
    rw [Nat.mul_succ]
    omega

namespace Rom

namespace Node

/-- The other is the key or the value of an entry. -/
def Holds (outer inner : Node) : Prop :=
  ∃ entries, outer = .struct entries ∧ ∃ e ∈ entries, inner = e.1 ∨ inner = e.2

def ReadAt (label : Text) (levels : Nat) (node : Node) : Prop :=
  ∃ c d, read label levels c = .ok node d

theorem yields_holds {P : Node → Prop} {label : Text} {inner : Read Node} (h : Yields P inner)
    (offset type : Nat) :
    Yields (fun outer => ∀ node, outer.Holds node → P node)
      (readOfType label inner offset type) := by
  have leaf {outer : Node} (other : ∀ entries, outer ≠ .struct entries) :
      ∀ node, outer.Holds node → P node := by
    rintro node ⟨entries, same, -⟩
    exact absurd same (other entries)
  have entry : Yields (fun e : Node × Node => P e.1 ∧ P e.2) (readEntry inner) :=
    .bind h fun key first => .bind h fun value second => .pure ⟨first, second⟩
  unfold readOfType
  split
  any_goals exact .after fun _ => .pure (leaf nofun)
  · exact .pure (leaf nofun)
  · refine .after fun n => .after fun remaining => ?_
    split
    · intro c node d stop
      cases stop
    · refine .bind (.times entry n) fun entries each => .pure ?_
      rintro node ⟨_, same, e, member, rfl | rfl⟩
      · cases same
        exact (each e member).1
      · cases same
        exact (each e member).2
  · intro c node d stop
    cases stop

theorem not_readAt_zero {label : Text} (node : Node) : ¬ ReadAt label 0 node := by
  rintro ⟨c, d, read⟩
  cases read

theorem readAt_down {label : Text} {levels : Nat} {outer inner : Node}
    (h : ReadAt label levels outer) (inside : outer.Holds inner) :
    ∃ fewer, fewer + 1 ≤ levels ∧ ReadAt label fewer inner := by
  obtain ⟨c, d, result⟩ := h
  cases levels with
  | zero => cases result
  | succ levels =>
    have each : Yields (ReadAt label levels) (read label levels) :=
      fun c node d read => ⟨c, d, read⟩
    have all : Yields (fun outer => ∀ node, outer.Holds node → ReadAt label levels node)
        (read label (levels + 1)) := .after fun offset => .after fun type => yields_holds each _ _
    exact ⟨levels, Nat.le_refl _, all c outer d result inner inside⟩

end Node

theorem inside_nested (t : Tree) (n : Nat) : Inside Node.Holds n (nested t n).node t.node := by
  induction n with
  | zero => exact .here _
  | succ n ih => exact .step ⟨_, rfl, _, List.mem_singleton_self _, Or.inr rfl⟩ ih

end Rom

namespace Carbon

def structsIn (code : UInt8) (v : Value) : List Value :=
  if baseOf code = 11 then if isArrayType code then v.items else [v] else []

def fieldStructs : Value → List Value
  | .record [_, (_, .typeName code), (_, v)] => structsIn code v
  | _ => []

/-- The other is a struct in one of the fields. -/
def Value.HoldsStruct (outer inner : Value) : Prop :=
  ∃ fields, outer = .list fields ∧ ∃ field ∈ fields, inner ∈ fieldStructs field

def StructAt (levels : Nat) (v : Value) : Prop := ∃ c d, readStruct levels c = .ok v d

theorem typed_structs {P : Value → Prop} {struct : Read Value} (h : Yields P struct)
    (code : UInt8) :
    Yields (fun v => ∀ inner ∈ structsIn code v, P inner) (readTyped struct code) := by
  unfold structsIn readTyped
  by_cases base : baseOf code = 11
  · have element : readElement struct (baseOf code) = struct := by
      rw [base]
      rfl
    rw [element]
    cases isArrayType code with
    | true =>
      simp only [base, if_true]
      exact .after fun n => .bind (.times h n) fun items each => .pure each
    | false =>
      simp only [base, if_true, if_false, Bool.false_eq_true, List.mem_singleton, forall_eq]
      exact h
  · simp only [base, if_false]
    exact fun _ _ _ _ => List.forall_mem_nil _

theorem field_structs (levels : Nat) :
    Yields (fun field => ∀ inner ∈ fieldStructs field, ∃ fewer, fewer + 1 ≤ levels ∧
      StructAt fewer inner) (readNamed (readVariable levels)) := by
  refine .after fun name => ?_
  cases levels with
  | zero =>
    intro c v d stop
    cases stop
  | succ fewer =>
    have struct : Yields (fun inner => ∃ less, less + 1 ≤ fewer + 1 ∧ StructAt less inner)
        (readStruct fewer) := fun c v d read => ⟨fewer, Nat.le_refl _, c, d, read⟩
    have fields : Yields (fun fields =>
        ∀ inner ∈ fieldStructs (.record (("name", .text name) :: fields)),
          ∃ less, less + 1 ≤ fewer + 1 ∧ StructAt less inner) (readVariable (fewer + 1)) :=
      .after fun code => .bind (typed_structs struct _) fun v each => .pure each
    exact .bind fields fun fields each => .pure each

theorem not_structAt_zero (v : Value) : ¬ StructAt 0 v := by
  rintro ⟨c, d, read⟩
  cases read

/-- A struct inside was read with two levels less, one for the struct and one for its field. -/
theorem structAt_down {levels : Nat} {outer inner : Value} (h : StructAt levels outer)
    (inside : outer.HoldsStruct inner) : ∃ fewer, fewer + 2 ≤ levels ∧ StructAt fewer inner := by
  obtain ⟨c, d, result⟩ := h
  cases levels with
  | zero => cases result
  | succ levels =>
    have all : Yields (fun outer => ∀ inner, outer.HoldsStruct inner →
        ∃ fewer, fewer + 1 ≤ levels ∧ StructAt fewer inner) (readStruct (levels + 1)) := by
      refine .after fun n => .bind (.times (field_structs levels) n) fun items each => .pure ?_
      rintro inner ⟨_, same, field, member, inside⟩
      cases same
      exact each field member inner inside
    obtain ⟨fewer, le, found⟩ := all c outer d result inner inside
    exact ⟨fewer, Nat.succ_le_succ le, found⟩

def CallAt (levels : Nat) (v : Json) : Prop :=
  ∃ inner raw, levels = inner + 1 ∧ v = (decodeCallWith (readArg inner) raw).1.toValue.toJson

theorem not_callAt_zero (v : Json) : ¬ CallAt 0 v := by
  rintro ⟨_, _, levels, -⟩
  cases levels

theorem callAt_down {levels : Nat} {outer inner : Json} (h : CallAt levels outer)
    (inside : HoldsCall outer inner) : ∃ fewer, fewer + 1 ≤ levels ∧ CallAt fewer inner := by
  obtain ⟨levels, raw, rfl, rfl⟩ := h
  obtain ⟨fewer, raw', rfl, rfl⟩ := embedded_decoded inside
  exact ⟨fewer + 1, Nat.le_refl _, fewer, raw', rfl, rfl⟩

theorem decodedCall_nesting {k : Nat} {depth : Int} {raw : RawCall} {inner : Json}
    (inside : Inside HoldsCall k (decodeCall depth raw).1.toValue.toJson inner) :
    k ≤ levelsFrom depth := by
  have bound := inside.lt_levels not_callAt_zero callAt_down ⟨levelsFrom depth, raw, rfl, rfl⟩
  omega

/-- A call that shows more with more levels reports that there were too few. -/
theorem deeper_reports {k : Nat} {outer depth : Int} (le : outer ≤ depth) {raw : RawCall}
    {inner : Json} (inside : Inside HoldsCall k (decodeCall outer raw).1.toValue.toJson inner)
    (deep : levelsFrom depth < k) : ∃ w ∈ (decodeCall depth raw).2, ReportsDepth w := by
  by_contra none
  have quiet : WithinDepth (decodeCall depth raw).2 := fun w member reports =>
    none ⟨w, member, reports⟩
  rw [decodeCall_outer le raw quiet] at inside
  exact absurd (decodedCall_nesting inside) (Nat.not_le.mpr deep)

def nestedStruct : Nat → List UInt8
  | 0 => Wire.count 0
  | n + 1 => Wire.count 1 ++ ([0] ++ ([11] ++ nestedStruct n))

def nestedValue : Nat → Value
  | 0 => .list []
  | n + 1 => .list [.record [("name", .text ""), ("type", .typeName 11), ("value", nestedValue n)]]

theorem reads_nestedStruct (n : Nat) :
    Reads (readStruct (2 * n + 1)) (nestedStruct n) (nestedValue n) := by
  induction n with
  | zero =>
    have none : Reads.IsCount 0 := by decide
    have items : Reads (times (readNamed (readVariable 0)) 0) [] [] := .pure []
    exact Reads.count_bind none (Nat.le_refl _) (items.bind_pure Value.list)
  | succ n ih =>
    have one : Reads.IsCount 1 := by decide
    have code : Reads (Stream.word 1) [11] 11 := fun _ _ => rfl
    have field : Reads (readNamed (readVariable (2 * n + 2))) ([0] ++ ([11] ++ nestedStruct n))
        (.record [("name", .text ""), ("type", .typeName 11), ("value", nestedValue n)]) :=
      Reads.noText.bind ((code.bind (ih.bind_pure _)).bind_pure _)
    exact Reads.count_bind one (Nat.le_add_left _ _) (field.once.bind_pure Value.list)

theorem inside_nestedValue (n : Nat) :
    Inside Value.HoldsStruct n (nestedValue n) (nestedValue 0) := by
  induction n with
  | zero => exact .here _
  | succ n ih =>
    exact .step ⟨_, rfl, _, List.mem_singleton_self _, List.mem_singleton_self _⟩ ih

def resolutionArgs (call : List UInt8) : List UInt8 :=
  Number.toBytes 8 0 ++ (Wire.count 1 ++ call)

def resolution (call : List UInt8) : RawCall := ⟨0, 2, resolutionArgs call, none⟩

theorem decode_resolution (read : ArgType → ArgRead Value) {call : List UInt8} {s t : ArgState}
    {v calls : Value} (first : read (.plain .u64) ⟨.start (resolutionArgs call), []⟩ = .ok v s)
    (second : read .calls s = .ok calls t) :
    (decodeCallWith read (resolution call)).1.arguments =
        [⟨"id", "u64", v⟩, ⟨"calls", "txmsg_call_multi", calls⟩] ∧
      (decodeCallWith read (resolution call)).2 =
        t.warnings ++ trailingWarning t.cursor.remaining := by
  have decoded : decodeArgsFrom read "SpecialResolution"
      [Catalog.arg "id" (.plain .u64), Catalog.arg "calls" .calls]
      ⟨.start (resolutionArgs call), []⟩ =
        ([⟨"id", "u64", v⟩, ⟨"calls", "txmsg_call_multi", calls⟩],
          t.warnings ++ trailingWarning t.cursor.remaining) := by
    simp only [decodeArgsFrom, Catalog.arg, first, second]
    rfl
  exact ⟨(congrArg (·.1 ++ []) decoded).trans (List.append_nil _), congrArg (·.2) decoded⟩

theorem resolution_holds (levels : Nat) {wire : List UInt8} {raw : RawCall}
    (call : Reads RawCall.read wire raw) (some : 1 ≤ wire.length) :
    HoldsCall (decodeCallWith (readArg (levels + 1)) (resolution wire)).1.toValue.toJson
        (decodeCallWith (readArg levels) raw).1.toValue.toJson ∧
      (decodeCallWith (readArg (levels + 1)) (resolution wire)).2 =
        (decodeCallWith (readArg levels) raw).2 := by
  have one : Reads.IsCount 1 := by decide
  have id : Reads Layout.u64.read (Number.toBytes 8 0) (.wide 0) :=
    (Reads.word (by decide)).bind_pure fun n : Nat => Value.wide n
  have many : Reads RawCall.readMany (Wire.count 1 ++ wire) [raw] :=
    Reads.count_bind one some call.once
  have raws : RawCall.readMany ⟨8, Wire.count 1 ++ wire⟩ =
      .ok [raw] ⟨8 + (Wire.count 1 ++ wire).length, []⟩ := by
    have read := many 8 []
    rwa [List.append_nil] at read
  have first : readArg (levels + 1) (.plain .u64) ⟨.start (resolutionArgs wire), []⟩ =
      .ok (.wide 0) ⟨⟨8, Wire.count 1 ++ wire⟩, []⟩ := by
    rw [readArg]
    exact lift_ok (s := ⟨.start (resolutionArgs wire), []⟩) (id 0 (Wire.count 1 ++ wire))
  have second := readArg_embedded levels (s := ⟨⟨8, Wire.count 1 ++ wire⟩, []⟩) raws
  obtain ⟨arguments, warnings⟩ := decode_resolution _ first second
  constructor
  · rw [HoldsCall, embeddedCalls_eq, arguments, List.flatMap_cons, List.flatMap_singleton]
    refine List.mem_append_right _ ?_
    rw [callsIn_argument, if_pos rfl]
    exact List.mem_singleton_self _
  · rw [warnings, List.flatMap_singleton]
    exact List.append_nil _

def nestedMethod : Nat → UInt32
  | 0 => 7
  | _ + 1 => 2

def nestedArgs : Nat → List UInt8
  | 0 => []
  | n + 1 => resolutionArgs (Wire.u32 0 ++ Wire.u32 (nestedMethod n) ++
      (Wire.count (nestedArgs n).length ++ nestedArgs n))

def nestedCall (n : Nat) : RawCall := ⟨0, (nestedMethod n).toNat, nestedArgs n, none⟩

theorem length_nestedArgs (n : Nat) : (nestedArgs n).length = 24 * n := by
  induction n with
  | zero => rfl
  | succ n ih =>
    simp [nestedArgs, resolutionArgs, Wire.u32, Wire.count, ih]
    omega

theorem inside_nestedCall (levels : Nat) {n : Nat} (short : Reads.IsCount (24 * n)) :
    Inside HoldsCall n (decodeCallWith (readArg (levels + n)) (nestedCall n)).1.toValue.toJson
        (decodeCallWith (readArg levels) (nestedCall 0)).1.toValue.toJson ∧
      (decodeCallWith (readArg (levels + n)) (nestedCall n)).2 = [] := by
  induction n with
  | zero => exact ⟨.here _, rfl⟩
  | succ n ih =>
    have shorter : Reads.IsCount (24 * n) := by
      unfold Reads.IsCount at short ⊢
      omega
    have args : Reads.IsCount (nestedArgs n).length := by rwa [length_nestedArgs]
    obtain ⟨inside, quiet⟩ := ih shorter
    have call := Wire.reads_call ⟨0, nestedMethod n, .plain ⟨nestedArgs n, args⟩⟩
    obtain ⟨holds, same⟩ := resolution_holds (levels + n) call (Nat.le_add_left _ _)
    exact ⟨.step holds inside, same.trans quiet⟩

theorem decodeCall_nested (depth : Int) (n : Nat) (levels : levelsFrom depth = n)
    (short : Reads.IsCount (24 * n)) :
    Inside HoldsCall n (decodeCall depth (nestedCall n)).1.toValue.toJson
        (decodeCallWith (readArg 0) (nestedCall 0)).1.toValue.toJson ∧
      (decodeCall depth (nestedCall n)).2 = [] := by
  rw [decodeCall, levels, ← Nat.zero_add n]
  simpa only [Nat.zero_add] using inside_nestedCall 0 short

end Carbon

/-- What is decoded from the top nests to a limit, whatever the bytes. No node of a tree stands more
than 128 levels below the root; there are at most 65 structs inside one another; and at most 130
calls are embedded in one another. A call that would show more if it were decoded with more levels
warns of the limit, and nothing escapes from it. -/
theorem nesting_is_bounded :
    (∀ label c root d, Rom.Node.read label (Rom.Node.levelsFrom 0) c = .ok root d →
      ∀ k node, Inside Rom.Node.Holds k root node → k ≤ 128) ∧
    (∀ c v d, Carbon.readStruct (Carbon.levelsFrom 0) c = .ok v d →
      ∀ k inner, Inside Carbon.Value.HoldsStruct k v inner → k + 1 ≤ 65) ∧
    (∀ raw, Carbon.Strict.decodeCall 0 raw = .ok (Carbon.decodeCall 0 raw) ∧
      (∀ k inner, Inside Carbon.HoldsCall k (Carbon.decodeCall 0 raw).1.toValue.toJson inner →
        k + 1 ≤ 130) ∧
      ∀ depth ≤ 0, ∀ k inner,
        Inside Carbon.HoldsCall k (Carbon.decodeCall depth raw).1.toValue.toJson inner →
          130 < k + 1 → ∃ w ∈ (Carbon.decodeCall 0 raw).2, Carbon.ReportsDepth w) := by
  have levels : Carbon.levelsFrom 0 = 129 := rfl
  refine ⟨fun label c root d read k node inside => ?_, fun c v d read k inner inside => ?_,
    fun raw => ⟨Carbon.Strict.decodeCall_eq 0 raw, fun k inner inside => ?_,
      fun depth le k inner inside deep => ?_⟩⟩
  · have bound := inside.lt_levels Rom.Node.not_readAt_zero Rom.Node.readAt_down ⟨c, d, read⟩
    have levels : Rom.Node.levelsFrom 0 = 129 := rfl
    omega
  · have bound := inside.lt_levels Carbon.not_structAt_zero Carbon.structAt_down ⟨c, d, read⟩
    omega
  · have bound := Carbon.decodedCall_nesting inside
    omega
  · exact Carbon.deeper_reports le inside (by omega)

/-- A tree of 128 levels, 65 structs and 130 calls are read, the calls without a warning, and of 131
calls the warning tells. -/
theorem nesting_reaches_its_limits :
    (∃ c root node d, Rom.Node.read "ROM" (Rom.Node.levelsFrom 0) c = .ok root d ∧
      Inside Rom.Node.Holds 128 root node ∧ 128 ≤ 128) ∧
    (∃ c v inner d, Carbon.readStruct (Carbon.levelsFrom 0) c = .ok v d ∧
      Inside Carbon.Value.HoldsStruct 64 v inner ∧ 64 + 1 ≤ 65) ∧
    (∃ raw inner, Inside Carbon.HoldsCall 129 (Carbon.decodeCall 0 raw).1.toValue.toJson inner ∧
      129 + 1 ≤ 130 ∧ (Carbon.decodeCall 0 raw).2 = []) ∧
    ∃ raw inner, Inside Carbon.HoldsCall 130 (Carbon.decodeCall (-1) raw).1.toValue.toJson inner ∧
      (Carbon.decodeCall (-1) raw).2 = [] ∧
      ∃ w ∈ (Carbon.decodeCall 0 raw).2, Carbon.ReportsDepth w := by
  obtain ⟨trees, structs, calls⟩ := nesting_is_bounded
  have shallow : (Rom.nested .none 128).height < Rom.Node.levelsFrom 0 := by decide +kernel
  have tree := (Rom.nested .none 128).reads "ROM" shallow 0 []
  have struct := Carbon.reads_nestedStruct 64 0 []
  obtain ⟨within, quiet⟩ := Carbon.decodeCall_nested 0 129 rfl (by decide)
  obtain ⟨beyond, none⟩ := Carbon.decodeCall_nested (-1) 130 rfl (by decide)
  have reported := (calls (Carbon.nestedCall 130)).2.2 (-1) (by decide) 130 _ beyond (by decide)
  exact ⟨⟨_, _, _, _, tree, Rom.inside_nested .none 128,
      trees _ _ _ _ tree 128 _ (Rom.inside_nested .none 128)⟩,
    ⟨_, _, _, _, struct, Carbon.inside_nestedValue 64,
      structs _ _ _ struct 64 _ (Carbon.inside_nestedValue 64)⟩,
    ⟨Carbon.nestedCall 129, _, within, (calls _).2.1 129 _ within, quiet⟩,
    ⟨Carbon.nestedCall 130, _, beyond, none, reported⟩⟩

end ChainDecode
