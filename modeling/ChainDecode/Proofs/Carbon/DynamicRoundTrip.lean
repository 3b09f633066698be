import ChainDecode.Proofs.Carbon.ArgumentParts
import ChainDecode.Proofs.Delimiting

/-! # Reading dynamic values back

A struct or a variable takes one level more than the structs that stand inside it. With that many
levels left it is read from its bytes and shown in its form, and with fewer it is refused for its
depth, because everything in front of the level that is missing is read in full.
-/
namespace ChainDecode.Carbon.Wire

section Deepest

variable {α β : Type} {levels : α → Nat} {items : List α} {n : Nat}

def deepest (levels : α → Nat) (items : List α) : Nat := (items.map levels).foldr max 0

theorem deepest_le : deepest levels items ≤ n ↔ ∀ x ∈ items, levels x ≤ n := by
  induction items with
  | nil => simp [deepest]
  | cons x items ih =>
    rw [List.forall_mem_cons, ← ih]
    exact Nat.max_le

theorem lt_deepest : n < deepest levels items ↔ ∃ x ∈ items, n < levels x := by
  rw [← Nat.not_le, deepest_le]
  simp only [Classical.not_forall, Nat.not_le, exists_prop]

theorem le_deepest (levels : α → Nat) {x : α} (member : x ∈ items) :
    levels x ≤ deepest levels items :=
  deepest_le.mp (Nat.le_refl _) x member

theorem deepest_flatMap (held : β → List α) (holders : List β) :
    deepest levels (holders.flatMap held) =
      deepest (fun h => deepest levels (held h)) holders := by
  apply Nat.le_antisymm
  · rw [deepest_le]
    intro x member
    obtain ⟨h, holder, inside⟩ := List.mem_flatMap.mp member
    calc
      levels x ≤ deepest levels (held h) := le_deepest levels inside
      _ ≤ deepest (fun h => deepest levels (held h)) holders :=
        le_deepest (fun h => deepest levels (held h)) holder
  · rw [deepest_le]
    intro h holder
    rw [deepest_le]
    intro x inside
    exact le_deepest levels (List.mem_flatMap.mpr ⟨h, holder, inside⟩)

end Deepest

section Structs

variable {struct : Format}

def structsOf : (base : Base) → (baseFormat struct base).Data → List struct.Data
  | .struct, x => [x]
  | _, _ => []

def Typed.structs : Typed struct → List struct.Data
  | one base x => structsOf base x
  | many base items _ => items.items.flatMap (structsOf base)

end Structs

mutual

/-- The levels that a struct takes: its own, and those of its fields below. -/
def structLevels : (n : Nat) → (structFormat n).Data → Nat
  | 0, x => x.elim
  | n + 1, fields => deepest (fieldLevels n) fields.items + 1

def fieldLevels : (n : Nat) → (fieldFormat n).Data → Nat
  | 0, x => x.elim
  | n + 1, field => deepest (structLevels n) field.2.structs + 1

end

def variableLevels : (n : Nat) → (variableFormat n).Data → Nat
  | 0, x => x.elim
  | n + 1, v => deepest (structLevels n) v.structs + 1

mutual

theorem structLevels_le : (n : Nat) → (x : (structFormat n).Data) → structLevels n x ≤ n
  | 0, x => x.elim
  | n + 1, _ => Nat.succ_le_succ (deepest_le.mpr fun field _ => fieldLevels_le n field)

theorem fieldLevels_le : (n : Nat) → (x : (fieldFormat n).Data) → fieldLevels n x ≤ n
  | 0, x => x.elim
  | n + 1, _ => Nat.succ_le_succ (deepest_le.mpr fun x _ => structLevels_le n x)

end

theorem variableLevels_le : (n : Nat) → (x : (variableFormat n).Data) → variableLevels n x ≤ n
  | 0, x => x.elim
  | n + 1, _ => Nat.succ_le_succ (deepest_le.mpr fun x _ => structLevels_le n x)

/-- A reader, given the levels that are left, takes exactly these bytes to something right when the
levels are enough. When they are not it refuses the bytes for their depth, whatever follows. -/
structure TakesLevels {α : Type} (read : Nat → Read α) (needed : Nat) (bytes : List UInt8)
    (right : α → Prop) : Prop where
  reads : ∀ levels, needed ≤ levels → ∃ a, Reads (read levels) bytes a ∧ right a
  refuses : ∀ levels < needed, ∀ rest, Cuts (· = .valueDepth) (read levels) (bytes ++ rest)

def Part.TakesLevels (part : Part) (read : Nat → Read Value) (needed : Nat) : Prop :=
  Wire.TakesLevels read needed part.wire fun v => v.toJson = part.shown

namespace TakesLevels

variable {α β : Type} {read : Nat → Read α} {needed : Nat} {front bytes : List UInt8}
  {right : α → Prop}

theorem of_shows {read : Nat → Read Value} {j : Json} (h : ∀ levels, Shows (read levels) bytes j) :
    TakesLevels read 0 bytes fun v => v.toJson = j where
  reads levels _ := h levels
  refuses levels few := absurd few (Nat.not_lt_zero levels)

theorem after {first : Read β} {b : β} {read : β → Nat → Read α} (h : Reads first front b)
    (k : TakesLevels (read b) needed bytes right) :
    TakesLevels (fun levels => first >>= fun b => read b levels) needed (front ++ bytes) right where
  reads levels enough := by
    obtain ⟨a, reads, fine⟩ := k.reads levels enough
    exact ⟨a, h.bind reads, fine⟩
  refuses levels few rest := by
    rw [List.append_assoc]
    exact Cuts.after h (k.refuses levels few rest)

theorem bind_pure {right : β → Prop} (f : α → β)
    (h : TakesLevels read needed bytes fun a => right (f a)) :
    TakesLevels (fun levels => read levels >>= fun a => pure (f a)) needed bytes right where
  reads levels enough := by
    obtain ⟨a, reads, fine⟩ := h.reads levels enough
    exact ⟨f a, reads.bind_pure f, fine⟩
  refuses levels few rest := (h.refuses levels few rest).bind

theorem mono {fine : α → Prop} (h : TakesLevels read needed bytes right)
    (k : ∀ a, right a → fine a) : TakesLevels read needed bytes fine where
  reads levels enough := by
    obtain ⟨a, reads, same⟩ := h.reads levels enough
    exact ⟨a, reads, k a same⟩
  refuses := h.refuses

theorem succ (none : read 0 = throw .valueDepth)
    (h : TakesLevels (fun levels => read (levels + 1)) needed bytes right) :
    TakesLevels read (needed + 1) bytes right where
  reads
    | 0, enough => absurd enough (Nat.not_succ_le_zero needed)
    | levels + 1, enough => h.reads levels (Nat.le_of_succ_le_succ enough)
  refuses
    | 0, _, _ => fun _ => ⟨.valueDepth, _, by rw [none]; rfl, rfl⟩
    | levels + 1, few, rest => h.refuses levels (Nat.lt_of_succ_lt_succ few) rest

theorem items {ι : Type} {read : Nat → Read Value} {levels : ι → Nat} {part : ι → Part}
    (c : Counted ι) (h : ∀ x ∈ c.items, (part x).TakesLevels read (levels x))
    (nonempty : ∀ x ∈ c.items, (part x).wire ≠ []) :
    (Part.items part c).TakesLevels
      (fun left => do let n ← Stream.count; return .list (← times (read left) n))
      (deepest levels c.items) where
  reads left enough :=
    shows_items c (fun x member => (h x member).reads left (deepest_le.mp enough x member)) nonempty
  refuses left few rest := by
    obtain ⟨deep, member, few⟩ := lt_deepest.mp few
    -- Items in front of the first that is too deep are read in full, so it is its depth that stops
    -- the reader.
    have each : ∀ x ∈ c.items, (∃ v, Reads (read left) (part x).wire v) ∨
        ∀ rest, Cuts (· = .valueDepth) (read left) ((part x).wire ++ rest) := by
      intro x member
      by_cases enough : levels x ≤ left
      · obtain ⟨v, reads, _⟩ := (h x member).reads left enough
        exact Or.inl ⟨v, reads⟩
      · exact Or.inr ((h x member).refuses left (Nat.lt_of_not_le enough))
    have cut := Cuts.times each ⟨deep, member, (h deep member).refuses left few⟩ rest
    have room : c.items.length ≤ (c.items.flatMap fun x => (part x).wire).length :=
      Reads.length_le_flatMap nonempty
    rw [Part.items, Counted.wire, List.append_assoc]
    refine .count_bind c.short ?_ cut.bind
    rw [List.length_append]
    omega

end TakesLevels

theorem shows_long (s : LongText) : Shows
    (do return .text (Text.Utf8.decode (← Stream.byteArray))) s.part.wire s.part.shown := by
  have value := Text.Utf8.decode_encode s.text
  have bytes := Reads.byteArray s.short
  refine ⟨.text s.text, ?_, rfl⟩
  conv => rhs; rw [← value]
  exact bytes.bind_pure fun bytes => Value.text (Text.Utf8.decode bytes)

section Typed

variable {struct : Format} {read : Nat → Read Value} {levels : struct.Data → Nat}

theorem takes_element (base : Base) (x : (baseFormat struct base).Data)
    (h : ∀ s ∈ structsOf base x, (struct.part s).TakesLevels read (levels s)) :
    ((baseFormat struct base).part x).TakesLevels (fun left => readElement (read left) base.code)
      (deepest levels (structsOf base x)) := by
  cases base with
  | dynamic => exact .of_shows fun _ => ⟨.absent, Reads.pure _, rfl⟩
  | int8 | int16 | int32 =>
    exact .of_shows fun _ => ⟨.number x.toInt, (signed_bits x.toBitVec rfl rfl).bind_pure _, rfl⟩
  | int64 => exact .of_shows fun _ => ⟨.wide x.toInt, (signed_i64 x).bind_pure _, rfl⟩
  | int256 => exact .of_shows fun _ => ⟨.wide x.toInt, (signed_bits x rfl rfl).bind_pure _, rfl⟩
  | bytes => exact .of_shows fun _ => ⟨.bytes x.bytes, (Reads.byteArray x.short).bind_pure _, rfl⟩
  | string => exact .of_shows fun _ => shows_long x
  | bytes16 | bytes32 | bytes64 =>
    exact .of_shows fun _ => ⟨.bytes x.bytes, (Reads.take x.length).bind_pure _, rfl⟩
  | struct =>
    have own : deepest levels (structsOf .struct x) = levels x := Nat.max_zero _
    rw [own]
    exact h x List.mem_cons_self

/-- Only the type without a value is written in no bytes. -/
theorem base_ne_nil (h : ∀ x, (struct.part x).wire ≠ []) {base : Base} (sized : base ≠ .dynamic)
    (x : (baseFormat struct base).Data) : ((baseFormat struct base).part x).wire ≠ [] := by
  cases base with
  | dynamic => exact absurd rfl sized
  | int8 | int16 | int32 | int64 | int256 | bytes | string => exact List.cons_ne_nil _ _
  | bytes16 | bytes32 | bytes64 => exact fixed_ne_nil x
  | struct => exact h x

theorem takes_typed (nonempty : ∀ x, (struct.part x).wire ≠ []) (v : Typed struct)
    (h : ∀ s ∈ v.structs, (struct.part s).TakesLevels read (levels s)) :
    v.value.TakesLevels (fun left => readTyped (read left) (UInt8.ofNat v.type.code))
      (deepest levels v.structs) := by
  cases v with
  | one base x =>
    have small : base.code < 128 := Nat.lt_trans (base_small base) (by decide)
    change Part.TakesLevels _ (fun left => readTyped _ (UInt8.ofNat (marked base.code false))) _
    simp only [readTyped, isArrayType_marked small, baseOf_marked small]
    exact takes_element base x h
  | many base items bare =>
    have small : base.code < 128 := Nat.lt_trans (base_small base) (by decide)
    have sized : ∀ x ∈ items.items, ((baseFormat struct base).part x).wire ≠ [] := by
      intro x member
      -- Items without bytes would be of the one base type whose lists are empty.
      refine base_ne_nil nonempty (fun dynamic => ?_) x
      rw [bare dynamic] at member
      cases member
    change Part.TakesLevels _ (fun left => readTyped _ (UInt8.ofNat (marked base.code true))) _
    simp only [readTyped, isArrayType_marked small, baseOf_marked small]
    rw [Typed.structs, deepest_flatMap]
    refine .items items (fun x member => takes_element base x fun s inside => ?_) sized
    exact h s (List.mem_flatMap.mpr ⟨x, member, inside⟩)

theorem takes_fields (nonempty : ∀ x, (struct.part x).wire ≠ []) (v : Typed struct)
    (h : ∀ s ∈ v.structs, (struct.part s).TakesLevels read (levels s)) :
    TakesLevels (fun left => readVariableFields (read left)) (deepest levels v.structs)
      v.part.wire fun vs => Value.fieldsJson vs =
        ([("type", v.type.part.shown), ("value", v.value.shown)] : List (Text × Json)) := by
  have bytes : v.part.wire = v.type.part.wire ++ v.value.wire := by
    simp [Typed.part, Part.record]
  rw [bytes]
  refine .after (reads_type v.type) (.bind_pure _ ((takes_typed nonempty v h).mono ?_))
  intro value shown
  simp only [Value.fieldsJson, Value.toJson, typeName_code, shown]
  rfl

end Typed

theorem struct_ne_nil : (n : Nat) → (x : (structFormat n).Data) →
    ((structFormat n).part x).wire ≠ []
  | 0, x => x.elim
  | _ + 1, _ => List.cons_ne_nil _ _

theorem field_ne_nil : (n : Nat) → (x : (fieldFormat n).Data) →
    ((fieldFormat n).part x).wire ≠ []
  | 0, x => x.elim
  | _ + 1, _ => List.cons_ne_nil _ _

theorem takes_variable {n : Nat} (v : Typed (structFormat n))
    (h : ∀ s ∈ v.structs,
      ((structFormat n).part s).TakesLevels readStruct (structLevels n s)) :
    TakesLevels readVariable (deepest (structLevels n) v.structs + 1) v.part.wire fun vs =>
      Value.fieldsJson vs =
        ([("type", v.type.part.shown), ("value", v.value.shown)] : List (Text × Json)) :=
  .succ rfl (takes_fields (struct_ne_nil n) v h)

mutual

theorem takes_struct : (n : Nat) → (x : (structFormat n).Data) →
    ((structFormat n).part x).TakesLevels readStruct (structLevels n x)
  | 0, x => x.elim
  | n + 1, fields =>
    .succ rfl (.items fields (fun field _ => takes_field n field) fun field _ =>
      field_ne_nil n field)

theorem takes_field : (n : Nat) → (x : (fieldFormat n).Data) →
    ((fieldFormat n).part x).TakesLevels (fun left => readNamed (readVariable left))
      (fieldLevels n x)
  | 0, x => x.elim
  | n + 1, (name, v) => by
    have fields := takes_variable v fun s _ => takes_struct n s
    simp only [readNamed]
    refine .after (Reads.smallText name.short) (.bind_pure _ (fields.mono ?_))
    intro vs shown
    rw [Value.toJson, Value.fieldsJson, shown]
    rfl

end

theorem takes_record : (n : Nat) → (x : (variableFormat n).Data) →
    ((variableFormat n).part x).TakesLevels readVariableRecord (variableLevels n x)
  | 0, x => x.elim
  | n + 1, v => by
    have fields := takes_variable v fun s _ => takes_struct n s
    refine .bind_pure Value.record (fields.mono ?_)
    intro vs shown
    rw [Value.toJson, shown]
    rfl

theorem read_struct (levels : Nat) : (structFormat levels).ReadBy (readStruct levels) :=
  fun x => (takes_struct levels x).reads levels (structLevels_le levels x)

theorem read_variable (levels : Nat) :
    (variableFormat levels).ReadBy (readVariableRecord levels) :=
  fun x => (takes_record levels x).reads levels (variableLevels_le levels x)

/-- From a depth on, a part that takes so many levels is read from exactly its bytes and shown in
its form, whatever follows. If its levels do not fit, it is refused as malformed. -/
structure ReadBackFrom (depth : Int) (read : Nat → Read Value) (levels : Nat) (part : Part) :
    Prop where
  fits : depth + levels ≤ maxDepth + 1 → ∀ p tail,
    (Value.toJson <$> read (levelsFrom depth)) ⟨p, part.wire ++ tail⟩ =
      .ok part.shown ⟨p + part.wire.length, tail⟩
  exceeds : maxDepth + 1 < depth + levels → ∀ p tail,
    ∃ f c, (Value.toJson <$> read (levelsFrom depth)) ⟨p, part.wire ++ tail⟩ = .error f c ∧
      f.kind = .format

theorem Part.TakesLevels.from_depth {part : Part} {read : Nat → Read Value} {levels : Nat}
    (h : part.TakesLevels read (levels + 1)) (depth : Int) :
    ReadBackFrom depth read (levels + 1) part where
  fits fit p tail := by
    obtain ⟨v, reads, shown⟩ := h.reads (levelsFrom depth) (by unfold levelsFrom; omega)
    rw [← shown]
    exact reads.map Value.toJson p tail
  exceeds exceed p tail := by
    have refused := h.refuses (levelsFrom depth) (by unfold levelsFrom; omega) tail
    rw [map_eq_pure_bind]
    obtain ⟨f, c, stop, rfl⟩ := refused.bind (f := fun v => pure v.toJson) p
    exact ⟨_, c, stop, rfl⟩

/-- Structs and variables of any types and any nesting are read from exactly their encoding when
their levels fit from a depth on, and shown with the names of their types. Others are refused. -/
theorem dynamic_values_are_read_back (depth : Int) (n : Nat) :
    (∀ x : (structFormat n).Data,
      ReadBackFrom depth readStruct (structLevels n x) ((structFormat n).part x)) ∧
    ∀ x : (variableFormat n).Data,
      ReadBackFrom depth readVariableRecord (variableLevels n x) ((variableFormat n).part x) := by
  cases n with
  | zero => exact ⟨fun x => x.elim, fun x => x.elim⟩
  | succ n =>
    exact ⟨fun x => (takes_struct (n + 1) x).from_depth depth,
      fun x => (takes_record (n + 1) x).from_depth depth⟩

/-- A struct with one field, which lists one struct without fields. It takes three levels. -/
def listing : (structFormat 3).Data :=
  let empty : (structFormat 1).Data := (⟨[], by decide⟩ : Counted Empty)
  let field : (fieldFormat 2).Data :=
    (⟨"a", by decide +kernel⟩, .many .struct ⟨[empty], by decide⟩ nofun)
  (⟨[field], by decide⟩ : Counted (fieldFormat 2).Data)

/-- The last depth from which it is read, and the first from which it is not. -/
theorem listing_read_back :
    ((126 : Int) + structLevels 3 listing ≤ maxDepth + 1 ∧
      (Value.toJson <$> readStruct (levelsFrom 126))
          ⟨0, [1, 0, 0, 0, 1, 97, 139, 1, 0, 0, 0, 0, 0, 0, 0] ++ [7]⟩ =
        .ok (.arr [.obj [("name", .str "a"), ("type", .str "Struct[]"), ("value", .arr [.arr []])]])
          ⟨15, [7]⟩) ∧
    (maxDepth : Int) + 1 < 127 + structLevels 3 listing ∧
      ∃ f c, (Value.toJson <$> readStruct (levelsFrom 127))
          ⟨0, [1, 0, 0, 0, 1, 97, 139, 1, 0, 0, 0, 0, 0, 0, 0] ++ [7]⟩ = .error f c ∧
        f.kind = .format := by
  have levels : structLevels 3 listing = 3 := rfl
  have wire : ((structFormat 3).part listing).wire =
      [1, 0, 0, 0, 1, 97, 139, 1, 0, 0, 0, 0, 0, 0, 0] := by decide +kernel
  have fits := ((dynamic_values_are_read_back 126 3).1 listing).fits (by rw [levels]; decide) 0 [7]
  have exceeds :=
    ((dynamic_values_are_read_back 127 3).1 listing).exceeds (by rw [levels]; decide) 0 [7]
  rw [wire] at fits exceeds
  exact ⟨⟨by rw [levels]; decide, fits⟩, by rw [levels]; decide, exceeds⟩

end ChainDecode.Carbon.Wire
