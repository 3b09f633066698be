import ChainDecode.Carbon.Dynamic
import ChainDecode.Proofs.Stopping

/-! # Base types of dynamic values

An unknown base type is noticed where an element of it would be read. Variables with a single value
and arrays with elements come to that place, at whatever depth they stand. Arrays without elements
do not, so their type byte alone is not looked at.
-/
namespace ChainDecode.Carbon

def typedFront : List (String × Value) → List (UInt8 × Value)
  | (_, .typeName code) :: (_, v) :: _ => [(code, v)]
  | _ => []

mutual

/-- The type bytes in a value at any depth, each with the value behind it. -/
def Value.typed : Value → List (UInt8 × Value)
  | .list items => Value.typedItems items
  | .record fields => Value.typedFields fields
  | _ => []

def Value.typedItems : List Value → List (UInt8 × Value)
  | [] => []
  | v :: rest => v.typed ++ Value.typedItems rest

def Value.typedFields : List (String × Value) → List (UInt8 × Value)
  | [] => []
  | (name, v) :: rest => typedFront ((name, v) :: rest) ++ (v.typed ++ Value.typedFields rest)

end

def TypeAllowed (code : UInt8) (v : Value) : Prop :=
  baseOf code < 12 ∨ isArrayType code = true ∧ v = .list []

def TypesAllowed (v : Value) : Prop := ∀ e ∈ v.typed, TypeAllowed e.1 e.2

theorem allowed_of_untyped {v : Value} (h : v.typed = []) : TypesAllowed v := by
  intro e member
  rw [h] at member
  cases member

theorem allowed_items {items : List Value} (h : ∀ v ∈ items, TypesAllowed v) :
    TypesAllowed (.list items) := by
  unfold TypesAllowed
  rw [Value.typed]
  induction items with
  | nil => exact List.forall_mem_nil _
  | cons v rest ih =>
    rw [Value.typedItems]
    exact List.forall_mem_append.mpr ⟨h v List.mem_cons_self,
      ih fun w member => h w (List.mem_cons_of_mem v member)⟩

theorem allowed_variable {code : UInt8} {v : Value} (own : TypeAllowed code v)
    (inner : TypesAllowed v) :
    TypesAllowed (.record [("type", .typeName code), ("value", v)]) := by
  have bytes : (Value.record [("type", .typeName code), ("value", v)]).typed =
      (code, v) :: v.typed := by
    simp [Value.typed, Value.typedFields, typedFront]
  unfold TypesAllowed
  rw [bytes]
  exact List.forall_mem_cons.mpr ⟨own, inner⟩

theorem allowed_named {name : String} {fields : List (String × Value)}
    (h : TypesAllowed (.record fields)) :
    TypesAllowed (.record (("name", .text name) :: fields)) := h

theorem none_thrown {α : Type} {kind : α → Prop} (f : Fault) :
    Yields kind (throw f : Read α) := by
  intro c a d read
  cases read

section Struct

variable {struct : Read Value}

theorem element_unknown {base : Nat} (unknown : 12 ≤ base) :
    readElement struct base = throw (.valueType base) := by
  unfold readElement
  split
  any_goals omega
  rfl

theorem typed_unknown {code : UInt8} (unknown : 12 ≤ baseOf code) :
    readTyped struct code =
      if isArrayType code then do
        let n ← Stream.count
        if n = 0 then pure (.list []) else throw (.valueType (baseOf code))
      else throw (.valueType (baseOf code)) := by
  unfold readTyped
  rw [element_unknown unknown]
  congr 2
  funext n
  cases n with
  | zero => rfl
  | succ n => rfl

theorem typed_allowed (code : UInt8) : Yields (TypeAllowed code) (readTyped struct code) := by
  by_cases known : baseOf code < 12
  · exact fun _ _ _ _ => Or.inl known
  · rw [typed_unknown (Nat.le_of_not_lt known)]
    intro c v d read
    cases array : isArrayType code with
    | true =>
      rw [array] at read
      obtain ⟨n, e, -, read⟩ := of_bind_ok read
      split at read
      · cases read
        exact Or.inr ⟨array, rfl⟩
      · cases read
    | false =>
      rw [array] at read
      cases read

theorem element_types (h : Yields TypesAllowed struct) (base : Nat) :
    Yields TypesAllowed (readElement struct base) := by
  have leaf {v : Value} (untyped : v.typed = []) : TypesAllowed v := allowed_of_untyped untyped
  unfold readElement
  split
  any_goals exact .after fun _ => .pure (leaf (by rw [Value.typed] <;> nofun))
  · exact .pure (leaf rfl)
  · exact h
  · exact none_thrown _

theorem typed_types (h : Yields TypesAllowed struct) (code : UInt8) :
    Yields TypesAllowed (readTyped struct code) := by
  have element := element_types h (baseOf code)
  unfold readTyped
  split
  · exact .after fun n => .bind (.times element n) fun items each => .pure (allowed_items each)
  · exact element

end Struct

/-- Struct and variables hand the levels down together, so both are told at once. -/
theorem dynamic_types (levels : Nat) :
    Yields TypesAllowed (readStruct levels) ∧
      Yields (fun fields => TypesAllowed (.record fields)) (readVariable levels) := by
  induction levels with
  | zero => exact ⟨none_thrown _, none_thrown _⟩
  | succ levels ih =>
    obtain ⟨struct, fields⟩ := ih
    constructor
    · have named : Yields TypesAllowed (readNamed (readVariable levels)) :=
        .after fun name => .bind fields fun fields each => .pure (allowed_named each)
      unfold readStruct
      exact .after fun n => .bind (.times named n) fun items each => .pure (allowed_items each)
    · unfold readVariable readVariableFields
      refine .after fun code => ?_
      intro c fields d read
      obtain ⟨v, e, value, read⟩ := of_bind_ok read
      cases read
      exact allowed_variable (typed_allowed _ c v d value) (typed_types struct _ c v d value)

def variableOf (code : UInt8) (v : Value) : Value :=
  .record [("type", .typeName code), ("value", v)]

theorem variable_cons (levels p : Nat) (code : UInt8) (rest : List UInt8) :
    readVariableRecord (levels + 1) ⟨p, code :: rest⟩ =
      (variableOf code <$> readTyped (readStruct levels) code) ⟨p + 1, rest⟩ := by
  have byte : Stream.word 1 ⟨p, code :: rest⟩ = .ok code.toNat ⟨p + 1, rest⟩ := by
    have one : Reads (Stream.take 1) [code] [code] := .take rfl
    exact one.map Number.ofBytes p rest
  rw [readVariableRecord, readVariable, readVariableFields, map_eq_pure_bind, map_eq_pure_bind,
    bind_assoc, bind_ok byte, UInt8.ofNat_toNat, bind_assoc]
  rfl

theorem of_variable_ok {levels : Nat} {c d : Cursor} {v : Value}
    (read : readVariableRecord levels c = .ok v d) :
    ∃ code rest w fewer, c.rest = code :: rest ∧ v = variableOf code w ∧
      readTyped (readStruct fewer) code ⟨c.position + 1, rest⟩ = .ok w d := by
  obtain ⟨p, bytes⟩ := c
  cases levels with
  | zero => cases read
  | succ levels =>
    cases bytes with
    | nil => cases read
    | cons code rest =>
      rw [variable_cons, map_eq_pure_bind] at read
      obtain ⟨w, e, typed, read⟩ := of_bind_ok read
      cases read
      exact ⟨code, rest, w, levels, rfl, rfl, typed⟩

section Unknown

variable {code : UInt8} {rest : List UInt8} {p : Nat} {d : Cursor} {v : Value} {f : Fault}

/-- An unknown type byte is accepted in front of a count of zero, and nowhere else. -/
theorem unknown_ok_iff (unknown : 12 ≤ baseOf code) (depth : Int) :
    readVariableRecord (levelsFrom depth) ⟨p, code :: rest⟩ = .ok v d ↔
      depth ≤ maxDepth ∧ isArrayType code = true ∧ Stream.count ⟨p + 1, rest⟩ = .ok 0 d ∧
        v = variableOf code (.list []) := by
  cases levels : levelsFrom depth with
  | zero =>
    have deep : ¬ depth ≤ maxDepth := by
      unfold levelsFrom at levels
      omega
    exact ⟨(nomatch ·), fun accepted => absurd accepted.1 deep⟩
  | succ fewer =>
    have shallow : depth ≤ maxDepth := by
      unfold levelsFrom at levels
      omega
    rw [variable_cons, map_eq_pure_bind, typed_unknown unknown]
    constructor
    · intro read
      obtain ⟨w, e, typed, done⟩ := of_bind_ok read
      cases done
      cases array : isArrayType code with
      | true =>
        rw [array] at typed
        obtain ⟨n, e, count, typed⟩ := of_bind_ok typed
        split at typed
        · rename_i zero
          subst zero
          cases typed
          exact ⟨shallow, rfl, count, rfl⟩
        · cases typed
      | false =>
        rw [array] at typed
        cases typed
    · rintro ⟨-, array, count, rfl⟩
      rw [if_pos array, bind_assoc, bind_ok count]
      rfl

theorem unknown_error (unknown : 12 ≤ baseOf code) {levels : Nat}
    (stop : readVariableRecord levels ⟨p, code :: rest⟩ = .error f d) :
    f.kind = .format ∨ isArrayType code = true ∧ Stream.count ⟨p + 1, rest⟩ = .error f d := by
  cases levels with
  | zero =>
    cases stop
    exact Or.inl rfl
  | succ levels =>
    rw [variable_cons, map_eq_pure_bind, typed_unknown unknown] at stop
    rcases of_bind_error stop with typed | ⟨w, e, -, done⟩
    · cases array : isArrayType code with
      | true =>
        rw [array] at typed
        rcases of_bind_error typed with count | ⟨n, e, -, element⟩
        · exact Or.inr ⟨rfl, count⟩
        · split at element
          · cases element
          · cases element
            exact Or.inl rfl
      | false =>
        rw [array] at typed
        cases typed
        exact Or.inl rfl
    · cases done

end Unknown

/-- The type bytes of the variables that are read, the nested ones too, are of the twelve base types
but for those of arrays without elements. A variable of another base type is accepted if it is such
an array, and else it is refused as malformed or by its count. -/
theorem base_types_are_known_but_for_empty_arrays (depth : Int) :
    (∀ c v d, readVariableRecord (levelsFrom depth) c = .ok v d →
      ∃ code w, c.rest.head? = some code ∧ v = variableOf code w ∧
        ∀ e ∈ (code, w) :: w.typed,
          baseOf e.1 < 12 ∨ isArrayType e.1 = true ∧ e.2 = .list []) ∧
    ∀ code p rest, 12 ≤ baseOf code →
      (∀ v d, readVariableRecord (levelsFrom depth) ⟨p, code :: rest⟩ = .ok v d ↔
        depth ≤ maxDepth ∧ isArrayType code = true ∧ Stream.count ⟨p + 1, rest⟩ = .ok 0 d ∧
          v = variableOf code (.list [])) ∧
      ∀ f d, readVariableRecord (levelsFrom depth) ⟨p, code :: rest⟩ = .error f d →
        f.kind = .format ∨ isArrayType code = true ∧ Stream.count ⟨p + 1, rest⟩ = .error f d := by
  refine ⟨fun c v d read => ?_, fun code p rest unknown =>
    ⟨fun v d => unknown_ok_iff unknown depth, fun f d => unknown_error unknown⟩⟩
  obtain ⟨code, rest, w, fewer, bytes, rfl, typed⟩ := of_variable_ok read
  have own : TypeAllowed code w := typed_allowed code _ w d typed
  have inner : TypesAllowed w := typed_types (dynamic_types fewer).1 code _ w d typed
  exact ⟨code, w, by rw [bytes]; rfl, rfl, List.forall_mem_cons.mpr ⟨own, inner⟩⟩

/-- A field that is an array of the unknown type 12 without elements. -/
def emptyField (name : String) : Value :=
  .record [("name", .text name), ("type", .typeName 0x8c), ("value", .list [])]

/-- A struct of such a field is read, and every type byte in it is allowed. With an element the
array is refused. -/
theorem unknown_elements_refused :
    (readVariableRecord (levelsFrom 0) (.start [11, 1, 0, 0, 0, 0, 0x8c, 0, 0, 0, 0]) =
        .ok (variableOf 11 (.list [emptyField ""])) ⟨11, []⟩ ∧
      ∀ e ∈ [((11 : UInt8), Value.list [emptyField ""]), (0x8c, .list [])],
        baseOf e.1 < 12 ∨ isArrayType e.1 = true ∧ e.2 = .list []) ∧
    12 ≤ baseOf 0x8c ∧
      ¬ ∃ v d, readVariableRecord (levelsFrom 0) ⟨0, [0x8c, 1, 0, 0, 0, 7]⟩ = .ok v d := by
  have read : readVariableRecord (levelsFrom 0) (.start [11, 1, 0, 0, 0, 0, 0x8c, 0, 0, 0, 0]) =
      .ok (variableOf 11 (.list [emptyField ""])) ⟨11, []⟩ := by
    have unnamed : Text.Utf8.decode [] = "" := by decide +kernel
    rw [← unnamed]
    rfl
  obtain ⟨allowed, unknown⟩ := base_types_are_known_but_for_empty_arrays 0
  refine ⟨⟨read, ?_⟩, by decide, ?_⟩
  · obtain ⟨code, w, -, same, each⟩ := allowed _ _ _ read
    cases same
    exact each
  · rintro ⟨v, d, read⟩
    obtain ⟨-, -, none, -⟩ := ((unknown 0x8c 0 [1, 0, 0, 0, 7] (by decide)).1 v d).mp read
    cases none

/-- The type byte of an array of the unknown type 12, in front of a count of zero. -/
theorem unknown_array_is_read :
    readVariableRecord (levelsFrom 0) (.start [0x8c, 0, 0, 0, 0]) =
        .ok (variableOf 0x8c (.list [])) ⟨5, []⟩ ∧
      ¬ baseOf 0x8c < 12 ∧ typeName 0x8c = "Type_12[]" := ⟨rfl, by decide, rfl⟩

end ChainDecode.Carbon
