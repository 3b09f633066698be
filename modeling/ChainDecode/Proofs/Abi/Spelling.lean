import Mathlib.Data.List.Basic
import ChainDecode.Proofs.Abi.Records

/-! # The spelling of contract records

The keys of a record are written small or with a capital in front. Records that have each key in one
spelling only mention the same when all their keys are written with a capital.
-/
namespace ChainDecode.Abi

def pascal (key : Text) : Text :=
  match key.letters with
  | .char c :: rest => ⟨.char c.toUpper :: rest⟩
  | _ => key

def Small (key : Text) : Prop := ∃ c rest, key = ⟨.char c :: rest⟩ ∧ c.toUpper ≠ c

theorem toUpper_cases (c : Char) :
    c.toUpper = c ∨ 0x61 ≤ c.toNat ∧ c.toNat ≤ 0x7a ∧ c.toUpper.toNat + 0x20 = c.toNat := by
  unfold Char.toUpper
  split
  · rename_i small
    have first : 0x61 ≤ c.toNat := small.1
    have last : c.toNat ≤ 0x7a := small.2
    have distance : ('A'.val - 'a'.val).toNat = 2 ^ 32 - 0x20 := by decide
    refine .inr ⟨first, last, ?_⟩
    simp only [Char.toNat, UInt32.toNat_add] at *
    omega
  · exact .inl rfl

theorem toUpper_toUpper (c : Char) : c.toUpper.toUpper = c.toUpper := by
  rcases toUpper_cases c with capital | ⟨first, last, code⟩
  · rw [capital, capital]
  · rcases toUpper_cases c.toUpper with capital | ⟨first', -, -⟩
    · exact capital
    · omega

theorem toUpper_eq_iff {c d : Char} (small : d.toUpper ≠ d) :
    c.toUpper = d.toUpper ↔ c = d ∨ c = d.toUpper := by
  constructor
  · intro same
    rcases toUpper_cases c with capital | ⟨-, -, code⟩
    · exact .inr (capital.symm.trans same)
    · rcases toUpper_cases d with capital | ⟨-, -, code'⟩
      · exact absurd capital small
      · rw [same] at code
        exact .inl (Char.toNat_inj.mp (code.symm.trans code'))
  · rintro (rfl | rfl)
    · rfl
    · exact toUpper_toUpper d

section Keys

variable {key part : Text}

theorem Small.pascal_ne (small : Small part) (key : Text) : pascal key ≠ part := by
  obtain ⟨c, rest, rfl, small⟩ := small
  obtain ⟨letters⟩ := key
  rintro same
  match letters with
  | [] => cases same
  | .surrogate _ :: _ => cases same
  | .char d :: _ =>
    simp only [pascal, Text.mk.injEq, List.cons.injEq, Letter.char.injEq] at same
    exact small (same.1 ▸ toUpper_toUpper d)

/-- The keys that become a key's capital spelling are its two spellings. -/
theorem Small.pascal_eq_iff (small : Small part) :
    pascal key = pascal part ↔ key = part ∨ key = pascal part := by
  obtain ⟨c, rest, rfl, small⟩ := small
  obtain ⟨letters⟩ := key
  match letters with
  | [] => simp [pascal]
  | .surrogate _ :: _ => simp [pascal]
  | .char d :: _ =>
    simp only [pascal, Text.mk.injEq, List.cons.injEq, Letter.char.injEq, toUpper_eq_iff small]
    exact or_and_right

end Keys

/-- A record with all its keys in capital spelling, and with its values changed by their keys. -/
def respelled (inside : Text → Json → Json) : Json → Json
  | .obj members => .obj (members.map fun m => (pascal m.1, inside (pascal m.1) m.2))
  | v => v

def Unmixed (record : Json) (parts : List Text) : Prop :=
  ∀ part ∈ parts, record.get? part = none ∨ record.get? (pascal part) = none

instance (record : Json) (parts : List Text) : Decidable (Unmixed record parts) :=
  inferInstanceAs (Decidable (∀ part ∈ parts, _ ∨ _))

section Records

variable {inside : Text → Json → Json} {small : Text}

theorem lookup_respelled (key : Small small) {members : List (Text × Json)}
    (unmixed : members.lookup small = none ∨ members.lookup (pascal small) = none) :
    (members.map fun m => (pascal m.1, inside (pascal m.1) m.2)).lookup (pascal small) =
      ((members.lookup small).or (members.lookup (pascal small))).map (inside (pascal small)) := by
  induction members with
  | nil => rfl
  | cons m members ih =>
    obtain ⟨k, v⟩ := m
    by_cases here : pascal k = pascal small
    · rcases key.pascal_eq_iff.mp here with rfl | rfl
      · simp
      · have apart : (small == pascal small) = false :=
          beq_eq_false_iff_ne.mpr (key.pascal_ne small).symm
        rw [List.lookup_cons, List.lookup_cons, apart] at unmixed
        have none : members.lookup small = none := by simpa using unmixed
        simp [List.lookup_cons, here, apart, none]
    · obtain ⟨other, other'⟩ := not_or.mp fun same => here (key.pascal_eq_iff.mpr same)
      have away : (small == k) = false := beq_eq_false_iff_ne.mpr (Ne.symm other)
      have away' : (pascal small == k) = false := beq_eq_false_iff_ne.mpr (Ne.symm other')
      have behind : (pascal small == pascal k) = false := beq_eq_false_iff_ne.mpr (Ne.symm here)
      rw [List.lookup_cons, List.lookup_cons, away, away'] at unmixed
      simp only [List.map_cons, List.lookup_cons, away, away', behind]
      exact ih unmixed

theorem isObject_respelled (record : Json) :
    (respelled inside record).isObject = record.isObject := by
  cases record <;> rfl

theorem get?_respelled (inside : Text → Json → Json) (key : Small small) {record : Json}
    (unmixed : record.get? small = none ∨ record.get? (pascal small) = none) :
    (respelled inside record).get? small = none ∧
      (respelled inside record).get? (pascal small) =
        ((record.get? small).or (record.get? (pascal small))).map (inside (pascal small)) := by
  cases record with
  | obj members =>
    refine ⟨?_, lookup_respelled key unmixed⟩
    refine List.lookup_eq_none_iff.mpr fun m member => ?_
    obtain ⟨m, -, rfl⟩ := List.mem_map.mp member
    exact bne_iff_ne.mpr (key.pascal_ne m.1).symm
  | _ => exact ⟨rfl, rfl⟩

theorem part_respelled (key : Small small) {record : Json}
    (unmixed : record.get? small = none ∨ record.get? (pascal small) = none)
    (kept : inside (pascal small) .null = .null) :
    part (respelled inside record) small (pascal small) =
      inside (pascal small) (part record small (pascal small)) := by
  obtain ⟨gone, found⟩ := get?_respelled inside key unmixed
  simp only [part, gone, found]
  rcases unmixed with none | none
  · cases record.get? (pascal small) <;> simp [none, kept]
  · rw [none]
    cases record.get? small with
    | none => simp [kept]
    | some v => cases v <;> simp [kept]

theorem part_kept (key : Small small) {record : Json}
    (unmixed : record.get? small = none ∨ record.get? (pascal small) = none)
    (same : ∀ v, inside (pascal small) v = v) :
    part (respelled inside record) small (pascal small) = part record small (pascal small) := by
  rw [part_respelled key unmixed (same .null), same]

end Records

def itemsUnder (key : Text) (change : Json → Json) (here : Text) (v : Json) : Json :=
  match v with
  | .arr items => if here = key then .arr (items.map change) else v
  | v => v

def pascalParam : Json → Json := respelled fun _ v => v

def pascalMethod : Json → Json := respelled (itemsUnder "Parameters" pascalParam)

/-- A contract record with the keys in capital spelling, in its methods and their parameters too. -/
def pascalContract : Json → Json := respelled (itemsUnder "Methods" pascalMethod)

/-- A method record that has none of its keys in both spellings, like each of its parameters. -/
structure MethodSpelled (method : Json) : Prop where
  parts : Unmixed method ["name", "parameters", "returnType"]
  parameters : ∀ param ∈ parametersOf method, Unmixed param ["name", "type"]

instance : DecidablePred MethodSpelled := fun method =>
  decidable_of_iff
    (Unmixed method ["name", "parameters", "returnType"] ∧
      ∀ param ∈ parametersOf method, Unmixed param ["name", "type"])
    ⟨fun ⟨parts, parameters⟩ => ⟨parts, parameters⟩, fun h => ⟨h.parts, h.parameters⟩⟩

/-- A contract record that has none of its keys in both spellings, like each of its methods. -/
structure Spelled (contract : Json) : Prop where
  parts : Unmixed contract ["name", "methods"]
  methods : ∀ method ∈ methodsOf contract, MethodSpelled method

instance : DecidablePred Spelled := fun contract =>
  decidable_of_iff
    (Unmixed contract ["name", "methods"] ∧ ∀ method ∈ methodsOf contract, MethodSpelled method)
    ⟨fun ⟨parts, methods⟩ => ⟨parts, methods⟩, fun h => ⟨h.parts, h.methods⟩⟩

section Items

variable {key : Text} {change : Json → Json} {v : Json}

theorem itemsUnder_ne {here : Text} (apart : here ≠ key) : itemsUnder key change here v = v := by
  cases v <;> simp [itemsUnder, apart]

theorem Listed.itemsUnder (h : Listed v) : Listed (itemsUnder key change key v) := by
  obtain rfl | ⟨items, rfl⟩ := h
  · exact .inl rfl
  · exact .inr ⟨items.map change, by simp [Abi.itemsUnder]⟩

theorem Listed.itemsIn_itemsUnder (h : Listed v) :
    itemsIn (Abi.itemsUnder key change key v) = (itemsIn v).map change := by
  obtain rfl | ⟨items, rfl⟩ := h
  · rfl
  · simp [Abi.itemsUnder]

theorem mapIdx_map {α β γ : Type} {change : α → β} {f : Nat → β → γ} {g : Nat → α → γ}
    {items : List α} (same : ∀ a ∈ items, ∀ i, f i (change a) = g i a) :
    (items.map change).mapIdx f = items.mapIdx g := by
  refine List.ext_getElem (by simp) fun i _ inside => ?_
  simp only [List.getElem_mapIdx, List.getElem_map]
  exact same _ (List.getElem_mem _) i

end Items

section Levels

theorem small_name : Small "name" := ⟨'n', _, rfl, by decide⟩

theorem small_type : Small "type" := ⟨'t', _, rfl, by decide⟩

theorem small_methods : Small "methods" := ⟨'m', _, rfl, by decide⟩

theorem small_parameters : Small "parameters" := ⟨'p', _, rfl, by decide⟩

theorem small_returnType : Small "returnType" := ⟨'r', _, rfl, by decide⟩

theorem param_pascal {raw : Json} (h : Unmixed raw ["name", "type"]) :
    nameOf (pascalParam raw) = nameOf raw ∧ typeOf (pascalParam raw) = typeOf raw :=
  ⟨congrArg trimmed (part_kept small_name (h "name" (by simp)) fun _ => rfl),
    congrArg trimmed (part_kept small_type (h "type" (by simp)) fun _ => rfl)⟩

theorem paramsAt_pascal {raws : List Json} (h : ∀ raw ∈ raws, Unmixed raw ["name", "type"]) :
    (raws.map pascalParam).mapIdx paramAt = raws.mapIdx paramAt := by
  refine mapIdx_map fun raw member i => ?_
  obtain ⟨name, type⟩ := param_pascal (h raw member)
  rw [paramAt, paramAt, name, type]

theorem missingParts_pascal (key : Text) {raws : List Json}
    (h : ∀ raw ∈ raws, Unmixed raw ["name", "type"]) :
    missingParts key (raws.map pascalParam) = missingParts key raws := by
  refine congrArg List.flatten (mapIdx_map fun raw member i => ?_)
  obtain ⟨name, type⟩ := param_pascal (h raw member)
  rw [name, type]

variable {method contract : Json}

theorem nameOf_pascalMethod (spelled : MethodSpelled method) :
    nameOf (pascalMethod method) = nameOf method :=
  congrArg trimmed (part_kept small_name (spelled.parts "name" (by simp))
    fun _ => itemsUnder_ne (by decide))

theorem parameters_pascalMethod (spelled : MethodSpelled method) :
    part (pascalMethod method) "parameters" "Parameters" =
      itemsUnder "Parameters" pascalParam "Parameters"
        (part method "parameters" "Parameters") :=
  part_respelled small_parameters (spelled.parts "parameters" (by simp)) rfl

theorem parametersOf_pascalMethod (spelled : MethodSpelled method)
    (listed : Listed (part method "parameters" "Parameters")) :
    parametersOf (pascalMethod method) = (parametersOf method).map pascalParam := by
  rw [parametersOf, parameters_pascalMethod spelled]
  exact listed.itemsIn_itemsUnder

theorem signatureOf_pascalMethod (spelled : MethodSpelled method)
    (listed : Listed (part method "parameters" "Parameters")) :
    signatureOf (pascalMethod method) = signatureOf method := by
  have result : part (pascalMethod method) "returnType" "ReturnType" =
      part method "returnType" "ReturnType" :=
    part_kept small_returnType (spelled.parts "returnType" (by simp))
      fun _ => itemsUnder_ne (by decide)
  simp only [signatureOf, result, parametersOf_pascalMethod spelled listed,
    paramsAt_pascal spelled.parameters]

theorem mentionedBy_pascalMethod (contract : Text) (spelled : MethodSpelled method)
    (listed : method.isObject = true → Listed (part method "parameters" "Parameters")) :
    mentionedBy contract (pascalMethod method) = mentionedBy contract method := by
  have kept : (pascalMethod method).isObject = method.isObject := isObject_respelled method
  simp only [mentionedBy, kept, nameOf_pascalMethod spelled]
  by_cases record : method.isObject = true
  · simp only [signatureOf_pascalMethod spelled (listed record),
      parametersOf_pascalMethod spelled (listed record), missingParts_pascal _ spelled.parameters]
  · rw [if_neg record, if_neg record]

theorem methods_pascalContract (spelled : Spelled contract) :
    part (pascalContract contract) "methods" "Methods" =
      itemsUnder "Methods" pascalMethod "Methods" (part contract "methods" "Methods") :=
  part_respelled small_methods (spelled.parts "methods" (by simp)) rfl

theorem methodsOf_pascalContract (h : WellFormed contract) (spelled : Spelled contract) :
    methodsOf (pascalContract contract) = (methodsOf contract).map pascalMethod := by
  rw [methodsOf, methods_pascalContract spelled]
  exact h.methods.itemsIn_itemsUnder

theorem mentionedIn_pascalContract (h : WellFormed contract) (spelled : Spelled contract) :
    mentionedIn (pascalContract contract) = mentionedIn contract := by
  have name : nameOf (pascalContract contract) = nameOf contract :=
    congrArg trimmed (part_kept small_name (spelled.parts "name" (by simp))
      fun _ => itemsUnder_ne (by decide))
  rw [mentionedIn, name, methodsOf_pascalContract h spelled, List.flatMap_map, mentionedIn]
  congr 1
  exact List.flatMap_congr fun method member =>
    mentionedBy_pascalMethod _ (spelled.methods method member) (h.parameters method member)

theorem WellFormed.pascal (h : WellFormed contract) (spelled : Spelled contract) :
    WellFormed (pascalContract contract) := by
  refine ⟨(isObject_respelled contract).trans h.record, ?_, ?_⟩
  · rw [methods_pascalContract spelled]
    exact h.methods.itemsUnder
  · rw [methodsOf_pascalContract h spelled, List.forall_mem_map]
    intro method member record
    rw [parameters_pascalMethod (spelled.methods method member)]
    exact (h.parameters method member ((isObject_respelled method).symm.trans record)).itemsUnder

end Levels

theorem ofContracts_pascal {contracts : List Json} (h : ∀ c ∈ contracts, WellFormed c)
    (spelled : ∀ c ∈ contracts, Spelled c) (source : Text) :
    ofContracts (contracts.map pascalContract) source = ofContracts contracts source := by
  have h' : ∀ c ∈ contracts.map pascalContract, WellFormed c := by
    rw [List.forall_mem_map]
    exact fun c member => (h c member).pascal (spelled c member)
  have mentions : (contracts.map pascalContract).flatMap mentionedIn =
      contracts.flatMap mentionedIn := by
    rw [List.flatMap_map]
    exact List.flatMap_congr fun c member =>
      mentionedIn_pascalContract (h c member) (spelled c member)
  rw [ofContracts_wellFormed h', ofContracts_wellFormed h, mentions]

end ChainDecode.Abi
