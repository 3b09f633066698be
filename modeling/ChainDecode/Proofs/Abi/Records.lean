import ChainDecode.Abi.Contract
import ChainDecode.Proofs.Reading

/-! # What contract records mention

Contract records are gone through in the order of their document. Each record without a name and
each method with one is mentioned, and a table is made by adding what is mentioned, one after
another. Nothing stops on the way but a number or a truth value in the place of methods or
parameters.
-/
namespace ChainDecode.Abi

/-- The part of a record under two spellings of its key: the first that is there and not null. -/
def part (record : Json) (small capital : Text) : Json :=
  match record.get? small with
  | some .null | none => (record.get? capital).getD .null
  | some v => v

theorem pick_record {record : Json} (h : record.isObject = true) (small capital : Text) :
    pick record small capital = .ok (part record small capital) := by
  cases record with
  | obj members =>
    have found : ∀ key, memberOf (.obj members) key = .ok ((Json.obj members).get? key) :=
      fun _ => rfl
    simp only [pick, part, found]
    cases (Json.obj members).get? small with
    | none => cases (Json.obj members).get? capital <;> rfl
    | some v =>
      cases v with
      | null => cases (Json.obj members).get? capital <;> rfl
      | _ => rfl
  | _ => cases h

def itemsIn (v : Json) : List Json := if v.isBlank then [] else (Json.elements v).toOption.getD []

inductive Unlistable : Json → Prop where
  | yes : Unlistable (.bool true)
  | whole {n : Int} : n ≠ 0 → Unlistable (.int n)
  | real {x : Number.Binary64} : (Json.real x).isBlank = false → Unlistable (.real x)

section Loops

variable {α : Type} {v : Json} (body : List Json → Except Fault α)

theorem loop_listed (h : ¬ Unlistable v) :
    (if v.isBlank then body [] else Json.elements v >>= body) = body (itemsIn v) := by
  unfold itemsIn
  by_cases blank : v.isBlank = true
  · rw [if_pos blank, if_pos blank]
  · rw [if_neg blank, if_neg blank]
    cases v with
    | null => exact absurd rfl blank
    | bool b =>
      cases b with
      | false => exact absurd rfl blank
      | true => exact absurd .yes h
    | int n => exact absurd (.whole fun zero => blank (by rw [zero]; rfl)) h
    | real x => exact absurd (.real (by simpa using blank)) h
    | str s => rfl
    | arr items => rfl
    | obj members => rfl

theorem loop_stops (h : Unlistable v) :
    (if v.isBlank then body [] else Json.elements v >>= body) = .error .wrongShape := by
  cases h with
  | yes => rfl
  | whole some => simp [Json.isBlank, some, Json.elements, bind, Except.bind]
  | real some => simp [some, Json.elements, bind, Except.bind]

end Loops

@[simp] theorem itemsIn_arr (items : List Json) : itemsIn (.arr items) = items := by
  cases items <;> rfl

def nameOf (record : Json) : Text := trimmed (part record "name" "Name")

def typeOf (record : Json) : Text := trimmed (part record "type" "Type")

/-- A parameter by its place. Without a name it is named for its place, without a type that is
unknown; what is no record has neither. -/
def paramAt (index : Nat) (raw : Json) : Param :=
  ⟨.str (if (nameOf raw).isEmpty then s!"arg{index}" else nameOf raw),
    .str (if (typeOf raw).isEmpty then "Unknown" else typeOf raw)⟩

theorem paramOf_eq (key : Text) (index : Nat) (raw : Json) :
    paramOf key index raw =
      .ok (paramAt index raw, paramWarnings key index (nameOf raw) (typeOf raw)) := by
  have parts : ∀ small capital, pick (if raw.isObject then raw else .obj []) small capital =
      .ok (part raw small capital) := by
    intro small capital
    by_cases record : raw.isObject = true
    · rw [if_pos record, pick_record record]
    · have none : part raw small capital = .null := by
        cases raw with
        | obj members => exact absurd rfl record
        | _ => rfl
      rw [if_neg record, none]
      rfl
  simp only [paramOf, parts]
  rfl

def missingParts (key : Text) (raws : List Json) : List Text :=
  (raws.mapIdx fun i raw => paramWarnings key i (nameOf raw) (typeOf raw)).flatten

theorem paramsFrom_eq (key : Text) (start : Nat) (raws : List Json) :
    paramsFrom key start raws =
      .ok (raws.mapIdx fun i raw => paramAt (start + i) raw,
        (raws.mapIdx fun i raw =>
          paramWarnings key (start + i) (nameOf raw) (typeOf raw)).flatten) := by
  induction raws generalizing start with
  | nil => rfl
  | cons raw raws ih =>
    have next : ∀ i, start + 1 + i = start + (i + 1) := by omega
    simp only [paramsFrom, paramOf_eq, ih, next, List.mapIdx_cons, List.flatten_cons]
    rfl

def parametersOf (method : Json) : List Json := itemsIn (part method "parameters" "Parameters")

def signatureOf (method : Json) : Signature :=
  let result := trimmed (part method "returnType" "ReturnType")
  ⟨(parametersOf method).mapIdx paramAt, if result.isEmpty then .null else .str result⟩

theorem arity_signatureOf (method : Json) :
    (signatureOf method).arity = (parametersOf method).length := List.length_mapIdx

theorem paramsOf_listed {method : Json} (record : method.isObject = true) (key : Text)
    (listed : ¬ Unlistable (part method "parameters" "Parameters")) :
    paramsOf key method =
      .ok ((parametersOf method).mapIdx paramAt, missingParts key (parametersOf method)) := by
  have all := paramsFrom_eq key 0 (parametersOf method)
  simp only [Nat.zero_add] at all
  rw [paramsOf, pick_record record]
  exact (loop_listed (paramsFrom key 0) listed).trans all

theorem paramsOf_stops {method : Json} (record : method.isObject = true) (key : Text)
    (unlisted : Unlistable (part method "parameters" "Parameters")) :
    paramsOf key method = .error .wrongShape := by
  rw [paramsOf, pick_record record]
  exact loop_stops (paramsFrom key 0) unlisted

inductive Mention where
  | namelessContract
  | namelessMethod (contract : Text)
  -- A method under its key, with the warnings about its parameters.
  | method (key : Text) (signature : Signature) (missing : List Text)

def Mention.add (source : Text) (l : Loaded) : Mention → Loaded
  | namelessContract => l.warn ("ABI contract missing name (" ++ source ++ ")")
  | namelessMethod contract =>
    l.warn ("ABI method missing name in " ++ contract ++ " (" ++ source ++ ")")
  | method key signature missing =>
    Loaded.add .append source key { l with warnings := l.warnings ++ missing } signature

/-- What a method record mentions. Other values mention nothing. -/
def mentionedBy (contract : Text) (method : Json) : List Mention :=
  if method.isObject then
    if (nameOf method).isEmpty then [.namelessMethod contract]
    else
      let key := contract ++ "." ++ nameOf method
      [.method key (signatureOf method) (missingParts key (parametersOf method))]
  else []

def methodsOf (contract : Json) : List Json := itemsIn (part contract "methods" "Methods")

def mentionedIn (contract : Json) : List Mention :=
  if (nameOf contract).isEmpty then [.namelessContract]
  else (methodsOf contract).flatMap (mentionedBy (nameOf contract))

/-- A method record that has a name, but parameters that cannot be looped over. -/
structure MethodStops (method : Json) : Prop where
  record : method.isObject = true
  named : (nameOf method).isEmpty = false
  parameters : Unlistable (part method "parameters" "Parameters")

/-- A contract record that has a name, but methods that cannot be gone through. -/
structure ContractStops (contract : Json) : Prop where
  named : (nameOf contract).isEmpty = false
  methods : Unlistable (part contract "methods" "Methods") ∨
    ∃ method ∈ methodsOf contract, MethodStops method

section Steps

variable {α : Type} {source : Text} {within stops : α → Prop} {mentions : α → List Mention}
  {step : Loaded → α → Except Fault Loaded}

/-- A step over some of the items adds what an item mentions, or stops at its shape. -/
structure Adds (source : Text) (within stops : α → Prop) (mentions : α → List Mention)
    (step : Loaded → α → Except Fault Loaded) : Prop where
  stop : ∀ l a, within a → stops a → step l a = .error .wrongShape
  go : ∀ l a, within a → ¬ stops a → step l a = .ok ((mentions a).foldl (Mention.add source) l)

/-- Items are gone through up to the first at which a step stops. -/
theorem Adds.all (h : Adds source within stops mentions step) :
    Adds source (fun items : List α => ∀ a ∈ items, within a) (fun items => ∃ a ∈ items, stops a)
      (fun items => items.flatMap mentions) (fun l items => items.foldlM step l) := by
  refine ⟨fun l items inside => ?_, fun l items inside => ?_⟩
  · induction items generalizing l with
    | nil => simp
    | cons a items ih =>
      obtain ⟨first, others⟩ := List.forall_mem_cons.mp inside
      intro stop
      rw [List.foldlM_cons]
      by_cases here : stops a
      · rw [h.stop l a first here]
        rfl
      · rw [h.go l a first here]
        exact ih _ others (by simpa [here] using stop)
  · induction items generalizing l with
    | nil => exact fun _ => rfl
    | cons a items ih =>
      obtain ⟨first, others⟩ := List.forall_mem_cons.mp inside
      intro free
      have here : ¬ stops a := fun stop => free ⟨a, List.mem_cons_self, stop⟩
      rw [List.foldlM_cons, h.go l a first here, List.flatMap_cons, List.foldl_append]
      exact ih _ others fun ⟨b, member, stop⟩ => free ⟨b, List.mem_cons_of_mem a member, stop⟩

end Steps

theorem addMethod_adds (source contract : Text) :
    Adds source (fun _ => True) MethodStops (mentionedBy contract) (addMethod source contract) := by
  refine ⟨fun l method _ stop => ?_, fun l method _ free => ?_⟩
  · have name : ¬ (nameOf method).isEmpty = true := by simp [stop.named]
    rw [addMethod, if_pos stop.record, pick_record stop.record]
    change (if (nameOf method).isEmpty = true then _ else _) = _
    rw [if_neg name, paramsOf_stops stop.record _ stop.parameters]
    rfl
  · rw [addMethod, mentionedBy]
    by_cases record : method.isObject = true
    · rw [if_pos record, if_pos record, pick_record record]
      change (if (nameOf method).isEmpty = true then _ else _) = _
      by_cases blank : (nameOf method).isEmpty = true
      · rw [if_pos blank, if_pos blank]
        rfl
      · have listed : ¬ Unlistable (part method "parameters" "Parameters") := fun unlisted =>
          free ⟨record, by simpa using blank, unlisted⟩
        rw [if_neg blank, if_neg blank, paramsOf_listed record _ listed, pick_record record]
        rfl
    · rw [if_neg record, if_neg record]
      rfl

theorem addContract_adds (source : Text) :
    Adds source (fun contract => contract.isObject = true) ContractStops mentionedIn
      (addContract source) := by
  have methods : ∀ name, Adds source _ _ _ _ := fun name => (addMethod_adds source name).all
  refine ⟨fun l contract record stop => ?_, fun l contract record free => ?_⟩
  · have name : ¬ (nameOf contract).isEmpty = true := by simp [stop.named]
    rw [addContract, pick_record record]
    change (if (nameOf contract).isEmpty = true then _ else _) = _
    rw [if_neg name, pick_record record]
    by_cases unlisted : Unlistable (part contract "methods" "Methods")
    · exact loop_stops (fun items => items.foldlM (addMethod source (nameOf contract)) l)
        unlisted
    · refine (loop_listed
        (fun items => items.foldlM (addMethod source (nameOf contract)) l) unlisted).trans ?_
      exact (methods _).stop l _ (fun _ _ => trivial) (stop.methods.resolve_left unlisted)
  · rw [addContract, pick_record record, mentionedIn]
    change (if (nameOf contract).isEmpty = true then _ else _) = _
    by_cases blank : (nameOf contract).isEmpty = true
    · rw [if_pos blank, if_pos blank]
      rfl
    · have named : (nameOf contract).isEmpty = false := by simpa using blank
      have listed : ¬ Unlistable (part contract "methods" "Methods") := fun unlisted =>
        free ⟨named, .inl unlisted⟩
      rw [if_neg blank, if_neg blank, pick_record record]
      refine (loop_listed
        (fun items => items.foldlM (addMethod source (nameOf contract)) l) listed).trans ?_
      exact (methods _).go l _ (fun _ _ => trivial) fun stop => free ⟨named, .inr stop⟩

theorem ofContracts_adds {contracts : List Json} (records : ∀ c ∈ contracts, c.isObject = true)
    (source : Text) :
    ((∃ c ∈ contracts, ContractStops c) → ofContracts contracts source = .error .wrongShape) ∧
    ((¬ ∃ c ∈ contracts, ContractStops c) → ofContracts contracts source =
      .ok ((contracts.flatMap mentionedIn).foldl (Mention.add source) .empty)) :=
  ⟨(addContract_adds source).all.stop .empty contracts records,
    (addContract_adds source).all.go .empty contracts records⟩

def Listed (v : Json) : Prop := v = .null ∨ ∃ items, v = .arr items

instance : DecidablePred Listed
  | .null => isTrue (.inl rfl)
  | .arr items => isTrue (.inr ⟨items, rfl⟩)
  | .bool _ => isFalse (by simp [Listed])
  | .int _ => isFalse (by simp [Listed])
  | .real _ => isFalse (by simp [Listed])
  | .str _ => isFalse (by simp [Listed])
  | .obj _ => isFalse (by simp [Listed])

theorem Listed.not_unlistable {v : Json} (h : Listed v) : ¬ Unlistable v := by
  obtain rfl | ⟨items, rfl⟩ := h
  · exact nofun
  · exact nofun

/-- A contract record whose methods are a list, if there are any, and the parameters of each of its
method records too. -/
structure WellFormed (contract : Json) : Prop where
  record : contract.isObject = true
  methods : Listed (part contract "methods" "Methods")
  parameters : ∀ method ∈ methodsOf contract, method.isObject = true →
    Listed (part method "parameters" "Parameters")

instance : DecidablePred WellFormed := fun contract =>
  decidable_of_iff
    (contract.isObject = true ∧ Listed (part contract "methods" "Methods") ∧
      ∀ method ∈ methodsOf contract, method.isObject = true →
        Listed (part method "parameters" "Parameters"))
    ⟨fun ⟨record, methods, parameters⟩ => ⟨record, methods, parameters⟩,
      fun h => ⟨h.record, h.methods, h.parameters⟩⟩

theorem WellFormed.not_stops {contract : Json} (h : WellFormed contract) :
    ¬ ContractStops contract := by
  rintro ⟨-, unlistable | ⟨method, member, stop⟩⟩
  · exact h.methods.not_unlistable unlistable
  · exact (h.parameters method member stop.record).not_unlistable stop.parameters

theorem ofContracts_wellFormed {contracts : List Json} (h : ∀ c ∈ contracts, WellFormed c)
    (source : Text) :
    ofContracts contracts source =
      .ok ((contracts.flatMap mentionedIn).foldl (Mention.add source) .empty) :=
  (ofContracts_adds (fun c member => (h c member).record) source).2
    fun ⟨c, member, stop⟩ => (h c member).not_stops stop

end ChainDecode.Abi
