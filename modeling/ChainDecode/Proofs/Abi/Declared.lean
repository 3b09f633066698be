import Mathlib.Data.List.Forall2
import ChainDecode.Proofs.Abi.Listing

/-! # What contract records declare

A method record with a name, inside a contract with a name, declares one signature. The table that
is built from contracts, from a file or from a directory lists what they declare in the order of the
records.
-/
namespace ChainDecode.Abi

def declaredBy (contract : Text) (method : Json) : Except Fault (List Entry) := do
  if method.isObject then
    let name := trimmed (← pick method "name" "Name")
    if name.isEmpty then pure []
    else
      let key := contract ++ "." ++ name
      let (params, _) ← paramsOf key method
      let result := trimmed (← pick method "returnType" "ReturnType")
      pure [⟨key, params, if result.isEmpty then .null else .str result⟩]
  else pure []

def declaredIn (contract : Json) : Except Fault (List Entry) := do
  let name := trimmed (← pick contract "name" "Name")
  if name.isEmpty then pure []
  else
    let methods ← pick contract "methods" "Methods"
    if methods.isBlank then pure []
    else return (← (← Json.elements methods).mapM (declaredBy name)).flatten

def declared (contracts : List Json) : Except Fault (List Entry) :=
  return (← contracts.mapM declaredIn).flatten

def FileDeclares (bytes : List UInt8) (entries : List Entry) : Prop :=
  ∃ text v, Text.Utf8.decode? bytes = some text ∧ Json.read text = .ok v ∧
    declared (contractsOf v) = .ok entries

def Found.Declares : Found → List Entry → Prop
  | .file bytes, entries => FileDeclares bytes entries
  | .directory content, entries =>
    ∃ parts, List.Forall₂
      (fun file part => ∃ bytes, file.2 = .file bytes ∧ FileDeclares bytes part)
      (jsonFiles content) parts ∧ entries = parts.flatten
  | _, _ => False

section Steps

variable {α : Type} {declares : α → List Entry → Prop}
  {step : Loaded → α → Except Fault Loaded}

def ListsEach (declares : α → List Entry → Prop) (step : Loaded → α → Except Fault Loaded) : Prop :=
  ∀ l entries a after, Lists l.table entries → step l a = .ok after →
    ∃ more, declares a more ∧ Lists after.table (entries ++ more)

theorem ListsEach.all (each : ListsEach declares step) {items : List α} {l after : Loaded}
    {entries : List Entry} (h : Lists l.table entries) (done : items.foldlM step l = .ok after) :
    ∃ parts, List.Forall₂ declares items parts ∧
      Lists after.table (entries ++ parts.flatten) := by
  induction items generalizing l entries with
  | nil =>
    cases done
    exact ⟨[], .nil, h.nothing⟩
  | cons a items ih =>
    rw [List.foldlM_cons] at done
    obtain ⟨middle, first, done⟩ := except_bind_ok.mp done
    obtain ⟨more, declared, h⟩ := each l entries a middle h first
    obtain ⟨parts, others, h⟩ := ih h done
    refine ⟨more :: parts, .cons declared others, ?_⟩
    rwa [List.append_assoc] at h

theorem mapM_of_forall₂ {f : α → Except Fault (List Entry)} {items : List α}
    {parts : List (List Entry)} (h : List.Forall₂ (fun a part => f a = .ok part) items parts) :
    items.mapM f = .ok parts := by
  induction h with
  | nil => rfl
  | cons first _ ih =>
    rw [List.mapM_cons, first, ih]
    rfl

end Steps

theorem addMethod_lists (source contract : Text) :
    ListsEach (fun method entries => declaredBy contract method = .ok entries)
      (addMethod source contract) := by
  intro l entries method after h done
  simp only [addMethod, declaredBy] at done ⊢
  by_cases record : method.isObject = true
  · simp only [if_pos record] at done ⊢
    obtain ⟨name, found, done⟩ := except_bind_ok.mp done
    simp only [found, bind, Except.bind, pure, Except.pure] at done ⊢
    by_cases blank : (trimmed name).isEmpty = true
    · simp only [if_pos blank] at done ⊢
      cases done
      exact ⟨[], rfl, h.nothing⟩
    · simp only [if_neg blank] at done ⊢
      obtain ⟨⟨params, warnings⟩, read, done⟩ := except_bind_ok.mp done
      obtain ⟨result, typed, done⟩ := except_bind_ok.mp done
      cases done
      simp only [read, typed]
      exact ⟨_, rfl, Lists.append (l := { l with warnings := l.warnings ++ warnings }) h true
        source ⟨_, _⟩⟩
  · simp only [if_neg record] at done ⊢
    cases done
    exact ⟨[], rfl, h.nothing⟩

theorem addContract_lists (source : Text) :
    ListsEach (fun contract entries => declaredIn contract = .ok entries)
      (addContract source) := by
  intro l entries contract after h done
  simp only [addContract, declaredIn] at done ⊢
  obtain ⟨name, found, done⟩ := except_bind_ok.mp done
  simp only [found, bind, Except.bind, pure, Except.pure] at done ⊢
  by_cases blank : (trimmed name).isEmpty = true
  · simp only [if_pos blank] at done ⊢
    cases done
    exact ⟨[], rfl, h.nothing⟩
  · simp only [if_neg blank] at done ⊢
    obtain ⟨methods, read, done⟩ := except_bind_ok.mp done
    simp only [read] at done ⊢
    by_cases absent : methods.isBlank = true
    · simp only [if_pos absent] at done ⊢
      cases done
      exact ⟨[], rfl, h.nothing⟩
    · simp only [if_neg absent] at done ⊢
      obtain ⟨items, listed, done⟩ := except_bind_ok.mp done
      obtain ⟨parts, declared, h⟩ := (addMethod_lists source _).all h done
      simp only [listed, mapM_of_forall₂ declared]
      exact ⟨_, rfl, h⟩

theorem ofContracts_lists {contracts : List Json} {source : Text} {loaded : Loaded}
    (done : ofContracts contracts source = .ok loaded) :
    ∃ entries, declared contracts = .ok entries ∧ Lists loaded.table entries := by
  obtain ⟨parts, each, h⟩ := (addContract_lists source).all lists_empty done
  refine ⟨parts.flatten, ?_, h⟩
  rw [declared, mapM_of_forall₂ each]
  rfl

theorem ofFile_lists {path : Path} {bytes : List UInt8} {loaded : Loaded}
    (done : ofFile path bytes = .ok loaded) :
    ∃ entries, FileDeclares bytes entries ∧ Lists loaded.table entries := by
  unfold ofFile at done
  cases decoded : Text.Utf8.decode? bytes with
  | none => simp [decoded] at done
  | some text =>
    simp only [decoded] at done
    cases read : Json.read text with
    | error e => cases e <;> simp [read] at done
    | ok v =>
      simp only [read] at done
      obtain ⟨table, made, done⟩ := except_bind_ok.mp done
      obtain ⟨entries, declared, h⟩ := ofContracts_lists made
      refine ⟨entries, ⟨text, v, decoded, read, declared⟩, ?_⟩
      -- The warning about a file without contracts leaves the table alone.
      by_cases empty : (contractsOf v).isEmpty = true
      · simp only [if_pos empty] at done
        cases done
        exact h
      · simp only [if_neg empty] at done
        cases done
        exact h

theorem Found.bytes_ok {path : Path} {found : Found} {bytes : List UInt8} :
    found.bytes path = .ok bytes ↔ found = .file bytes := by
  cases found <;> simp [Found.bytes]

theorem addFile_lists (directory : Path) :
    ListsEach
      (fun file entries => ∃ bytes, file.2 = Found.file bytes ∧ FileDeclares bytes entries)
      (addFile directory) := by
  intro l entries file after h done
  obtain ⟨name, found⟩ := file
  simp only [addFile] at done
  obtain ⟨bytes, opened, done⟩ := except_bind_ok.mp done
  obtain ⟨loaded, read, done⟩ := except_bind_ok.mp done
  cases done
  obtain ⟨more, declares, k⟩ := ofFile_lists read
  exact ⟨more, ⟨bytes, Found.bytes_ok.mp opened, declares⟩, h.merge k true name⟩

theorem load_lists {path : Path} {found : Found} {loaded : Loaded}
    (done : load path found = .ok loaded) :
    ∃ entries, found.Declares entries ∧ Lists loaded.table entries := by
  unfold load at done
  cases fault : path.fault? with
  | some f => simp [fault] at done
  | none =>
    simp only [fault] at done
    cases found with
    | file bytes => exact ofFile_lists done
    | directory content =>
      obtain ⟨parts, each, h⟩ := (addFile_lists path).all lists_empty done
      exact ⟨parts.flatten, ⟨parts, each, rfl⟩, h⟩
    | missing => cases done
    | blocked => cases done
    | tooLong => cases done

end ChainDecode.Abi
