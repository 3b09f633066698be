import Mathlib.Data.List.Induction
import ChainDecode.Proofs.Abi.Repetition
import ChainDecode.Proofs.Abi.Spelling

/-! # Building a table from contract records

A table that is built from contract records has every method that is mentioned, once and with all
its parameters. Methods under one key stand behind one another, in the order of the records, and
each but the first of them is reported.
-/
namespace ChainDecode.Abi

def Mention.key? : Mention → Option Text
  | method key _ _ => some key
  | _ => none

def Mention.signature? (key : Text) : Mention → Option Signature
  | method other signature _ => if other = key then some signature else none
  | _ => none

def keysIn (mentions : List Mention) : List Text := mentions.filterMap Mention.key?

def signaturesUnder (mentions : List Mention) (key : Text) : List Signature :=
  mentions.filterMap (Mention.signature? key)

def grouped (mentions : List Mention) : List (Key × List Signature) :=
  (keysIn mentions).eraseDups.map fun key => (.text key, signaturesUnder mentions key)

/-- The warnings about what is mentioned after other mentions. -/
def Mention.told (source : Text) (before : List Mention) : Mention → List Text
  | namelessContract => ["ABI contract missing name (" ++ source ++ ")"]
  | namelessMethod contract => ["ABI method missing name in " ++ contract ++ " (" ++ source ++ ")"]
  | method key _ missing =>
    missing ++ if key ∈ keysIn before then [duplicateWarning source key] else []

def tellings (source : Text) : (before mentions : List Mention) → List Text
  | _, [] => []
  | before, m :: mentions => m.told source before ++ tellings source (before ++ [m]) mentions

section Mentions

variable {mentions : List Mention} {key : Text}

theorem tellings_concat (source : Text) (before mentions : List Mention) (m : Mention) :
    tellings source before (mentions ++ [m]) =
      tellings source before mentions ++ m.told source (before ++ mentions) := by
  induction mentions generalizing before with
  | nil => simp [tellings]
  | cons first mentions ih => simp [tellings, ih]

theorem keysIn_concat (mentions : List Mention) (m : Mention) :
    keysIn (mentions ++ [m]) = keysIn mentions ++ m.key?.toList := by
  rw [keysIn, List.filterMap_append]
  cases h : m.key? <;> simp [keysIn, h]

theorem signaturesUnder_append (mentions more : List Mention) (key : Text) :
    signaturesUnder (mentions ++ more) key =
      signaturesUnder mentions key ++ signaturesUnder more key := List.filterMap_append

theorem signaturesUnder_singleton (m : Mention) (key : Text) :
    signaturesUnder [m] key = (m.signature? key).toList := by
  cases h : m.signature? key <;> simp [signaturesUnder, h]

theorem signature?_eq_none_iff (m : Mention) : m.signature? key = none ↔ m.key? ≠ some key := by
  cases m <;> simp [Mention.signature?, Mention.key?]

theorem signaturesUnder_eq_nil_iff : signaturesUnder mentions key = [] ↔ key ∉ keysIn mentions := by
  simp [signaturesUnder, keysIn, List.filterMap_eq_nil_iff, signature?_eq_none_iff]

end Mentions

section Texts

variable {keys : List Text} {f : Text → List Signature}

theorem lookup_texts (keys : List Text) (f : Text → List Signature) (key : Text) :
    (keys.map fun k => (Key.text k, f k)).lookup (.text key) =
      if key ∈ keys then some (f key) else none := by
  induction keys with
  | nil => rfl
  | cons k keys ih =>
    rw [List.map_cons, List.lookup_cons, text_beq, ih]
    by_cases same : key = k
    · simp [same]
    · simp [same]

theorem store_texts (distinct : keys.Nodup) (key : Text) (signatures : List Signature) :
    Table.store (.text key) signatures (keys.map fun k => (Key.text k, f k)) =
      (if key ∈ keys then keys else keys ++ [key]).map fun k =>
        (Key.text k, if key = k then signatures else f k) := by
  induction keys with
  | nil => simp [Table.store]
  | cons k keys ih =>
    obtain ⟨apart, distinct⟩ := List.nodup_cons.mp distinct
    rw [List.map_cons, Table.store, text_beq]
    by_cases same : k = key
    · subst same
      have others : ∀ other ∈ keys, (Key.text other, f other) =
          (Key.text other, if k = other then signatures else f other) := by
        intro other member
        rw [if_neg fun same : k = other => apart (same ▸ member)]
      simpa using others
    · rw [if_neg (by simpa using same), ih distinct]
      by_cases known : key ∈ keys
      · simp [known, Ne.symm same]
      · simp [known, Ne.symm same]

end Texts

/-- A table with what is mentioned, and the warnings about it. -/
structure Built (source : Text) (mentions : List Mention) (l : Loaded) : Prop where
  entries : l.table.entries = grouped mentions
  warnings : l.warnings = tellings source [] mentions

theorem grouped_nameless (mentions : List Mention) {m : Mention} (nameless : m.key? = none) :
    grouped (mentions ++ [m]) = grouped mentions := by
  have other : ∀ key, m.signature? key = none := fun key =>
    (signature?_eq_none_iff m).mpr (by simp [nameless])
  simp [grouped, keysIn_concat, signaturesUnder_append, signaturesUnder_singleton, nameless, other]

theorem grouped_method (mentions : List Mention) (key : Text) (signature : Signature)
    (missing : List Text) :
    grouped (mentions ++ [.method key signature missing]) =
      Table.store (.text key) (signaturesUnder mentions key ++ [signature]) (grouped mentions) := by
  rw [grouped, grouped, store_texts (nodup_eraseDups _), keysIn_concat]
  -- A key that is known keeps its place, another comes last.
  have keys : (keysIn mentions ++ [key]).eraseDups =
      if key ∈ (keysIn mentions).eraseDups then (keysIn mentions).eraseDups
      else (keysIn mentions).eraseDups ++ [key] := by
    simp only [eraseDups_concat, List.mem_eraseDups]
  change (keysIn mentions ++ [key]).eraseDups.map _ = _
  rw [keys]
  refine List.map_congr_left fun other _ => ?_
  rw [signaturesUnder_append, signaturesUnder_singleton, Mention.signature?]
  by_cases same : key = other
  · simp [same]
  · simp [same]

section Steps

variable {source : Text} {mentions : List Mention} {l : Loaded}

theorem Built.signatures (h : Built source mentions l) (key : Text) :
    l.table.signatures key = signaturesUnder mentions key := by
  rw [Table.signatures, Table.get?, h.entries, grouped, lookup_texts]
  by_cases known : key ∈ keysIn mentions
  · rw [if_pos (List.mem_eraseDups.mpr known)]
    rfl
  · rw [if_neg (known ∘ List.mem_eraseDups.mp), signaturesUnder_eq_nil_iff.mpr known]
    rfl

theorem Built.add (h : Built source mentions l) (m : Mention) :
    Built source (mentions ++ [m]) (m.add source l) := by
  have told : tellings source [] (mentions ++ [m]) = l.warnings ++ m.told source mentions := by
    rw [h.warnings, tellings_concat, List.nil_append]
  cases m with
  | namelessContract => exact ⟨h.entries.trans (grouped_nameless mentions rfl).symm, told.symm⟩
  | namelessMethod contract =>
    exact ⟨h.entries.trans (grouped_nameless mentions rfl).symm, told.symm⟩
  | method key signature missing =>
    constructor
    · change (Loaded.add .append source key _ signature).table.entries = _
      rw [Loaded.table_add]
      change Table.store key (l.table.signatures key ++ [signature]) l.table.entries = _
      rw [h.signatures, h.entries, grouped_method]
    · -- A key has signatures exactly if it was mentioned before.
      have seen : (true && !(signaturesUnder mentions key).isEmpty) = true ↔
          key ∈ keysIn mentions := by
        simp [signaturesUnder_eq_nil_iff]
      change (Loaded.add ⟨true, false⟩ source key _ signature).warnings = _
      rw [Loaded.warnings_add, told]
      change l.warnings ++ missing ++
        (if (true && !(l.table.signatures key).isEmpty) = true then _ else _) = _
      rw [h.signatures, Mention.told, List.append_assoc, if_congr seen rfl rfl]

theorem built (source : Text) (mentions : List Mention) :
    Built source mentions (mentions.foldl (Mention.add source) .empty) := by
  induction mentions using List.reverseRecOn with
  | nil => exact ⟨rfl, rfl⟩
  | append_singleton mentions m ih =>
    rw [List.foldl_append]
    exact ih.add m

end Steps

def standsUnder (contract key : Text) (method : Json) : Bool :=
  method.isObject && !(nameOf method).isEmpty && contract ++ "." ++ nameOf method = key

/-- The method records under a key in the order of the document, those with a name inside contracts
with a name. -/
def recordsUnder (contracts : List Json) (key : Text) : List Json :=
  contracts.flatMap fun contract =>
    if (nameOf contract).isEmpty then []
    else (methodsOf contract).filter (standsUnder (nameOf contract) key)

section Records

variable {key : Text}

theorem signaturesUnder_mentionedBy (contract : Text) (method : Json) :
    signaturesUnder (mentionedBy contract method) key =
      if standsUnder contract key method then [signatureOf method] else [] := by
  rw [mentionedBy]
  by_cases record : method.isObject = true
  · by_cases blank : (nameOf method).isEmpty = true
    · simp [standsUnder, record, blank, signaturesUnder, Mention.signature?]
    · by_cases same : contract ++ "." ++ nameOf method = key
      · simp [standsUnder, record, blank, same, signaturesUnder, Mention.signature?]
      · simp [standsUnder, record, blank, same, signaturesUnder, Mention.signature?]
  · simp [standsUnder, record, signaturesUnder]

theorem signaturesUnder_methods (contract : Text) (methods : List Json) :
    signaturesUnder (methods.flatMap (mentionedBy contract)) key =
      (methods.filter (standsUnder contract key)).map signatureOf := by
  induction methods with
  | nil => rfl
  | cons method methods ih =>
    rw [List.flatMap_cons, signaturesUnder_append, ih, signaturesUnder_mentionedBy]
    by_cases stands : standsUnder contract key method = true
    · simp [stands]
    · simp [stands]

theorem signaturesUnder_contracts (contracts : List Json) (key : Text) :
    signaturesUnder (contracts.flatMap mentionedIn) key =
      (recordsUnder contracts key).map signatureOf := by
  induction contracts with
  | nil => rfl
  | cons contract contracts ih =>
    rw [List.flatMap_cons, signaturesUnder_append, ih]
    simp only [recordsUnder, List.flatMap_cons, List.map_append]
    congr 1
    rw [mentionedIn]
    by_cases blank : (nameOf contract).isEmpty = true
    · rw [if_pos blank, if_pos blank]
      rfl
    · rw [if_neg blank, if_neg blank]
      exact signaturesUnder_methods (nameOf contract) (methodsOf contract)

end Records

/-- A table that keeps the methods of contract records. -/
structure KeepsMethods (source : Text) (contracts : List Json) (l : Loaded) : Prop where
  -- Under every key stand the signatures of its method records, in their order.
  signatures : ∀ key : Text,
    l.table.signatures key = (recordsUnder contracts key).map signatureOf
  -- Each has as many parameters as its record lists.
  arities : ∀ key : Text, (l.table.signatures key).map Signature.arity =
    (recordsUnder contracts key).map fun method => (parametersOf method).length
  -- There are no other keys, and each stands where it came first.
  entries : l.table.entries = grouped (contracts.flatMap mentionedIn)
  -- All that is missing is told of, and every method that meets others of its key.
  warnings : l.warnings = tellings source [] (contracts.flatMap mentionedIn)

theorem Built.keepsMethods {source : Text} {contracts : List Json} {l : Loaded}
    (h : Built source (contracts.flatMap mentionedIn) l) : KeepsMethods source contracts l := by
  have signatures : ∀ key : Text,
      l.table.signatures key = (recordsUnder contracts key).map signatureOf := fun key =>
    (h.signatures key).trans (signaturesUnder_contracts contracts key)
  refine ⟨signatures, fun key => ?_, h.entries, h.warnings⟩
  rw [signatures, List.map_map]
  exact List.map_congr_left fun method _ => arity_signatureOf method

/-- Contract records whose methods and parameters are lists, with items of any kind, make a table
that keeps every method. Written with capitals they make the same. -/
theorem building_keeps_methods {contracts : List Json} (h : ∀ c ∈ contracts, WellFormed c)
    (source : Text) :
    ∃ l, ofContracts contracts source = .ok l ∧ KeepsMethods source contracts l ∧
      ((∀ c ∈ contracts, Spelled c) →
        ofContracts (contracts.map pascalContract) source = .ok l) := by
  have made := ofContracts_wellFormed h source
  refine ⟨_, made, (built source _).keepsMethods, fun spelled => ?_⟩
  rw [ofContracts_pascal h spelled, made]

/-- A contract with a value that is no method, and twice a method with a parameter that is none. -/
def twicePaid : Json :=
  let method := Json.obj [("name", .str "Pay"),
    ("parameters", .arr [.obj [("name", .str "to"), ("type", .str "Address")], .null])]
  .obj [("name", .str " gas "), ("methods", .arr [.int 5, method, method])]

theorem twice_paid_is_kept :
    WellFormed twicePaid ∧ Spelled twicePaid ∧
      ∃ l, ofContracts [twicePaid] "a.json" = .ok l ∧ KeepsMethods "a.json" [twicePaid] l ∧
        ofContracts [pascalContract twicePaid] "a.json" = .ok l ∧
        (l.table.signatures "gas.Pay").map Signature.arity = [2, 2] ∧
        l.warnings = ["ABI parameter missing name at gas.Pay[1]",
          "ABI parameter missing type at gas.Pay[1]", "ABI parameter missing name at gas.Pay[1]",
          "ABI parameter missing type at gas.Pay[1]", "ABI duplicate method gas.Pay (a.json)"] := by
  have sound : WellFormed twicePaid := by decide +kernel
  have spelled : Spelled twicePaid := by decide +kernel
  obtain ⟨l, made, keeps, same⟩ :=
    building_keeps_methods (List.forall_mem_singleton.mpr sound) "a.json"
  refine ⟨sound, spelled, l, made, keeps, same (List.forall_mem_singleton.mpr spelled), ?_, ?_⟩
  · rw [keeps.arities]
    decide +kernel
  · rw [keeps.warnings]
    decide +kernel

end ChainDecode.Abi
