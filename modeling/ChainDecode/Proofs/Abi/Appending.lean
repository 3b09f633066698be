import ChainDecode.Proofs.Abi.Declared

/-! # Appending tables

A table that is appended to another loses nothing of either: under every key stand the signatures of
both, one behind the other, and each one that met others is reported. A directory's table is made by
appending those of its files in the order of their names.
-/
namespace ChainDecode.Abi

def fitting (signatures : List Signature) (arity : Nat) : List Signature :=
  signatures.filter fun s => s.arity = arity

/-- A call is resolved if a single signature fits, ambiguous if several do, and missing if none
does. -/
structure Resolves (r : Resolution) (fitting : List Signature) : Prop where
  exact : ∀ s, r = .exact s ↔ fitting = [s]
  ambiguous : r = .ambiguous ↔ 2 ≤ fitting.length
  missing : r = .missing ↔ fitting = []

theorem resolves_ofMatches (fitting : List Signature) : Resolves (.ofMatches fitting) fitting := by
  match fitting with
  | [] => exact ⟨by simp [Resolution.ofMatches], by simp [Resolution.ofMatches], by
      simp [Resolution.ofMatches]⟩
  | [s] => exact ⟨by simp [Resolution.ofMatches], by simp [Resolution.ofMatches], by
      simp [Resolution.ofMatches]⟩
  | s :: t :: rest => exact ⟨by simp [Resolution.ofMatches], by simp [Resolution.ofMatches], by
      simp [Resolution.ofMatches]⟩

def Table.Distinct (t : Table) : Prop := t.entries.Pairwise fun e f => (e.1 == f.1) = false

def duplicateWarning (source : Text) (key : Key) : Text :=
  "ABI duplicate method " ++ key.display ++ " (" ++ source ++ ")"

/-- One warning for each signature that comes to others. The first of a key meets none if there were
none before. -/
def duplicates (source : Text) (before : Key → List Signature) (incoming : Table) : List Text :=
  incoming.entries.flatMap fun e =>
    List.replicate (e.2.length - if (before e.1).isEmpty then 1 else 0)
      (duplicateWarning source e.1)

section Steps

variable {warn : Bool} {source : Text}

theorem Table.get?_set (t : Table) (key other : Key) (signatures : List Signature) :
    (t.set key signatures).get? other =
      if key == other then some signatures else t.get? other := lookup_store ..

theorem Loaded.warnings_add (l : Loaded) (key : Key) (s : Signature) :
    (Loaded.add ⟨warn, false⟩ source key l s).warnings =
      l.warnings ++ if warn && !(l.table.signatures key).isEmpty then
        [duplicateWarning source key] else [] := by
  change _ = l.warnings ++ if warn && !((l.table.get? key).getD []).isEmpty then _ else _
  unfold Loaded.add
  cases (l.table.get? key).getD [] with
  | nil => simp
  | cons old rest => cases warn <;> simp [Loaded.warn, duplicateWarning]

theorem Loaded.signatures_addEntry (l : Loaded) (e : Entry) (key : Key) :
    (l.addEntry ⟨warn, false⟩ source e).table.signatures key =
      l.table.signatures key ++ if e.key == key then [e.signature] else [] := by
  rw [signatures_add, MergePolicy.kept, if_neg Bool.false_ne_true]
  by_cases same : (e.key == key) = true
  · rw [if_pos same, if_pos same]
  · rw [if_neg same, if_neg same, List.append_nil]

theorem signatures_appendAll (l : Loaded) (entries : List Entry) (key : Key) :
    (entries.foldl (Loaded.addEntry ⟨warn, false⟩ source) l).table.signatures key =
      l.table.signatures key ++ listed entries key := by
  induction entries generalizing l with
  | nil => simp [listed]
  | cons e entries ih =>
    rw [List.foldl_cons, ih, Loaded.signatures_addEntry, List.append_assoc]
    congr 1
    by_cases same : (e.key == key) = true
    · simp [listed, same]
    · simp [listed, same]

theorem get?_appendAll (l : Loaded) {entries : List Entry} {key : Key}
    (none : listed entries key = []) :
    (entries.foldl (Loaded.addEntry ⟨warn, false⟩ source) l).table.get? key = l.table.get? key := by
  induction entries generalizing l with
  | nil => rfl
  | cons e entries ih =>
    by_cases same : (e.key == key) = true
    · simp [listed, same] at none
    · have others : listed entries key = [] := by simpa [listed, same] using none
      rw [List.foldl_cons, ih _ others, Loaded.addEntry, Loaded.table_add, Table.get?_set,
        if_neg same]

theorem distinct_appendAll {l : Loaded} (h : l.table.Distinct) (entries : List Entry) :
    (entries.foldl (Loaded.addEntry ⟨warn, false⟩ source) l).table.Distinct := by
  induction entries generalizing l with
  | nil => exact h
  | cons e entries ih =>
    refine ih ?_
    rw [Loaded.addEntry, Loaded.table_add]
    exact distinct_store h _ _

theorem signatures_appendKey (l : Loaded) (key other : Key) (signatures : List Signature) :
    (signatures.foldl (Loaded.add ⟨warn, false⟩ source key) l).table.signatures other =
      l.table.signatures other ++ if key == other then signatures else [] := by
  have rows := @signatures_appendAll warn source l (signatures.map (Entry.mk key)) other
  rw [List.foldl_map, listed_mk] at rows
  exact rows

theorem warnings_appendKey (l : Loaded) (key : Key) (signatures : List Signature) :
    (signatures.foldl (Loaded.add ⟨warn, false⟩ source key) l).warnings =
      l.warnings ++
        if warn then
          List.replicate (signatures.length - if (l.table.signatures key).isEmpty then 1 else 0)
            (duplicateWarning source key)
        else [] := by
  induction signatures generalizing l with
  | nil => simp
  | cons s signatures ih =>
    have there : ((Loaded.add ⟨warn, false⟩ source key l s).table.signatures key).isEmpty =
        false := by
      have added := @signatures_appendKey warn source l key key [s]
      rw [List.foldl_cons, List.foldl_nil, Key.beq_self, if_pos rfl] at added
      simp [added]
    rw [List.foldl_cons, ih, Loaded.warnings_add, there]
    cases warn with
    | false => simp
    | true =>
      cases (l.table.signatures key).isEmpty with
      | true => simp
      | false => simp [List.replicate_succ]

theorem warnings_merge {incoming : Table} (distinct : incoming.Distinct) (l : Loaded) :
    (l.merge ⟨warn, false⟩ source incoming).warnings =
      l.warnings ++ if warn then duplicates source l.table.signatures incoming else [] := by
  obtain ⟨entries⟩ := incoming
  induction entries generalizing l with
  | nil => simp [Loaded.merge, duplicates]
  | cons e entries ih =>
    obtain ⟨apart, distinct⟩ := List.pairwise_cons.mp distinct
    have rest := ih (e.2.foldl (Loaded.add ⟨warn, false⟩ source e.1) l) distinct
    have others : duplicates source
        (e.2.foldl (Loaded.add ⟨warn, false⟩ source e.1) l).table.signatures ⟨entries⟩ =
          duplicates source l.table.signatures ⟨entries⟩ := by
      refine List.flatMap_congr fun f member => ?_
      rw [signatures_appendKey, if_neg (Bool.eq_false_iff.mp (apart f member)), List.append_nil]
    rw [others, warnings_appendKey, List.append_assoc] at rest
    refine rest.trans ?_
    cases warn with
    | false => rfl
    | true => rfl

end Steps

/-- What a merge makes of a target and the table that is appended to it. -/
structure Appended (warn : Bool) (source : Text) (target : Loaded) (incoming : Table)
    (merged : Loaded) : Prop where
  -- Under every key stand the target's signatures, and the incoming ones behind them.
  signatures : ∀ key, merged.table.signatures key =
    target.table.signatures key ++ incoming.signatures key
  -- Every other key is left as it was.
  untouched : ∀ key, incoming.signatures key = [] →
    merged.table.get? key = target.table.get? key
  distinct : target.table.Distinct → merged.table.Distinct
  warnings : merged.warnings = target.warnings ++
    if warn then duplicates source target.table.signatures incoming else []
  resolves : ∀ key arity, Resolves (resolve (some merged.table) key arity)
    (fitting (target.table.signatures key) arity ++ fitting (incoming.signatures key) arity)

theorem merge_appends (warn : Bool) (source : Text) (target : Loaded) {incoming : Table}
    (distinct : incoming.Distinct) :
    Appended warn source target incoming (target.merge ⟨warn, false⟩ source incoming) := by
  have signatures : ∀ key,
      (target.merge ⟨warn, false⟩ source incoming).table.signatures key =
        target.table.signatures key ++ incoming.signatures key := fun key => by
    rw [Loaded.merge_eq, signatures_appendAll, Table.listed_rows distinct]
  refine ⟨signatures, fun key none => ?_, fun apart => ?_, warnings_merge distinct target,
    fun key arity => ?_⟩
  · rw [Loaded.merge_eq]
    exact get?_appendAll target ((Table.listed_rows distinct key).trans none)
  · rw [Loaded.merge_eq]
    exact distinct_appendAll apart incoming.rows
  · rw [Table.resolve_eq, signatures, List.filter_append]
    exact resolves_ofMatches _

/-- A file of a directory is read into a table under its name. -/
def Loads (directory : Path) (file : Text × Found) (part : Text × Loaded) : Prop :=
  part.1 = file.1 ∧ ∃ bytes, file.2 = .file bytes ∧
    ofFile (directory.child file.1) bytes = .ok part.2

def Loaded.appendFile (l : Loaded) (part : Text × Loaded) : Loaded :=
  let merged := l.merge .append part.1 part.2.table
  { merged with warnings := merged.warnings ++ part.2.warnings }

/-- The tables of files, appended one after another. -/
def appendFiles (parts : List (Text × Loaded)) : Loaded := parts.foldl Loaded.appendFile .empty

theorem addFile_ok {directory : Path} {l after : Loaded} {file : Text × Found} :
    addFile directory l file = .ok after ↔
      ∃ part, Loads directory file part ∧ l.appendFile part = after := by
  unfold addFile
  simp only [except_bind_ok, Found.bytes_ok]
  constructor
  · rintro ⟨bytes, content, loaded, read, done⟩
    exact ⟨(file.1, loaded), ⟨rfl, bytes, content, read⟩, Except.ok.inj done⟩
  · rintro ⟨⟨name, loaded⟩, ⟨rfl, bytes, content, read⟩, rfl⟩
    exact ⟨bytes, content, loaded, read, rfl⟩

theorem addFiles_ok {directory : Path} {files : List (Text × Found)} {l after : Loaded} :
    files.foldlM (addFile directory) l = .ok after ↔
      ∃ parts, List.Forall₂ (Loads directory) files parts ∧
        parts.foldl Loaded.appendFile l = after := by
  induction files generalizing l with
  | nil =>
    constructor
    · intro done
      exact ⟨[], .nil, Except.ok.inj done⟩
    · rintro ⟨parts, each, rfl⟩
      cases each
      rfl
  | cons file files ih =>
    rw [List.foldlM_cons, except_bind_ok]
    constructor
    · rintro ⟨middle, first, rest⟩
      obtain ⟨part, loads, rfl⟩ := addFile_ok.mp first
      obtain ⟨parts, each, rfl⟩ := ih.mp rest
      exact ⟨part :: parts, .cons loads each, rfl⟩
    · rintro ⟨parts, each, rfl⟩
      cases each with
      | @cons _ part _ parts loads each =>
        exact ⟨l.appendFile part, addFile_ok.mpr ⟨part, loads, rfl⟩, ih.mpr ⟨parts, each, rfl⟩⟩

theorem load_directory {path : Path} {content : List (Text × Found)} {loaded : Loaded} :
    load path (.directory content) = .ok loaded ↔ path.fault? = none ∧
      ∃ parts, List.Forall₂ (Loads path) (jsonFiles content) parts ∧
        appendFiles parts = loaded := by
  unfold load
  cases fault : path.fault? with
  | some f => simp
  | none => simpa [appendFiles] using addFiles_ok

theorem Loads.distinct {directory : Path} {file : Text × Found} {part : Text × Loaded}
    (h : Loads directory file part) : part.2.table.Distinct := by
  obtain ⟨-, bytes, -, read⟩ := h
  obtain ⟨entries, -, lists⟩ := ofFile_lists read
  exact lists.distinct

theorem distinct_of_loads {directory : Path} {files : List (Text × Found)}
    {parts : List (Text × Loaded)} (each : List.Forall₂ (Loads directory) files parts) :
    ∀ part ∈ parts, part.2.table.Distinct := by
  induction each with
  | nil => simp
  | cons loads _ ih => exact List.forall_mem_cons.mpr ⟨loads.distinct, ih⟩

def fileWarnings (before : Key → List Signature) : List (Text × Loaded) → List Text
  | [] => []
  | part :: parts =>
    duplicates part.1 before part.2.table ++ part.2.warnings ++
      fileWarnings (fun key => before key ++ part.2.table.signatures key) parts

/-- What becomes of the tables of files. -/
structure FilesAppended (parts : List (Text × Loaded)) (merged : Loaded) : Prop where
  signatures : ∀ key, merged.table.signatures key =
    parts.flatMap fun part => part.2.table.signatures key
  distinct : merged.table.Distinct
  warnings : merged.warnings = fileWarnings (fun _ => []) parts
  resolves : ∀ key arity, Resolves (resolve (some merged.table) key arity)
    (parts.flatMap fun part => fitting (part.2.table.signatures key) arity)

theorem appendFile_appends (l : Loaded) {part : Text × Loaded}
    (distinct : part.2.table.Distinct) :
    (∀ key, (l.appendFile part).table.signatures key =
      l.table.signatures key ++ part.2.table.signatures key) ∧
    (l.table.Distinct → (l.appendFile part).table.Distinct) ∧
    (l.appendFile part).warnings =
      l.warnings ++ (duplicates part.1 l.table.signatures part.2.table ++ part.2.warnings) := by
  have merged := merge_appends true part.1 l distinct
  refine ⟨merged.signatures, merged.distinct, ?_⟩
  change (l.merge ⟨true, false⟩ part.1 part.2.table).warnings ++ part.2.warnings = _
  rw [merged.warnings, if_pos rfl, List.append_assoc]

theorem appendAll_appends (l : Loaded) {parts : List (Text × Loaded)}
    (each : ∀ part ∈ parts, part.2.table.Distinct) :
    (∀ key, (parts.foldl Loaded.appendFile l).table.signatures key =
      l.table.signatures key ++ parts.flatMap fun part => part.2.table.signatures key) ∧
    (l.table.Distinct → (parts.foldl Loaded.appendFile l).table.Distinct) ∧
    (parts.foldl Loaded.appendFile l).warnings =
      l.warnings ++ fileWarnings l.table.signatures parts := by
  induction parts generalizing l with
  | nil => simp [fileWarnings]
  | cons part parts ih =>
    obtain ⟨one, others⟩ := List.forall_mem_cons.mp each
    obtain ⟨signatures, distinct, warnings⟩ := appendFile_appends l one
    obtain ⟨signatures', distinct', warnings'⟩ := ih (l.appendFile part) others
    refine ⟨fun key => ?_, distinct' ∘ distinct, ?_⟩
    · rw [List.foldl_cons, signatures', signatures, List.flatMap_cons, List.append_assoc]
    · have before : (l.appendFile part).table.signatures =
          fun key => l.table.signatures key ++ part.2.table.signatures key := funext signatures
      rw [List.foldl_cons, warnings', warnings, before, fileWarnings]
      simp only [List.append_assoc]

theorem files_appended {directory : Path} {files : List (Text × Found)}
    {parts : List (Text × Loaded)} (each : List.Forall₂ (Loads directory) files parts) :
    FilesAppended parts (appendFiles parts) := by
  obtain ⟨signatures, apart, warnings⟩ := appendAll_appends .empty (distinct_of_loads each)
  refine ⟨signatures, apart List.Pairwise.nil, warnings, fun key arity => ?_⟩
  have found : fitting ((appendFiles parts).table.signatures key) arity =
      parts.flatMap fun part => fitting (part.2.table.signatures key) arity := by
    rw [show (appendFiles parts).table.signatures key = _ from signatures key]
    exact List.filter_flatMap
  rw [Table.resolve_eq, ← found]
  exact resolves_ofMatches _

theorem lettersPrecede_total (ls ms : List Letter) :
    (Text.lettersPrecede ls ms || Text.lettersPrecede ms ls) = true := by
  induction ls generalizing ms with
  | nil => rfl
  | cons l ls ih =>
    cases ms with
    | nil => rfl
    | cons m ms =>
      have rest := ih ms
      simp only [Text.lettersPrecede, Bool.or_eq_true, Bool.and_eq_true, decide_eq_true_eq]
        at rest ⊢
      rcases Nat.lt_trichotomy l.codePoint m.codePoint with before | same | behind
      · exact Or.inl (Or.inl before)
      · exact rest.imp (fun h => Or.inr ⟨same, h⟩) fun h => Or.inr ⟨same.symm, h⟩
      · exact Or.inr (Or.inl behind)

theorem lettersPrecede_trans {ls ms ns : List Letter} (h : Text.lettersPrecede ls ms = true)
    (k : Text.lettersPrecede ms ns = true) : Text.lettersPrecede ls ns = true := by
  induction ls generalizing ms ns with
  | nil => rfl
  | cons l ls ih =>
    cases ms with
    | nil => cases h
    | cons m ms =>
      cases ns with
      | nil => cases k
      | cons n ns =>
        simp only [Text.lettersPrecede, Bool.or_eq_true, Bool.and_eq_true, decide_eq_true_eq]
          at h k ⊢
        rcases h with h | ⟨h, rest⟩
        · left
          omega
        · rcases k with k | ⟨k, others⟩
          · left
            omega
          · exact Or.inr ⟨h.trans k, ih rest others⟩

theorem jsonFiles_ordered (content : List (Text × Found)) :
    (jsonFiles content).Perm (content.filter fun file => Path.isJsonName file.1) ∧
      (jsonFiles content).Pairwise fun file other => file.1.precedes other.1 = true := by
  refine ⟨List.mergeSort_perm _ _, ?_⟩
  unfold jsonFiles
  apply List.pairwise_mergeSort
  · intro file other third
    exact lettersPrecede_trans
  · intro file other
    exact lettersPrecede_total _ _

/-- Appending loses no signature and makes none up: what resolves a call afterwards are the
signatures of the target and those of the incoming table together. A directory is the same for the
tables of its JSON files in the order of their names. -/
theorem appending_keeps_all :
    (∀ (warn : Bool) (source : Text) (target : Loaded) (incoming : Table), incoming.Distinct →
      Appended warn source target incoming (target.merge ⟨warn, false⟩ source incoming)) ∧
    ∀ (path : Path) (content : List (Text × Found)),
      ((jsonFiles content).Perm (content.filter fun file => Path.isJsonName file.1) ∧
        (jsonFiles content).Pairwise fun file other => file.1.precedes other.1 = true) ∧
      ∀ loaded, load path (.directory content) = .ok loaded ↔ path.fault? = none ∧
        ∃ parts, List.Forall₂ (Loads path) (jsonFiles content) parts ∧
          appendFiles parts = loaded ∧ FilesAppended parts loaded := by
  refine ⟨fun warn source target _ distinct => merge_appends warn source target distinct,
    fun path content => ⟨jsonFiles_ordered content, fun loaded => ?_⟩⟩
  rw [load_directory]
  constructor
  · rintro ⟨sound, parts, each, rfl⟩
    exact ⟨sound, parts, each, rfl, files_appended each⟩
  · rintro ⟨sound, parts, each, made, -⟩
    exact ⟨sound, parts, each, made⟩

/-- A table with one method `gas.Pay`, of which there is a signature for each list of parameters. -/
def payTable (signatures : List (List String)) : Table :=
  ⟨[("gas.Pay", signatures.map fun names =>
    ⟨names.map fun name => ⟨.str name, .str "String"⟩, .null⟩)]⟩

def payMerged : Loaded :=
  Loaded.merge ⟨true, false⟩ "b.json" ⟨payTable [["to"]], []⟩ (payTable [["from"], []])

theorem second_pay_is_ambiguous :
    (payTable [["from"], []]).Distinct ∧
      Appended true "b.json" ⟨payTable [["to"]], []⟩ (payTable [["from"], []]) payMerged ∧
      payMerged.warnings =
        ["ABI duplicate method gas.Pay (b.json)", "ABI duplicate method gas.Pay (b.json)"] ∧
      resolve (some payMerged.table) "gas.Pay" 1 = .ambiguous := by
  have distinct : (payTable [["from"], []]).Distinct := List.pairwise_singleton _ _
  have appended := appending_keeps_all.1 true "b.json" ⟨payTable [["to"]], []⟩ _ distinct
  exact ⟨distinct, appended, by decide +kernel,
    (appended.resolves _ 1).ambiguous.mpr (by decide +kernel)⟩

end ChainDecode.Abi
