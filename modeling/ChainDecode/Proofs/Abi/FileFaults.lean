import ChainDecode.Proofs.Abi.Appending
import ChainDecode.Proofs.Abi.Records

/-! # Files that stop a load

A file stops a load if its bytes are no text, if the text is no JSON, if an integer in it has too
many digits, or if a contract stops at the shape of its methods or parameters. The second alone is
reported as a bad format. A directory stops at the first of its JSON files that stops.
-/
namespace ChainDecode.Abi

def Sound (bytes : List UInt8) : Prop :=
  ∃ text v, Text.Utf8.decode? bytes = some text ∧ Json.read text = .ok v ∧
    ¬ ∃ contract ∈ contractsOf v, ContractStops contract

def Malformed (bytes : List UInt8) : Prop :=
  ∃ text, Text.Utf8.decode? bytes = some text ∧ Json.read text = .error .malformed

/-- A file that stops with a fault that is not reported as a bad format. -/
inductive Unreported (bytes : List UInt8) : Fault → Prop where
  | encoding : Text.Utf8.decode? bytes = none → Unreported bytes .notUtf8
  | digits {text : String} : Text.Utf8.decode? bytes = some text →
      Json.read text = .error .digitLimit → Unreported bytes .digitLimit
  | shape {text : String} {v : Json} : Text.Utf8.decode? bytes = some text →
      Json.read text = .ok v → (∃ contract ∈ contractsOf v, ContractStops contract) →
      Unreported bytes .wrongShape

def FileFault (path : Path) (bytes : List UInt8) (f : Fault) : Prop :=
  (Malformed bytes ∧ f = .abiText path.text) ∨ Unreported bytes f

section Files

variable {path : Path} {bytes : List UInt8} {f : Fault}

theorem Unreported.kind_ne (h : Unreported bytes f) : f.kind ≠ .format := by
  cases h <;> decide

theorem sound_or_faulty (path : Path) (bytes : List UInt8) :
    Sound bytes ∨ ∃ f, FileFault path bytes f := by
  cases decoded : Text.Utf8.decode? bytes with
  | none => exact .inr ⟨_, .inr (.encoding decoded)⟩
  | some text =>
    cases read : Json.read text with
    | error e =>
      cases e with
      | malformed => exact .inr ⟨_, .inl ⟨⟨text, decoded, read⟩, rfl⟩⟩
      | digitLimit => exact .inr ⟨_, .inr (.digits decoded read)⟩
    | ok v =>
      by_cases stops : ∃ contract ∈ contractsOf v, ContractStops contract
      · exact .inr ⟨_, .inr (.shape decoded read stops)⟩
      · exact .inl ⟨text, v, decoded, read, stops⟩

theorem isObject_of_mem_contractsOf {v contract : Json} (member : contract ∈ contractsOf v) :
    contract.isObject = true := by
  cases v with
  | arr items => exact (List.mem_filter.mp member).2
  | obj members =>
    simp only [contractsOf] at member
    split at member
    · exact (List.mem_filter.mp member).2
    · exact (List.mem_filter.mp member).2
    · split at member
      · rw [List.mem_singleton.mp member]
        rfl
      · cases member
  | _ => cases member

theorem Sound.loads (h : Sound bytes) (path : Path) : ∃ loaded, ofFile path bytes = .ok loaded := by
  obtain ⟨text, v, decoded, read, free⟩ := h
  have made := (ofContracts_adds (fun _ => isObject_of_mem_contractsOf) path.name).2 free
  simp only [ofFile, decoded, read, made]
  change ∃ loaded, (if (contractsOf v).isEmpty then _ else _) = Except.ok loaded
  split
  · exact ⟨_, rfl⟩
  · exact ⟨_, rfl⟩

theorem FileFault.stops (h : FileFault path bytes f) : ofFile path bytes = .error f := by
  obtain ⟨⟨text, decoded, read⟩, rfl⟩ | h := h
  · simp only [ofFile, decoded, read]
  · cases h with
    | encoding decoded => simp only [ofFile, decoded]
    | digits decoded read => simp only [ofFile, decoded, read]
    | shape decoded read stops =>
      have stopped := (ofContracts_adds (fun _ => isObject_of_mem_contractsOf) path.name).1 stops
      simp only [ofFile, decoded, read, stopped]
      rfl

theorem Sound.not_faulty (h : Sound bytes) : ¬ FileFault path bytes f := by
  intro faulty
  obtain ⟨loaded, done⟩ := h.loads path
  rw [faulty.stops] at done
  cases done

theorem ofFile_stops : ofFile path bytes = .error f ↔ FileFault path bytes f := by
  refine ⟨fun stopped => ?_, FileFault.stops⟩
  obtain sound | ⟨g, faulty⟩ := sound_or_faulty path bytes
  · obtain ⟨loaded, done⟩ := sound.loads path
    rw [done] at stopped
    cases stopped
  · rw [faulty.stops] at stopped
    cases stopped
    exact faulty

theorem FileFault.format_iff (h : FileFault path bytes f) :
    f.kind = .format ↔ Malformed bytes ∧ f = .abiText path.text := by
  obtain malformed | unreported := h
  · exact ⟨fun _ => malformed, fun ⟨_, same⟩ => by rw [same]; rfl⟩
  · exact ⟨fun format => absurd format unreported.kind_ne, fun ⟨_, same⟩ => by rw [same]; rfl⟩

end Files

/-- The files that are read at a path: the file itself, or the JSON files of a directory, none of
which is a directory, in the order of their names. -/
inductive Found.Offers (path : Path) : Found → List (Path × List UInt8) → Prop where
  | file {bytes : List UInt8} : Offers path (.file bytes) [(path, bytes)]
  | directory {content : List (Text × Found)} {files : List (Text × List UInt8)} :
      jsonFiles content = files.map (fun file => (file.1, .file file.2)) →
      Offers path (.directory content) (files.map fun file => (path.child file.1, file.2))

inductive StopsAt (P : Path → List UInt8 → Prop) : List (Path × List UInt8) → Prop where
  | here {path : Path} {bytes : List UInt8} {rest : List (Path × List UInt8)} :
      P path bytes → StopsAt P ((path, bytes) :: rest)
  | behind {path : Path} {bytes : List UInt8} {rest : List (Path × List UInt8)} :
      Sound bytes → StopsAt P rest → StopsAt P ((path, bytes) :: rest)

theorem StopsAt.mono {P Q : Path → List UInt8 → Prop} {files : List (Path × List UInt8)}
    (imp : ∀ path bytes, P path bytes → Q path bytes) (h : StopsAt P files) : StopsAt Q files := by
  induction h with
  | here p => exact .here (imp _ _ p)
  | behind sound _ ih => exact .behind sound ih

theorem StopsAt.exists_mem {P : Path → List UInt8 → Prop} {files : List (Path × List UInt8)}
    (h : StopsAt P files) : ∃ file ∈ files, P file.1 file.2 := by
  induction h with
  | here p => exact ⟨_, List.mem_cons_self, p⟩
  | behind _ _ ih =>
    obtain ⟨file, member, p⟩ := ih
    exact ⟨file, List.mem_cons_of_mem _ member, p⟩

theorem sound_or_stops (files : List (Path × List UInt8)) :
    (∀ file ∈ files, Sound file.2) ∨
      ∃ f, StopsAt (fun path bytes => FileFault path bytes f) files := by
  induction files with
  | nil => exact .inl (by simp)
  | cons file files ih =>
    obtain sound | ⟨f, faulty⟩ := sound_or_faulty file.1 file.2
    · obtain others | ⟨f, stops⟩ := ih
      · exact .inl (List.forall_mem_cons.mpr ⟨sound, others⟩)
      · exact .inr ⟨f, .behind sound stops⟩
    · exact .inr ⟨f, .here faulty⟩

theorem addFiles_stops {directory : Path} {l : Loaded} {files : List (Text × List UInt8)}
    {f : Fault} :
    (files.map fun file => (file.1, Found.file file.2)).foldlM (addFile directory) l = .error f ↔
      StopsAt (fun path bytes => FileFault path bytes f)
        (files.map fun file => (directory.child file.1, file.2)) := by
  induction files generalizing l with
  | nil => exact ⟨nofun, nofun⟩
  | cons file files ih =>
    obtain ⟨name, bytes⟩ := file
    rw [List.map_cons, List.map_cons, List.foldlM_cons]
    obtain sound | ⟨g, faulty⟩ := sound_or_faulty (directory.child name) bytes
    · obtain ⟨loaded, read⟩ := sound.loads (directory.child name)
      have added : addFile directory l (name, .file bytes) = .ok (l.appendFile (name, loaded)) :=
        addFile_ok.mpr ⟨(name, loaded), ⟨rfl, bytes, rfl, read⟩, rfl⟩
      rw [added]
      refine Iff.trans ih ⟨.behind sound, fun stops => ?_⟩
      cases stops with
      | here faulty => exact absurd faulty sound.not_faulty
      | behind _ rest => exact rest
    · have stopped : addFile directory l (name, .file bytes) = .error g := by
        change ofFile (directory.child name) bytes >>= _ = _
        rw [faulty.stops]
        rfl
      rw [stopped]
      constructor
      · intro same
        cases same
        exact .here faulty
      · intro stops
        cases stops with
        | here other =>
          have same : Except.error g = Except.error f := faulty.stops.symm.trans other.stops
          cases same
          rfl
        | behind sound _ => exact absurd faulty sound.not_faulty

theorem load_stops {path : Path} {found : Found} {files : List (Path × List UInt8)}
    (named : path.fault? = none) (offers : found.Offers path files) (f : Fault) :
    load path found = .error f ↔ StopsAt (fun path bytes => FileFault path bytes f) files := by
  cases offers with
  | @file bytes =>
    simp only [load, named]
    change ofFile path bytes = _ ↔ _
    refine Iff.trans ofFile_stops ⟨fun faulty => .here faulty, fun stops => ?_⟩
    cases stops with
    | here faulty => exact faulty
    | behind _ rest => cases rest
  | directory listed =>
    simp only [load, named, listed]
    exact addFiles_stops

/-- How a load of files ends: in a table, in a report of a bad format, or in another fault. -/
structure LoadEnds (path : Path) (found : Found) (files : List (Path × List UInt8)) : Prop where
  loads : (∃ loaded, load path found = .ok loaded) ↔ ∀ file ∈ files, Sound file.2
  reported : ∀ f, load path found = .error f ∧ f.kind = .format ↔
    StopsAt (fun path bytes => Malformed bytes ∧ f = .abiText path.text) files
  unreported : ∀ f, load path found = .error f ∧ f.kind ≠ .format ↔
    StopsAt (fun _ bytes => Unreported bytes f) files

/-- A load makes a table if all files are sound. Otherwise the first that is not decides, and a bad
format is reported only if that one is no JSON: bytes that are no text, an integer of too many
digits and methods or parameters that are a number or true end in faults of other families. -/
theorem load_ends {path : Path} {found : Found} {files : List (Path × List UInt8)}
    (named : path.fault? = none) (offers : found.Offers path files) :
    LoadEnds path found files := by
  have stops := load_stops named offers
  refine ⟨⟨fun ⟨loaded, done⟩ => ?_, fun sound => ?_⟩, fun f => ?_, fun f => ?_⟩
  · obtain sound | ⟨f, stop⟩ := sound_or_stops files
    · exact sound
    · rw [(stops f).mpr stop] at done
      cases done
  · cases done : load path found with
    | ok loaded => exact ⟨loaded, rfl⟩
    | error f =>
      obtain ⟨file, member, faulty⟩ := ((stops f).mp done).exists_mem
      exact absurd faulty (sound file member).not_faulty
  · rw [stops]
    constructor
    · rintro ⟨stop, format⟩
      exact stop.mono fun _ _ faulty => faulty.format_iff.mp format
    · intro stop
      obtain ⟨file, -, -, same⟩ := stop.exists_mem
      exact ⟨stop.mono fun _ _ malformed => .inl malformed, by rw [same]; rfl⟩
  · rw [stops]
    constructor
    · rintro ⟨stop, other⟩
      refine stop.mono fun _ _ faulty => faulty.resolve_left ?_
      rintro ⟨-, rfl⟩
      exact other rfl
    · intro stop
      obtain ⟨file, -, unreported⟩ := stop.exists_mem
      exact ⟨stop.mono fun _ _ unreported => .inr unreported, unreported.kind_ne⟩

theorem error_of_map {α β ε : Type} {r : Except ε α} {f : α → β} {e : ε}
    (h : r.map f = .error e) : r = .error e := by
  cases r with
  | error _ =>
    cases h
    rfl
  | ok _ => cases h

def countedMethods : String := "[\x7b\"name\": \"gas\", \"methods\": 5\x7d]"

/-- A sound file and another one behind it. -/
def gasFiles : List (Text × List UInt8) :=
  [("a.json", Text.Utf8.encode "[]"), ("b.json", Text.Utf8.encode countedMethods)]

def gasFolder : Found :=
  .directory (("notes", .directory []) :: gasFiles.map fun file => (file.1, .file file.2))

theorem counted_methods_stop :
    (Path.ofText "abi").fault? = none ∧
      gasFolder.Offers (.ofText "abi")
        (gasFiles.map fun file => ((Path.ofText "abi").child file.1, file.2)) ∧
      LoadEnds (.ofText "abi") gasFolder
        (gasFiles.map fun file => ((Path.ofText "abi").child file.1, file.2)) ∧
      load (.ofText "abi") gasFolder = .error .wrongShape := by
  have named : (Path.ofText "abi").fault? = none := by decide +kernel
  have offers : gasFolder.Offers (.ofText "abi")
      (gasFiles.map fun file => ((Path.ofText "abi").child file.1, file.2)) := by
    refine .directory ?_
    have plain : Path.isJsonName "notes" = false := by decide +kernel
    have first : Path.isJsonName "a.json" = true := by decide +kernel
    have second : Path.isJsonName "b.json" = true := by decide +kernel
    have order : Text.precedes "a.json" "b.json" = true := by decide +kernel
    simp [jsonFiles, gasFiles, plain, first, second, List.mergeSort, order]
  have ends := load_ends named offers
  have sound : Sound (Text.Utf8.encode "[]") := by
    refine ⟨"[]", .arr [], by decide +kernel, rfl, ?_⟩
    rintro ⟨_, ⟨⟩, _⟩
  have counted : (ofFile ((Path.ofText "abi").child "b.json")
      (Text.Utf8.encode countedMethods)).map (fun _ => ()) = .error .wrongShape := by
    decide +kernel
  have faulty := ofFile_stops.mp (error_of_map counted)
  exact ⟨named, offers, ends, (load_stops named offers _).mpr
    (.behind sound (.here faulty))⟩

/-- A single byte that begins no character ends in no report of a bad format. -/
theorem stray_byte_is_unreported :
    (Path.ofText "a.json").fault? = none ∧
      (Found.file [0xff]).Offers (.ofText "a.json") [(.ofText "a.json", [0xff])] ∧
      load (.ofText "a.json") (.file [0xff]) = .error .notUtf8 ∧
      Fault.notUtf8.kind ≠ .format := by
  have named : (Path.ofText "a.json").fault? = none := by decide +kernel
  have broken : Unreported [0xff] .notUtf8 := .encoding (by decide +kernel)
  exact ⟨named, .file, (load_stops named .file _).mpr (.here (.inr broken)), broken.kind_ne⟩

end ChainDecode.Abi
