import ChainDecode.Command.Run
import ChainDecode.Proofs.Abi.Declared

/-! # Which signature a call is resolved with

Overriding with a table decides every key and number of arguments that it lists, and nothing else.
A request's table is made by two such steps on top of the builtin signatures.
-/
namespace ChainDecode.Abi

section Overriding

variable {warn : Bool} {source : Text}

theorem resolve_addEntry (l : Loaded) (e : Entry) (key : Key) (arity : Nat) :
    resolve (some (l.addEntry ⟨warn, true⟩ source e).table) key arity =
      if (e.key == key) = true ∧ e.signature.arity = arity then .exact e.signature
      else resolve (some l.table) key arity := by
  rw [Table.resolve_eq, Table.resolve_eq, Loaded.signatures_add]
  by_cases same : (e.key == key) = true
  · by_cases fits : e.signature.arity = arity
    · -- The signatures of this arity are gone, so the new one is the only match.
      have gone : (MergePolicy.kept ⟨warn, true⟩ e.signature (l.table.signatures key)).filter
          (fun s => s.arity = arity) = [] := by
        simp [MergePolicy.kept, fits]
      rw [if_pos same, if_pos ⟨same, fits⟩, List.filter_append, gone]
      simp [fits, Resolution.ofMatches]
    · have stay : (MergePolicy.kept ⟨warn, true⟩ e.signature (l.table.signatures key)).filter
          (fun s => s.arity = arity) =
            (l.table.signatures key).filter fun s => s.arity = arity := by
        simp only [MergePolicy.kept, if_true, List.filter_filter]
        apply List.filter_congr
        intro s _
        by_cases other : s.arity = arity
        · have apart : s.arity ≠ e.signature.arity := fun h => fits (h.symm.trans other)
          simp [other, other ▸ apart]
        · simp [other]
      rw [if_pos same, if_neg (fun h => fits h.2), List.filter_append, stay]
      simp [fits]
  · rw [if_neg same, if_neg fun h => same h.1]

theorem latest_cons (e : Entry) (entries : List Entry) (key : Key) (arity : Nat) :
    latest (e :: entries) key arity =
      (latest entries key arity).or
        (if (e.key == key) = true ∧ e.signature.arity = arity then some e.signature else none) := by
  rw [← List.singleton_append, latest_append]
  congr 1
  by_cases same : (e.key == key) = true
  · by_cases fits : e.signature.arity = arity
    · simp [latest, listed, same, fits]
    · simp [latest, listed, same, fits]
  · simp [latest, listed, same]

/-- Of the entries of a key and arity the last one decides. Without any the call is resolved as it
was before. -/
theorem resolve_addEntries (l : Loaded) (entries : List Entry) (key : Key) (arity : Nat) :
    resolve (some (entries.foldl (Loaded.addEntry ⟨warn, true⟩ source) l).table) key arity =
      (latest entries key arity).elim (resolve (some l.table) key arity) .exact := by
  induction entries generalizing l with
  | nil => rfl
  | cons e entries ih =>
    rw [List.foldl_cons, ih, resolve_addEntry, latest_cons]
    cases latest entries key arity with
    | some later => rfl
    | none =>
      by_cases here : (e.key == key) = true ∧ e.signature.arity = arity
      · simp [here]
      · simp [here]

theorem resolve_merge (l : Loaded) (incoming : Table) (key : Key) (arity : Nat) :
    resolve (some (l.merge ⟨warn, true⟩ source incoming).table) key arity =
      (latest incoming.rows key arity).elim (resolve (some l.table) key arity) .exact := by
  rw [Loaded.merge_eq, resolve_addEntries]

end Overriding

end ChainDecode.Abi

namespace ChainDecode.Command

open Abi (Found Entry Key Loaded Table Lists declared latest resolve)

/-- What the file or directory that was asked for declares. -/
def FilesDeclare (s : Settings) (found : Found) (entries : List Entry) : Prop :=
  if s.abi.path?.isSome then found.Declares entries else entries = []

/-- What the contracts declare that the node tells of, if they were asked for. -/
def ChainDeclares (s : Settings) (network : Node.Network) (entries : List Entry) : Prop :=
  if s.resolve then
    ∃ url contracts session, given s.rpc = some url ∧
      Node.contracts (.str "main") (.bool true) (.start url network) = .ok contracts session ∧
      declared contracts = .ok entries
  else entries = []

theorem resolve_override (source : Text) (l incoming : Loaded) (entries : List Entry)
    (h : Lists incoming.table entries) (key : Key) (arity : Nat) :
    resolve (some (override source l incoming).table) key arity =
      (latest entries key arity).elim (resolve (some l.table) key arity) .exact := by
  rw [← h.latest]
  exact Abi.resolve_merge l incoming.table key arity

theorem ofExcept_ok {α : Type} {x : Except Fault α} {a : α} {network later : Node.Network}
    (h : Job.ofExcept x network = .ok a later) : x = .ok a ∧ network = later := by
  cases x with
  | ok b =>
    cases h
    exact ⟨rfl, rfl⟩
  | error f => cases h

theorem ask_ok {α : Type} {url : Text} {talk : Node.Talk α} {a : α} {network later : Node.Network}
    (h : Job.ask url talk network = .ok (.ok a) later) :
    ∃ session, talk (.start url network) = .ok a session := by
  unfold Job.ask at h
  cases told : talk (.start url network) with
  | ok b session =>
    rw [told] at h
    cases h
    exact ⟨session, rfl⟩
  | error f session =>
    rw [told] at h
    cases h

theorem nodeUrl_ok {s : Settings} {flag : String} {url : Text} {network later : Node.Network}
    (h : nodeUrl s flag network = .ok url later) : given s.rpc = some url ∧ network = later := by
  unfold nodeUrl at h
  cases node : given s.rpc with
  | none =>
    rw [node] at h
    cases h
  | some there =>
    rw [node] at h
    cases h
    exact ⟨rfl, rfl⟩

theorem addFiles_resolves {s : Settings} {found : Found} {l after : Loaded}
    {network later : Node.Network} (done : addFiles s found l network = .ok after later) :
    network = later ∧ ∃ entries, FilesDeclare s found entries ∧ ∀ key arity,
      resolve (some after.table) key arity =
        (latest entries key arity).elim (resolve (some l.table) key arity) .exact := by
  unfold addFiles at done
  unfold FilesDeclare
  cases asked : s.abi.path? with
  | none =>
    simp only [asked] at done
    cases done
    exact ⟨rfl, [], by simp, fun _ _ => rfl⟩
  | some path =>
    simp only [asked] at done
    obtain ⟨loaded, kept, read, done⟩ := of_bind_ok done
    obtain ⟨loads, rfl⟩ := ofExcept_ok read
    cases done
    obtain ⟨entries, declares, lists⟩ := Abi.load_lists loads
    exact ⟨rfl, entries, by simpa using declares, resolve_override "abi" l loaded entries lists⟩

theorem addContracts_resolves {s : Settings} {l after : Loaded} {network later : Node.Network}
    (done : addContracts s l network = .ok after later) :
    ∃ entries, ChainDeclares s network entries ∧ ∀ key arity,
      resolve (some after.table) key arity =
        (latest entries key arity).elim (resolve (some l.table) key arity) .exact := by
  unfold addContracts at done
  unfold ChainDeclares
  by_cases asked : s.resolve = true
  · simp only [if_pos asked] at done ⊢
    obtain ⟨url, kept, node, done⟩ := of_bind_ok done
    obtain ⟨url?, rfl⟩ := nodeUrl_ok node
    obtain ⟨answer, told, ask, done⟩ := of_bind_ok done
    obtain ⟨contracts, heard, records, done⟩ := of_bind_ok done
    obtain ⟨rfl, rfl⟩ := ofExcept_ok records
    obtain ⟨session, talk⟩ := ask_ok ask
    obtain ⟨loaded, made, built, done⟩ := of_bind_ok done
    obtain ⟨table, rfl⟩ := ofExcept_ok built
    cases done
    obtain ⟨entries, declares, lists⟩ := Abi.ofContracts_lists table
    exact ⟨entries, ⟨url, contracts, session, url?, talk, declares⟩,
      resolve_override "rpc" l loaded entries lists⟩
  · simp only [if_neg asked] at done ⊢
    cases done
    exact ⟨[], rfl, fun _ _ => rfl⟩

theorem addContracts_addFiles {s : Settings} {found : Found} {l : Loaded}
    {network later : Node.Network} (target : Table)
    (done : (addFiles s found ⟨target, []⟩ >>= addContracts s) network = .ok l later) :
    ∃ files chain, FilesDeclare s found files ∧ ChainDeclares s network chain ∧
      ∀ key arity, resolve (some l.table) key arity =
        ((latest chain key arity).or (latest files key arity)).elim
          (resolve (some target) key arity) .exact := by
  obtain ⟨middle, between, first, second⟩ := of_bind_ok done
  obtain ⟨rfl, files, declare, resolved⟩ := addFiles_resolves first
  obtain ⟨chain, told, overridden⟩ := addContracts_resolves second
  refine ⟨files, chain, declare, told, fun key arity => ?_⟩
  rw [overridden, resolved]
  cases latest chain key arity with
  | some last => rfl
  | none => rfl

/-- A table that overrides another decides what it lists, by the last signature of a key and arity,
and leaves the rest of the target as it was. So a request's table uses the last signature that the
node told of, without one the last of the user's files, and without either the builtin ones. -/
theorem overrides_decide :
    (∀ (warn : Bool) (source : Text) (target : Loaded) (incoming : Table) (key : Key) (arity : Nat),
      resolve (some (target.merge ⟨warn, true⟩ source incoming).table) key arity =
        (latest incoming.rows key arity).elim (resolve (some target.table) key arity) .exact) ∧
    ∀ (s : Settings) (found : Found) (network later : Node.Network) (l : Loaded),
      loadTable s found network = .ok l later →
      ∃ files chain, FilesDeclare s found files ∧ ChainDeclares s network chain ∧
        ∀ key arity, resolve (some l.table) key arity =
          ((latest chain key arity).or (latest files key arity)).elim
            (resolve (some Abi.Builtin.table) key arity) .exact := by
  constructor
  · intro warn source target incoming key arity
    exact Abi.resolve_merge target incoming key arity
  · intro s found network later l done
    exact addContracts_addFiles Abi.Builtin.table done

/-- A request for the signatures in `abi.json` and those of the contracts on the chain. -/
def payRequest : Settings :=
  { Settings.default with
    abi := .path (.ofText "abi.json")
    rpc := some "http://localhost:5172/rpc"
    resolve := true }

def payFile : Found :=
  .file (Text.Utf8.encode
    ("[\x7b\"name\":\"gas\",\"methods\":[\x7b\"name\":\"Pay\"," ++
      "\"parameters\":[\x7b\"name\":\"a\",\"type\":\"String\"\x7d]\x7d]\x7d]"))

/-- A node that tells of another `Pay` with one parameter. -/
def payNetwork : Node.Network :=
  .ofReplies [.answered (.int 200)
    ("\x7b\"result\":[\x7b\"name\":\"gas\",\"methods\":[\x7b\"name\":\"Pay\"," ++
      "\"parameters\":[\x7b\"name\":\"b\",\"type\":\"Number\"\x7d]\x7d]\x7d]\x7d")]

theorem pay_overridden :
    ∃ l later, loadTable payRequest payFile payNetwork = .ok l later ∧
      ∃ files chain, FilesDeclare payRequest payFile files ∧
        ChainDeclares payRequest payNetwork chain ∧
        ∀ key arity, resolve (some l.table) key arity =
          ((latest chain key arity).or (latest files key arity)).elim
            (resolve (some Abi.Builtin.table) key arity) .exact := by
  have runs : (match loadTable payRequest payFile payNetwork with
      | .ok .. => true
      | .error .. => false) = true := by
    decide +kernel
  cases done : loadTable payRequest payFile payNetwork with
  | ok l later => exact ⟨l, later, rfl, overrides_decide.2 _ _ _ later l done⟩
  | error f later =>
    rw [done] at runs
    cases runs

end ChainDecode.Command
