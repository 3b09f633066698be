import ChainDecode.Abi.Entry
import ChainDecode.Abi.Load
import ChainDecode.Proofs.Reading

/-! # What a method table lists

A table is compared with the entries that were added to it, one after another. Appending adds an
entry behind those of its key. Overriding takes the entries of its key and arity away first.
-/
namespace ChainDecode.Abi

namespace Key

/-- One key for all that are the same: a number stands for every form that it has. -/
def canonical (k : Key) : Key :=
  match k.toJson.whole? with
  | some n => .int n
  | none => k

theorem same_iff (k l : Key) : (k == l) = true ↔ k.canonical = l.canonical := by
  change k.toJson.same l.toJson = true ↔ _
  cases k <;> cases l <;>
    simp only [toJson, canonical, Json.same, Json.sameNumber, Json.whole?] <;> grind

@[simp] theorem beq_self (k : Key) : (k == k) = true := (same_iff k k).mpr rfl

theorem beq_comm (k l : Key) : (k == l) = (l == k) := by
  rw [Bool.eq_iff_iff, same_iff, same_iff]
  exact eq_comm

theorem beq_congr {k l : Key} (h : (k == l) = true) (m : Key) : (m == k) = (m == l) := by
  rw [same_iff] at h
  rw [Bool.eq_iff_iff, same_iff, same_iff, h]

end Key

/-- The signatures of a key, none when it is unknown. -/
def Table.signatures (t : Table) (key : Key) : List Signature := (t.get? key).getD []

namespace Table

theorem lookup_store (key other : Key) (signatures : List Signature)
    (entries : List (Key × List Signature)) :
    (store key signatures entries).lookup other =
      if key == other then some signatures else entries.lookup other := by
  rw [Key.beq_comm]
  induction entries with
  | nil =>
    simp only [store, List.lookup_cons, List.lookup_nil]
    cases other == key <;> rfl
  | cons e rest ih =>
    obtain ⟨k, old⟩ := e
    by_cases here : (k == key) = true
    · simp only [store, here, if_true, List.lookup_cons, Key.beq_congr here]
      cases other == key <;> rfl
    · rw [store, if_neg here]
      by_cases found : (other == k) = true
      · have away : (other == key) = false := by
          rw [Key.beq_comm, Key.beq_congr found, Key.beq_comm]
          simpa using here
        simp [List.lookup_cons, found, away]
      · simpa [List.lookup_cons, found] using ih

theorem signatures_set (t : Table) (key other : Key) (signatures : List Signature) :
    (t.set key signatures).signatures other =
      if key == other then signatures else t.signatures other := by
  simp only [Table.signatures, get?, set, lookup_store]
  cases key == other <;> rfl

theorem signatures_congr {k l : Key} (h : (k == l) = true) (t : Table) :
    t.signatures k = t.signatures l := by
  have same : ∀ entries : List (Key × List Signature), entries.lookup k = entries.lookup l := by
    intro entries
    induction entries with
    | nil => rfl
    | cons e rest ih =>
      rw [List.lookup_cons, List.lookup_cons, Key.beq_comm k, Key.beq_comm l, Key.beq_congr h, ih]
  simp only [Table.signatures, get?, same]

theorem resolve_eq (t : Table) (key : Key) (arity : Nat) :
    Abi.resolve (some t) key arity =
      .ofMatches ((t.signatures key).filter fun s => s.arity = arity) := rfl

end Table

/-- A merge adds the entries of a table one after another. -/
def Table.rows (t : Table) : List Entry := t.entries.flatMap fun e => e.2.map (Entry.mk e.1)

def Loaded.addEntry (policy : MergePolicy) (source : Text) (l : Loaded) (e : Entry) : Loaded :=
  l.add policy source e.key e.signature

theorem Loaded.merge_eq (policy : MergePolicy) (source : Text) (l : Loaded) (incoming : Table) :
    l.merge policy source incoming = incoming.rows.foldl (Loaded.addEntry policy source) l := by
  simp only [Loaded.merge, Table.rows, List.foldl_flatMap, List.foldl_map]
  rfl

/-- What stays of the signatures of a key when another comes to it. -/
def MergePolicy.kept (policy : MergePolicy) (s : Signature) (old : List Signature) :
    List Signature :=
  if policy.replaceSameArity then old.filter fun o => o.arity ≠ s.arity else old

theorem Loaded.table_add (policy : MergePolicy) (source : Text) (key : Key) (l : Loaded)
    (s : Signature) :
    (Loaded.add policy source key l s).table =
      l.table.set key (policy.kept s (l.table.signatures key) ++ [s]) := by
  change _ = l.table.set key (policy.kept s ((l.table.get? key).getD []) ++ [s])
  unfold Loaded.add MergePolicy.kept
  cases (l.table.get? key).getD [] with
  | nil => simp
  | cons old rest =>
    cases policy.replaceSameArity with
    | true => rfl
    | false => cases policy.warnOnDuplicate <;> rfl

theorem Loaded.signatures_add (policy : MergePolicy) (source : Text) (l : Loaded) (e : Entry)
    (key : Key) :
    (l.addEntry policy source e).table.signatures key =
      if e.key == key then policy.kept e.signature (l.table.signatures key) ++ [e.signature]
      else l.table.signatures key := by
  rw [Loaded.addEntry, Loaded.table_add, Table.signatures_set]
  by_cases same : (e.key == key) = true
  · rw [if_pos same, if_pos same, Table.signatures_congr same]
  · rw [if_neg same, if_neg same]

/-- The signatures of the entries under a key, in their order. -/
def listed (entries : List Entry) (key : Key) : List Signature :=
  (entries.filter fun e => e.key == key).map (·.signature)

/-- The last signature of an arity among the entries under a key. -/
def latest (entries : List Entry) (key : Key) (arity : Nat) : Option Signature :=
  ((listed entries key).filter fun s => s.arity = arity).getLast?

theorem listed_append (front back : List Entry) (key : Key) :
    listed (front ++ back) key = listed front key ++ listed back key := by
  simp [listed]

theorem listed_mk (key other : Key) (signatures : List Signature) :
    listed (signatures.map (Entry.mk key)) other = if key == other then signatures else [] := by
  by_cases same : (key == other) = true
  · simp [listed, List.filter_map, Function.comp_def, same]
  · simp [listed, List.filter_map, Function.comp_def, same]

theorem latest_append (front back : List Entry) (key : Key) (arity : Nat) :
    latest (front ++ back) key arity = (latest back key arity).or (latest front key arity) := by
  rw [latest, listed_append, List.filter_append, List.getLast?_append]
  rfl

/-- A table that lists entries: each key stands in it once, with the signatures of its entries in
their order. -/
structure Lists (t : Table) (entries : List Entry) : Prop where
  distinct : t.entries.Pairwise fun e f => (e.1 == f.1) = false
  signatures : ∀ key, t.signatures key = listed entries key

theorem lists_empty : Lists .empty [] := ⟨List.Pairwise.nil, fun _ => rfl⟩

theorem Lists.nothing {t : Table} {entries : List Entry} (h : Lists t entries) :
    Lists t (entries ++ []) := by
  rwa [List.append_nil]

theorem mem_store {key : Key} {signatures : List Signature} {e : Key × List Signature}
    {entries : List (Key × List Signature)} (h : e ∈ Table.store key signatures entries) :
    e.1 = key ∨ ∃ f ∈ entries, f.1 = e.1 := by
  induction entries with
  | nil =>
    left
    simp only [Table.store, List.mem_singleton] at h
    rw [h]
  | cons f rest ih =>
    obtain ⟨k, old⟩ := f
    rw [Table.store] at h
    split at h
    · rcases List.mem_cons.mp h with rfl | h
      · exact Or.inr ⟨(k, old), List.mem_cons_self, rfl⟩
      · exact Or.inr ⟨e, List.mem_cons_of_mem _ h, rfl⟩
    · rcases List.mem_cons.mp h with rfl | h
      · exact Or.inr ⟨_, List.mem_cons_self, rfl⟩
      · rcases ih h with same | ⟨g, member, same⟩
        · exact Or.inl same
        · exact Or.inr ⟨g, List.mem_cons_of_mem _ member, same⟩

theorem distinct_store {entries : List (Key × List Signature)}
    (h : entries.Pairwise fun e f => (e.1 == f.1) = false) (key : Key)
    (signatures : List Signature) :
    (Table.store key signatures entries).Pairwise fun e f => (e.1 == f.1) = false := by
  induction entries with
  | nil => simp [Table.store]
  | cons f rest ih =>
    obtain ⟨k, old⟩ := f
    obtain ⟨apart, h⟩ := List.pairwise_cons.mp h
    rw [Table.store]
    by_cases here : (k == key) = true
    · rw [if_pos here]
      exact List.pairwise_cons.mpr ⟨apart, h⟩
    · rw [if_neg here]
      refine List.pairwise_cons.mpr ⟨?_, ih h⟩
      intro e member
      rcases mem_store member with same | ⟨g, old, same⟩
      · rw [same]
        simpa using here
      · rw [← same]
        exact apart g old

theorem Lists.append {l : Loaded} {entries : List Entry} (h : Lists l.table entries) (warn : Bool)
    (source : Text) (e : Entry) :
    Lists (l.addEntry ⟨warn, false⟩ source e).table (entries ++ [e]) where
  distinct := by
    rw [Loaded.addEntry, Loaded.table_add]
    exact distinct_store h.distinct _ _
  signatures := by
    intro key
    rw [Loaded.signatures_add, listed_append, h.signatures]
    by_cases same : (e.key == key) = true
    · simp [same, MergePolicy.kept, listed]
    · simp [same, listed]

theorem Lists.append_all {l : Loaded} {entries : List Entry} (h : Lists l.table entries)
    (warn : Bool) (source : Text) (more : List Entry) :
    Lists (more.foldl (Loaded.addEntry ⟨warn, false⟩ source) l).table (entries ++ more) := by
  induction more generalizing l entries with
  | nil => simpa using h
  | cons e more ih =>
    have rest := ih (h.append warn source e)
    rwa [List.append_assoc] at rest

theorem listed_rows_cons (key other : Key) (signatures : List Signature)
    (rest : List (Key × List Signature)) :
    listed (Table.mk ((key, signatures) :: rest)).rows other =
      (if key == other then signatures else []) ++ listed (Table.mk rest).rows other := by
  rw [Table.rows, List.flatMap_cons, listed_append, listed_mk]
  rfl

theorem Table.listed_rows {t : Table}
    (distinct : t.entries.Pairwise fun e f => (e.1 == f.1) = false) (key : Key) :
    listed t.rows key = t.signatures key := by
  obtain ⟨rows⟩ := t
  induction rows with
  | nil => rfl
  | cons e rest ih =>
    obtain ⟨k, signatures⟩ := e
    obtain ⟨apart, distinct⟩ := List.pairwise_cons.mp distinct
    rw [listed_rows_cons, ih distinct, Table.signatures, Table.signatures, Table.get?, Table.get?,
      List.lookup_cons, Key.beq_comm]
    by_cases here : (key == k) = true
    · -- No key behind the first is the same.
      have none : rest.lookup key = none := by
        rw [List.lookup_eq_none_iff]
        intro e member
        have away : (key == e.1) = false := by
          rw [Key.beq_comm, Key.beq_congr here, Key.beq_comm]
          exact apart e member
        simp [bne, away]
      simp [here, none]
    · simp [here]

theorem Lists.rows {t : Table} {entries : List Entry} (h : Lists t entries) (key : Key) :
    listed t.rows key = listed entries key := by
  rw [Table.listed_rows h.distinct, h.signatures]

theorem Lists.merge {l : Loaded} {t : Table} {entries more : List Entry}
    (h : Lists l.table entries) (k : Lists t more) (warn : Bool) (source : Text) :
    Lists (l.merge ⟨warn, false⟩ source t).table (entries ++ more) := by
  have all := h.append_all warn source t.rows
  rw [← Loaded.merge_eq] at all
  refine ⟨all.distinct, fun key => ?_⟩
  rw [all.signatures, listed_append, listed_append, k.rows]

theorem Lists.latest {t : Table} {entries : List Entry} (h : Lists t entries) (key : Key)
    (arity : Nat) : latest t.rows key arity = latest entries key arity := by
  rw [Abi.latest, Abi.latest, h.rows]

end ChainDecode.Abi
