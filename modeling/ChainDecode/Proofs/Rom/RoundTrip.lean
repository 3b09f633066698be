import Mathlib.Data.List.FinRange
import ChainDecode.Proofs.Delimiting
import ChainDecode.Proofs.Rom.Tree

/-! # Trees in token data are read back

What is encoded is read and shown as it was, as long as no node lies too deep. Where one does, the
reader stops at the first that it comes to, and at nothing else before.
-/
namespace ChainDecode.Rom

open Buffer (Varint)

def Tree.node : Tree → Node
  | none => .none
  | struct _ keys values =>
    .struct ((List.finRange _).map fun i => ((keys i).node, (values i).node))
  | bytes data => .bytes data.data
  | number n => .number n.value
  | text s => .text s.text
  | timestamp seconds => .timestamp seconds.toNat
  | flag mark => .flag (mark.toNat ≠ 0)
  | enumeration n => .enumeration n.value
  | object data => .object data.data

namespace Tree

theorem fieldName_node (t : Tree) : t.node.fieldName? = t.name? := by
  cases t with
  | flag mark =>
    by_cases zero : mark = 0
    · simp [node, Node.fieldName?, name?, zero]
    · have some : mark.toNat ≠ 0 := by simpa [← UInt8.toNat_inj] using zero
      simp [node, Node.fieldName?, name?, zero, some]
  | _ => rfl

theorem type_node (t : Tree) : t.node.type.name = t.typeName := by
  cases t <;> rfl

theorem objectJson_eq (data : List UInt8) : Node.objectJson data = objectShown data := by
  unfold objectShown
  split
  · next tag reserved key =>
    by_cases size : key.length = 32
    · simp [Node.objectJson, Address.size, Address.ofBytes, size]
    · simp [Node.objectJson, Address.size, Address.ofBytes, size]
  · next other =>
    cases data with
    | nil => rfl
    | cons length rest =>
      by_cases prefixed : length.toNat = Address.size
      · -- Behind the length there are too few bytes for a kind and a key.
        have same : length = 34 := UInt8.toNat_inj.mp prefixed
        match rest, other with
        | [], _ => simp [Node.objectJson, Address.ofBytes]
        | [_], _ => simp [Node.objectJson, Address.ofBytes]
        | tag :: reserved :: key, other => exact absurd (by rw [same]) (other tag reserved key)
      · simp [Node.objectJson, prefixed]

theorem mapM_names {ι : Type} (items : List ι) (names : ι → Option Text) :
    items.mapM names =
      if ∀ x ∈ items, (names x).isSome then some (items.map fun x => (names x).getD "")
      else Option.none := by
  induction items with
  | nil => rfl
  | cons x items ih =>
    rw [List.mapM_cons, ih]
    cases first : names x with
    | none => simp [first]
    | some name =>
      by_cases all : ∀ y ∈ items, (names y).isSome
      · simp [first, if_pos all]
      · simp [first, if_neg all]

theorem nodup_names {n : Nat} {names : Fin n → Option Text} (each : ∀ i, (names i).isSome) :
    ((List.finRange n).map fun i => (names i).getD "").Nodup ↔ Named names := by
  have same : ∀ i j, (names i).getD "" = (names j).getD "" ↔ names i = names j := by
    intro i j
    obtain ⟨a, first⟩ := Option.isSome_iff_exists.mp (each i)
    obtain ⟨b, second⟩ := Option.isSome_iff_exists.mp (each j)
    simp [first, second]
  rw [List.nodup_map_iff_inj_on (List.nodup_finRange n)]
  constructor
  · intro h
    refine ⟨each, fun i j shared => ?_⟩
    exact h i (List.mem_finRange i) j (List.mem_finRange j) ((same i j).mpr shared)
  · intro h i _ j _ shared
    exact h.2 i j ((same i j).mp shared)

/-- The keys can name the members of a record exactly when they can in the tree. -/
theorem fieldNames_node {n : Nat} (keys values : Fin n → Tree) :
    Node.fieldNames? ((List.finRange n).map fun i => ((keys i).node, (values i).node)) =
      if Named fun i => (keys i).name? then
        some ((List.finRange n).map fun i => ((keys i).name?).getD "")
      else Option.none := by
  have found : ((List.finRange n).map fun i => ((keys i).node, (values i).node)).mapM
      (fun e => e.1.fieldName?) = (List.finRange n).mapM fun i => (keys i).name? := by
    rw [List.mapM_map]
    simp only [Function.comp_def, fieldName_node]
  rw [Node.fieldNames?, found, mapM_names]
  by_cases each : ∀ i ∈ List.finRange n, ((keys i).name?).isSome
  · rw [if_pos each]
    simp only [nodup_names fun i => each i (List.mem_finRange i)]
  · have unnamed : ¬ Named fun i => (keys i).name? := fun h => each fun i _ => h.1 i
    rw [if_neg each, if_neg unnamed]

theorem valuesJson_eq (entries : List (Node × Node)) :
    Node.valuesJson entries = entries.map fun e => e.2.valueJson := by
  induction entries with
  | nil => rfl
  | cons e entries ih => rw [Node.valuesJson, ih, List.map_cons]

theorem entriesJson_eq (entries : List (Node × Node)) :
    Node.entriesJson entries = entries.map fun e =>
      .obj [("key_vm_type", .str e.1.type.name), ("key", e.1.valueJson),
        ("value_vm_type", .str e.2.type.name), ("value", e.2.valueJson)] := by
  induction entries with
  | nil => rfl
  | cons e entries ih => rw [Node.entriesJson, ih, List.map_cons]

section Entries

variable {n : Nat} {keys values : Fin n → Tree}

theorem members_node (value : ∀ i, (values i).node.valueJson = (values i).value) :
    ((List.finRange n).map fun i => ((keys i).name?).getD "").zip
        (Node.valuesJson ((List.finRange n).map fun i => ((keys i).node, (values i).node))) =
      members (fun i => (keys i).name?) fun i => (values i).value := by
  simp [valuesJson_eq, members, value, List.zip_map']

theorem entries_node (key : ∀ i, (keys i).node.valueJson = (keys i).value)
    (value : ∀ i, (values i).node.valueJson = (values i).value) :
    Node.entriesJson ((List.finRange n).map fun i => ((keys i).node, (values i).node)) =
      entries (fun i => ((keys i).typeName, (values i).typeName)) (fun i => (keys i).value)
        fun i => (values i).value := by
  simp [entriesJson_eq, entries, key, value, type_node]

end Entries

theorem valueJson_node (t : Tree) : t.node.valueJson = t.value := by
  induction t with
  | object data => exact objectJson_eq data.data
  | flag mark =>
    have same : (mark.toNat ≠ 0) = (mark ≠ 0) := by simp [← UInt8.toNat_inj]
    simp [node, Node.valueJson, value, same]
  | struct count keys values key value =>
    rw [node, Node.valueJson, fieldNames_node, entries_node key value, Tree.value]
    by_cases named : Named fun i => (keys i).name?
    · rw [if_pos named, if_pos named, ← members_node value]
    · rw [if_neg named, if_neg named]
  | _ => rfl

theorem toJson_node (t : Tree) : t.node.toJson = t.shown := by
  cases t with
  | struct count keys values =>
    rw [node, Node.toJson, Node.fields?, fieldNames_node, shown,
      entries_node (fun i => valueJson_node (keys i)) fun i => valueJson_node (values i)]
    by_cases named : Named fun i => (keys i).name?
    · rw [if_pos named, if_pos named, Option.map_some,
        members_node fun i => valueJson_node (values i)]
      rfl
    · rw [if_neg named, if_neg named]
      rfl
  | _ =>
    simp only [shown, ← valueJson_node]
    rfl

section Steps

variable {label : Text} {inner : Read Node} {levels : Nat} {code : UInt8} {bytes : List UInt8}

theorem reads_typed {node : Node} (some : 0 < levels)
    (h : ∀ k offset, levels = k + 1 →
      Reads (Node.readOfType label (Node.read label k) offset code.toNat) bytes node) :
    Reads (Node.read label levels) (code :: bytes) node := by
  cases levels with
  | zero => cases some
  | succ k =>
    exact .position_bind fun offset => Reads.bind (Reads.bufferByte label code) (h k offset rfl)

theorem cuts_typed {short : Fault → Prop}
    (h : ∀ offset, Cuts short (Node.readOfType label (Node.read label levels) offset code.toNat)
      bytes) :
    Cuts short (Node.read label (levels + 1)) (code :: bytes) :=
  .position_bind fun offset => Cuts.after (Reads.bufferByte label code) (h offset)

theorem no_levels : Cuts (· = .nodeDepth) (Node.read label 0) bytes := fun _ => ⟨_, _, rfl, rfl⟩

theorem readStruct_eq {count : Varint} (room : 2 * count.value ≤ bytes.length) (p : Nat) :
    Node.readStruct label inner ⟨p, count.wire ++ bytes⟩ =
      (Node.struct <$> times (Node.readEntry inner) count.value)
        ⟨p + count.wire.length, bytes⟩ := by
  have left : Read.remaining ⟨p + count.wire.length, bytes⟩ =
      .ok bytes.length ⟨p + count.wire.length, bytes⟩ := rfl
  rw [Node.readStruct, bind_ok (Reads.varint_form count p bytes), bind_ok left,
    if_neg (by omega), map_eq_pure_bind]

theorem reads_struct {count : Varint} {entries : List (Node × Node)}
    (room : 2 * count.value ≤ bytes.length)
    (h : Reads (times (Node.readEntry inner) count.value) bytes entries) :
    Reads (Node.readStruct label inner) (count.wire ++ bytes) (.struct entries) := by
  intro p rest
  have fits : 2 * count.value ≤ (bytes ++ rest).length := by
    rw [List.length_append]
    omega
  rw [List.append_assoc, readStruct_eq fits, h.map Node.struct, List.length_append, Nat.add_assoc]

theorem cuts_struct {count : Varint} {short : Fault → Prop}
    (room : 2 * count.value ≤ bytes.length)
    (h : Cuts short (times (Node.readEntry inner) count.value) bytes) :
    Cuts short (Node.readStruct label inner) (count.wire ++ bytes) := by
  intro p
  rw [readStruct_eq room, map_eq_pure_bind]
  exact h.bind (p + count.wire.length)

theorem reads_entry {front back : List UInt8} {key value : Node} (h : Reads inner front key)
    (k : Reads inner back value) :
    Reads (Node.readEntry inner) (front ++ back) (key, value) :=
  h.bind (k.bind_pure _)

theorem cuts_entry {short : Fault → Prop} {front back : List UInt8} (key : Node)
    (h : (∀ rest, Cuts short inner (front ++ rest)) ∨
      Reads inner front key ∧ ∀ rest, Cuts short inner (back ++ rest)) (rest : List UInt8) :
    Cuts short (Node.readEntry inner) (front ++ back ++ rest) := by
  rw [List.append_assoc]
  rcases h with first | ⟨read, second⟩
  · exact (first _).bind
  · exact Cuts.after read (second rest).bind

end Steps

theorem one_le_wire (t : Tree) : 1 ≤ t.wire.length := by
  cases t <;> simp [wire]

theorem two_each {n : Nat} (keys values : Fin n → Tree) :
    2 * n ≤ ((List.finRange n).flatMap fun i => (keys i).wire ++ (values i).wire).length := by
  have each : ∀ items : List (Fin n), 2 * items.length ≤
      (items.flatMap fun i => (keys i).wire ++ (values i).wire).length := by
    intro items
    induction items with
    | nil => simp
    | cons i items ih =>
      have key := one_le_wire (keys i)
      have value := one_le_wire (values i)
      simp only [List.flatMap_cons, List.length_append, List.length_cons]
      omega
  simpa using each (List.finRange n)

theorem reads (label : Text) (t : Tree) {levels : Nat} (shallow : t.height < levels) :
    Reads (Node.read label levels) t.wire t.node := by
  have some : 0 < levels := Nat.zero_lt_of_lt shallow
  induction t generalizing levels with
  | none => exact reads_typed some fun _ _ _ => .pure _
  | bytes data =>
    exact reads_typed some fun _ _ _ => (Reads.bufferArray_form _ data.exact).bind_pure _
  | number n => exact reads_typed some fun _ _ _ => (Reads.bigInteger n.low n.high).bind_pure _
  | text s => exact reads_typed some fun _ _ _ => (Reads.bufferText_form _ s.exact).bind_pure _
  | timestamp seconds =>
    exact reads_typed some fun _ _ _ => (Reads.timestamp label seconds).bind_pure _
  | flag mark => exact reads_typed some fun _ _ _ => (Reads.bufferByte label mark).bind_pure _
  | enumeration n => exact reads_typed some fun _ _ _ => (Reads.varint_form n).bind_pure _
  | object data =>
    exact reads_typed some fun _ _ _ => (Reads.bufferArray_form _ data.exact).bind_pure _
  | struct count keys values key value =>
    refine reads_typed some ?_
    rintro k - rfl
    have below := height_struct_lt.mp shallow
    have entries : Reads
        (times (Node.readEntry (Node.read label k)) (List.finRange count.value).length)
        ((List.finRange count.value).flatMap fun i => (keys i).wire ++ (values i).wire)
        ((List.finRange count.value).map fun i => ((keys i).node, (values i).node)) := by
      apply Reads.times
      intro i _
      have here := below i
      exact reads_entry (key i here.1 (Nat.zero_lt_of_lt here.1))
        (value i here.2 (Nat.zero_lt_of_lt here.2))
    rw [List.length_finRange] at entries
    exact reads_struct (two_each keys values) entries

theorem refused (label : Text) (t : Tree) {levels : Nat} (deep : levels ≤ t.height)
    (rest : List UInt8) :
    Cuts (· = .nodeDepth) (Node.read label levels) (t.wire ++ rest) := by
  induction t generalizing levels rest with
  | struct count keys values key value =>
    cases levels with
    | zero => exact no_levels
    | succ k =>
      -- Entries in front of the first that is too deep are read in full, so no count or length
      -- is what stops the reader.
      have entry : ∀ i, k ≤ (keys i).height ∨ k ≤ (values i).height → ∀ rest,
          Cuts (· = .nodeDepth) (Node.readEntry (Node.read label k))
            ((keys i).wire ++ (values i).wire ++ rest) := by
        intro i below
        apply cuts_entry (keys i).node
        by_cases first : k ≤ (keys i).height
        · exact Or.inl (key i first)
        · exact Or.inr ⟨reads label _ (Nat.lt_of_not_le first),
            value i (below.resolve_left first)⟩
      have each : ∀ i ∈ List.finRange count.value,
          (∃ entry, Reads (Node.readEntry (Node.read label k))
              ((keys i).wire ++ (values i).wire) entry) ∨
            ∀ rest, Cuts (· = .nodeDepth) (Node.readEntry (Node.read label k))
              ((keys i).wire ++ (values i).wire ++ rest) := by
        intro i _
        by_cases below : k ≤ (keys i).height ∨ k ≤ (values i).height
        · exact Or.inr (entry i below)
        · rw [not_or, Nat.not_le, Nat.not_le] at below
          exact Or.inl ⟨_, reads_entry (reads label _ below.1) (reads label _ below.2)⟩
      obtain ⟨i, below⟩ := le_height_struct.mp deep
      have cut := Cuts.times each ⟨i, List.mem_finRange i, entry i below⟩ rest
      rw [List.length_finRange] at cut
      have room := two_each keys values
      rw [wire, List.cons_append, List.append_assoc]
      refine cuts_typed fun offset => cuts_struct ?_ cut
      rw [List.length_append]
      omega
  | _ =>
    cases Nat.le_zero.mp deep
    exact no_levels

end Tree

/-- A tree with no node more than 128 levels below its root is read from exactly its encoding,
whatever follows, and shown as it was. Any other is refused as malformed. -/
theorem trees_are_read_back (label : Text) (t : Tree) (p : Nat) (tail : List UInt8) :
    (t.height ≤ 128 →
      (Node.toJson <$> Node.read label (Node.levelsFrom 0)) ⟨p, t.wire ++ tail⟩ =
        .ok t.shown ⟨p + t.wire.length, tail⟩) ∧
    (128 < t.height →
      ∃ f c, (Node.toJson <$> Node.read label (Node.levelsFrom 0)) ⟨p, t.wire ++ tail⟩ =
        .error f c ∧ f.kind = .format) := by
  have levels : Node.levelsFrom 0 = 129 := rfl
  rw [levels]
  constructor
  · intro shallow
    have read := (t.reads label (Nat.lt_succ_of_le shallow)).map Node.toJson p tail
    rwa [t.toJson_node] at read
  · intro deep
    have refused := t.refused label deep tail
    rw [map_eq_pure_bind]
    obtain ⟨f, c, stop, rfl⟩ := refused.bind (f := fun node => pure node.toJson) p
    exact ⟨_, c, stop, rfl⟩

theorem one_unmarked : (1 : UInt8).toNat < 0xfd := by decide

/-- A tree as the only value of a record, some levels deep. -/
def nested (t : Tree) : Nat → Tree
  | 0 => t
  | levels + 1 => .struct (.byte 1 (by decide)) (fun _ => .flag 1) fun _ => nested t levels

def minusOne : Tree := .number ⟨1, -1, by decide, by decide⟩

/-- The last level that is read, and the first that is not. -/
theorem minusOne_read_back :
    ((nested minusOne 128).height ≤ 128 ∧
      (Node.toJson <$> Node.read "ROM" (Node.levelsFrom 0)) ⟨0, (nested minusOne 128).wire ++ [0]⟩ =
        .ok (nested minusOne 128).shown ⟨0 + (nested minusOne 128).wire.length, [0]⟩) ∧
    128 < (nested minusOne 129).height ∧
      ∃ f c, (Node.toJson <$> Node.read "ROM" (Node.levelsFrom 0))
        ⟨0, (nested minusOne 129).wire ++ [0]⟩ = .error f c ∧ f.kind = .format := by
  have shallow : (nested minusOne 128).height ≤ 128 := by decide +kernel
  have deep : 128 < (nested minusOne 129).height := by decide +kernel
  exact ⟨⟨shallow, (trees_are_read_back "ROM" _ 0 [0]).1 shallow⟩, deep,
    (trees_are_read_back "ROM" _ 0 [0]).2 deep⟩

end ChainDecode.Rom
