import ChainDecode.Proofs.Carbon.LookAhead

/-! # How far dynamic values outgrow their bytes

Every record and every value of a dynamic value takes a byte of its own, except for the elements of
Dynamic arrays, which take none. Their count is only compared with the bytes that are left, and the
next array compares its own with the same bytes. So their number is bounded by the square of the
input's length, and by nothing less.
-/
namespace ChainDecode.Carbon

mutual

/-- The records and values in a value, itself included and the items of lists one by one. -/
def Value.entries : Value → Nat
  | .list items => Value.itemEntries items + 1
  | .record fields => Value.fieldEntries fields + 1
  | _ => 1

def Value.itemEntries : List Value → Nat
  | [] => 0
  | v :: rest => v.entries + Value.itemEntries rest

/-- A name and a type are part of their record, so only the value beside them counts. -/
def Value.fieldEntries : List (String × Value) → Nat
  | [] => 0
  | (name, v) :: rest => (if name = "value" then v.entries else 0) + Value.fieldEntries rest

end

mutual

def Value.hollows : Value → Nat
  | .list items => items.countP Value.isAbsent + Value.itemHollows items
  | .record fields => Value.fieldHollows fields
  | _ => 0

def Value.itemHollows : List Value → Nat
  | [] => 0
  | v :: rest => v.hollows + Value.itemHollows rest

def Value.fieldHollows : List (String × Value) → Nat
  | [] => 0
  | (_, v) :: rest => v.hollows + Value.fieldHollows rest

end

theorem hollowItems (n : Nat) :
    (Value.list (List.replicate n .absent)).entries = n + 1 ∧
      (Value.list (List.replicate n .absent)).hollows = n := by
  have each : Value.itemEntries (List.replicate n .absent) = n ∧
      Value.itemHollows (List.replicate n .absent) = 0 := by
    induction n with
    | zero => exact ⟨rfl, rfl⟩
    | succ n ih =>
      obtain ⟨entries, hollows⟩ := ih
      rw [List.replicate_succ, Value.itemEntries, Value.itemHollows, entries, hollows]
      exact ⟨Nat.add_comm 1 n, rfl⟩
  have all : (List.replicate n Value.absent).countP Value.isAbsent = n := by
    rw [List.countP_replicate]
    rfl
  rw [Value.entries, Value.hollows, each.1, each.2, all]
  exact ⟨rfl, rfl⟩

/-- What was read between two places takes a byte for each entry that is not hollow, some of them
on credit. The hollow ones are spread over arrays of five bytes each, in each of which there are at
most as many as there are bytes in front of all. -/
structure Within (credit : Nat) (before after : Cursor) (entries hollows : Nat) : Prop where
  paid : after.remaining + entries ≤ before.remaining + hollows + credit
  spread : ∃ arrays, after.remaining + 5 * arrays ≤ before.remaining + credit ∧
    hollows ≤ arrays * before.remaining

namespace Within

variable {credit later entries hollows : Nat} {before between after : Cursor}

theorem solid (h : after.remaining + entries ≤ before.remaining + credit) :
    Within credit before after entries 0 where
  paid := by omega
  spread := ⟨0, by omega, Nat.zero_le _⟩

theorem append {more others : Nat} (h : Within credit before between entries hollows)
    (k : Within 0 between after more others) (le : between.remaining ≤ before.remaining) :
    Within credit before after (entries + more) (hollows + others) where
  paid := by
    have first := h.paid
    have second := k.paid
    omega
  spread := by
    obtain ⟨arrays, bytes, few⟩ := h.spread
    obtain ⟨further, bytes', few'⟩ := k.spread
    have wider : further * between.remaining ≤ further * before.remaining :=
      Nat.mul_le_mul_left further le
    refine ⟨arrays + further, by omega, ?_⟩
    rw [Nat.add_mul]
    omega

theorem behind (more : Nat) (h : Within later between after entries hollows)
    (le : between.remaining ≤ before.remaining)
    (pays : between.remaining + later + more ≤ before.remaining + credit) :
    Within credit before after (entries + more) hollows where
  paid := by
    have inner := h.paid
    omega
  spread := by
    obtain ⟨arrays, bytes, few⟩ := h.spread
    exact ⟨arrays, by omega, Nat.le_trans few (Nat.mul_le_mul_left arrays le)⟩

end Within

def Grows (r : Read Value) : Prop :=
  ∀ c v d, r c = .ok v d → v.isAbsent = false ∧ Within 0 c d v.entries v.hollows

theorem leaf_grows {r : Read Value} (takes : Takes 1 r)
    (leaf : Yields (fun v => v.isAbsent = false ∧ v.entries = 1 ∧ v.hollows = 0) r) : Grows r := by
  intro c v d read
  obtain ⟨visible, one, none⟩ := leaf c v d read
  have taken := takes c v d read
  rw [one, none]
  exact ⟨visible, .solid taken⟩

theorem items_grow {item : Read Value} (h : Grows item) (n : Nat) {c d : Cursor}
    {items : List Value} (read : times item n c = .ok items d) :
    items.countP Value.isAbsent = 0 ∧ d.remaining ≤ c.remaining ∧
      Within 0 c d (Value.itemEntries items) (Value.itemHollows items) := by
  induction n generalizing c items with
  | zero =>
    cases read
    exact ⟨rfl, Nat.le_refl _, .solid (Nat.le_refl _)⟩
  | succ n ih =>
    obtain ⟨v, e, first, read⟩ := of_bind_ok read
    obtain ⟨rest, _, others, read⟩ := of_bind_ok read
    cases read
    obtain ⟨visible, account⟩ := h c v e first
    obtain ⟨none, le, accounts⟩ := ih others
    have paid := account.paid
    obtain ⟨arrays, bytes, -⟩ := account.spread
    have nearer : e.remaining ≤ c.remaining := by omega
    rw [Value.itemEntries, Value.itemHollows]
    exact ⟨by simp [visible, none], Nat.le_trans le nearer, account.append accounts nearer⟩

theorem count_leaves {c d : Cursor} {n : Nat} (read : Stream.count c = .ok n d) :
    d.remaining + 4 ≤ c.remaining ∧ n ≤ d.remaining := by
  refine ⟨Takes.count c n d read, ?_⟩
  obtain ⟨count, e, -, read⟩ := of_bind_ok read
  rw [bind_get] at read
  split at read
  · cases read
  split at read
  · cases read
  · cases read
    omega

theorem list_grows {item : Read Value} (h : Grows item) (credit : Nat) {c d e : Cursor} {n : Nat}
    {items : List Value} (count : Stream.count c = .ok n e) (read : times item n e = .ok items d) :
    Within credit c d (Value.list items).entries (Value.list items).hollows := by
  obtain ⟨four, -⟩ := count_leaves count
  obtain ⟨none, -, account⟩ := items_grow h n read
  rw [Value.entries, Value.hollows, none, Nat.zero_add]
  exact account.behind 1 (by omega) (by omega)

section Struct

variable {struct : Read Value}

theorem element_grows (takes : Takes 1 struct) (grows : Grows struct) {base : Nat}
    (visible : base ≠ 0) : Grows (readElement struct base) := by
  have taken := element_takes takes visible
  unfold readElement at taken ⊢
  split at taken
  -- Whatever else is read is one piece behind bytes of its own.
  any_goals exact leaf_grows taken (.after fun _ => .pure ⟨rfl, rfl, rfl⟩)
  · exact absurd rfl visible
  · exact grows
  · intro c v d read
    cases read

/-- A value may owe one byte, which its type byte pays. -/
theorem typed_grows (takes : Takes 1 struct) (grows : Grows struct) (code : UInt8) {c d : Cursor}
    {v : Value} (read : readTyped struct code c = .ok v d) : Within 1 c d v.entries v.hollows := by
  unfold readTyped at read
  by_cases dynamic : baseOf code = 0
  · have absent : readElement struct (baseOf code) = pure .absent := by
      rw [dynamic]
      rfl
    rw [absent] at read
    split at read
    -- The elements are paid by nothing, but the bytes behind the count are as many.
    · obtain ⟨n, e, count, read⟩ := of_bind_ok read
      obtain ⟨four, room⟩ := count_leaves count
      rw [times_pure] at read
      cases read
      obtain ⟨entries, hollows⟩ := hollowItems n
      rw [entries, hollows]
      exact ⟨by omega, 1, by omega, by omega⟩
    · cases read
      exact .solid (Nat.le_refl _)
  · have element := element_grows takes grows dynamic
    split at read
    · obtain ⟨n, e, count, read⟩ := of_bind_ok read
      obtain ⟨items, _, all, read⟩ := of_bind_ok read
      cases read
      exact list_grows element 1 count all
    · exact (element c v d read).2.behind 0 (Nat.le_refl _) (by omega)

theorem variableFields_grow (takes : Takes 1 struct) (grows : Grows struct) {c d : Cursor}
    {fields : List (String × Value)} (read : readVariableFields struct c = .ok fields d) :
    Within 0 c d (Value.fieldEntries fields) (Value.fieldHollows fields) := by
  obtain ⟨code, e, byte, read⟩ := of_bind_ok read
  obtain ⟨v, _, typed, read⟩ := of_bind_ok read
  cases read
  have taken := Takes.word 1 c code e byte
  have account : Within 0 c d v.entries v.hollows :=
    (typed_grows takes grows _ typed).behind 0 (by omega) (by omega)
  simpa [Value.fieldEntries, Value.fieldHollows, Value.hollows] using account

end Struct

theorem named_grows {readFields : Read (List (String × Value))}
    (h : ∀ {c d fields}, readFields c = .ok fields d →
      Within 0 c d (Value.fieldEntries fields) (Value.fieldHollows fields)) :
    Grows (readNamed readFields) := by
  intro c v d read
  obtain ⟨name, e, text, read⟩ := of_bind_ok read
  obtain ⟨fields, _, rest, read⟩ := of_bind_ok read
  cases read
  have taken := Takes.smallText c name e text
  have account : Within 0 c d (Value.fieldEntries fields + 1) (Value.fieldHollows fields) :=
    (h rest).behind 1 (by omega) (by omega)
  refine ⟨rfl, ?_⟩
  simpa [Value.entries, Value.hollows, Value.fieldEntries, Value.fieldHollows] using account

theorem dynamic_grows (levels : Nat) :
    Grows (readStruct levels) ∧ ∀ {c d fields}, readVariable levels c = .ok fields d →
      Within 0 c d (Value.fieldEntries fields) (Value.fieldHollows fields) := by
  induction levels with
  | zero =>
    constructor
    · intro c v d read
      cases read
    · intro c d fields read
      cases read
  | succ levels ih =>
    obtain ⟨struct, fields⟩ := ih
    constructor
    · intro c v d read
      obtain ⟨n, e, count, read⟩ := of_bind_ok read
      obtain ⟨items, _, all, read⟩ := of_bind_ok read
      cases read
      exact ⟨rfl, list_grows (named_grows fields) 0 count all⟩
    · intro c d fields read
      exact variableFields_grow (dynamic_takes levels).1 struct read

def hollowField (n : Nat) : List UInt8 := 0 :: 128 :: Number.toSignedBytes 4 n

def hollowStruct (fields n : Nat) : List UInt8 :=
  Number.toSignedBytes 4 fields ++ (List.replicate fields (hollowField n)).flatten

def hollowRecord (n : Nat) : Value :=
  .record [("name", .text ""), ("type", .typeName 128), ("value", .list (List.replicate n .absent))]

theorem length_hollowFields (fields n : Nat) :
    ((List.replicate fields (hollowField n)).flatten).length = 6 * fields := by
  have one : (hollowField n).length = 6 := by
    simp [hollowField]
  rw [List.length_flatten, List.map_replicate, one, List.sum_replicate_nat, Nat.mul_comm]

theorem hollowField_read {n : Nat} (small : Reads.IsCount n) (levels p : Nat) {behind : List UInt8}
    (room : n ≤ behind.length) :
    readNamed (readVariable (levels + 1)) ⟨p, hollowField n ++ behind⟩ =
      .ok (hollowRecord n) ⟨p + 6, behind⟩ := by
  have code (rest : List UInt8) : Stream.word 1 ⟨p + 1, 128 :: rest⟩ = .ok 128 ⟨p + 2, rest⟩ := rfl
  have elements : readTyped (readStruct levels) 128 ⟨p + 2, Number.toSignedBytes 4 n ++ behind⟩ =
      .ok (.list (List.replicate n .absent)) ⟨p + 6, behind⟩ := by
    rw [typed_dynamicArray, bind_ok (Reads.count_accepted small room _)]
    rfl
  have fields : readVariable (levels + 1) ⟨p + 1, 128 :: Number.toSignedBytes 4 n ++ behind⟩ =
      .ok [("type", .typeName 128), ("value", .list (List.replicate n .absent))]
        ⟨p + 6, behind⟩ := by
    exact (bind_ok (code _)).trans (bind_ok elements)
  exact (bind_ok (Reads.noText p _)).trans (bind_ok fields)

theorem hollowFields_read {n : Nat} (small : Reads.IsCount n) (levels fields p : Nat)
    {behind : List UInt8} (room : n ≤ behind.length) :
    times (readNamed (readVariable (levels + 1))) fields
        ⟨p, (List.replicate fields (hollowField n)).flatten ++ behind⟩ =
      .ok (List.replicate fields (hollowRecord n)) ⟨p + 6 * fields, behind⟩ := by
  induction fields generalizing p with
  | zero => rfl
  | succ fields ih =>
    have enough : n ≤ ((List.replicate fields (hollowField n)).flatten ++ behind).length := by
      rw [List.length_append]
      omega
    rw [List.replicate_succ, List.flatten_cons, List.append_assoc, times,
      bind_ok (hollowField_read small levels p enough), bind_ok (ih (p + 6))]
    have place : p + 6 + 6 * fields = p + 6 * (fields + 1) := by omega
    rw [place]
    rfl

theorem hollowStruct_read {fields n : Nat} (many : Reads.IsCount fields) (small : Reads.IsCount n)
    (levels : Nat) {behind : List UInt8} (room : n ≤ behind.length) :
    readStruct (levels + 2) (.start (hollowStruct fields n ++ behind)) =
      .ok (.list (List.replicate fields (hollowRecord n))) ⟨4 + 6 * fields, behind⟩ := by
  have fits : fields ≤ ((List.replicate fields (hollowField n)).flatten ++ behind).length := by
    rw [List.length_append, length_hollowFields]
    omega
  rw [readStruct, hollowStruct, List.append_assoc, Cursor.start,
    bind_ok (Reads.count_accepted many fits 0),
    bind_ok (hollowFields_read small levels fields (0 + 4) room), Nat.zero_add]
  rfl

theorem entries_hollowStruct (fields n : Nat) :
    (Value.list (List.replicate fields (hollowRecord n))).entries = fields * (n + 2) + 1 := by
  have record : (hollowRecord n).entries = n + 2 := by
    have value := (hollowItems n).1
    simp only [hollowRecord, Value.entries.eq_2, Value.fieldEntries]
    simp [value]
  have each : Value.itemEntries (List.replicate fields (hollowRecord n)) = fields * (n + 2) := by
    induction fields with
    | zero => simp [Value.itemEntries]
    | succ fields ih =>
      rw [List.replicate_succ, Value.itemEntries, ih, record, Nat.add_mul]
      omega
  rw [Value.entries, each]

/-- What was read between two places has no more entries than it took bytes, but for the hollow
ones, which are at most a fifth of these bytes times those that were left before them. -/
structure Accounted (before after : Cursor) (entries hollows : Nat) : Prop where
  nearer : after.remaining ≤ before.remaining
  paid : entries ≤ before.remaining - after.remaining + hollows
  few : 5 * hollows ≤ (before.remaining - after.remaining) * before.remaining

theorem Within.accounted {before after : Cursor} {entries hollows : Nat}
    (h : Within 0 before after entries hollows) : Accounted before after entries hollows := by
  obtain ⟨paid, arrays, bytes, few⟩ := h
  have taken : 5 * arrays ≤ before.remaining - after.remaining := by omega
  refine ⟨by omega, by omega, ?_⟩
  calc 5 * hollows
    _ ≤ 5 * (arrays * before.remaining) := Nat.mul_le_mul_left 5 few
    _ = 5 * arrays * before.remaining := (Nat.mul_assoc ..).symm
    _ ≤ (before.remaining - after.remaining) * before.remaining :=
      Nat.mul_le_mul_right before.remaining taken

theorem two_levels {depth : Int} (deep : depth < maxDepth) :
    ∃ levels, levelsFrom depth = levels + 2 := by
  refine ⟨levelsFrom depth - 2, ?_⟩
  unfold levelsFrom
  omega

/-- Structs and variables do not outgrow the bytes that they take, but for the elements of their
Dynamic arrays. These are at most a fifth of the bytes taken times the bytes that were there, and
their number does grow with the square: so many fields of as many such elements each take six bytes
a field and nothing more. -/
theorem entries_are_paid_but_for_dynamic_arrays (depth : Int) :
    (∀ c v d, readStruct (levelsFrom depth) c = .ok v d →
      Accounted c d v.entries v.hollows) ∧
    (∀ c fields d, readVariable (levelsFrom depth) c = .ok fields d →
      Accounted c d (Value.fieldEntries fields) (Value.fieldHollows fields)) ∧
    (depth < maxDepth → ∀ n, Reads.IsCount n →
      ∃ v, readStruct (levelsFrom depth) (.start (hollowStruct n n ++ List.replicate n 0)) =
          .ok v ⟨4 + 6 * n, List.replicate n 0⟩ ∧
        v.entries = n * (n + 2) + 1) := by
  obtain ⟨struct, fields⟩ := dynamic_grows (levelsFrom depth)
  refine ⟨fun c v d read => ?_, fun c _ d read => ?_, fun deep n small => ?_⟩
  · exact (struct c v d read).2.accounted
  · exact (fields read).accounted
  · obtain ⟨levels, down⟩ := two_levels deep
    have room : n ≤ (List.replicate n (0 : UInt8)).length := Nat.le_of_eq List.length_replicate.symm
    rw [down]
    exact ⟨_, hollowStruct_read small small levels room, entries_hollowStruct n n⟩

/-- A struct of one Int8 field has three entries in its eight bytes, and one of a thousand hollow
arrays has over a million in six thousand and four. -/
theorem struct_of_one_field_and_of_hollow_arrays :
    (∃ v d, readStruct (levelsFrom 0) (.start [1, 0, 0, 0, 1, 97, 1, 5]) = .ok v d ∧
      v.entries = 3 ∧ v.hollows = 0 ∧
      Accounted (.start [1, 0, 0, 0, 1, 97, 1, 5]) d 3 0) ∧
    (∃ fields d, readVariable (levelsFrom 0) (.start [128, 2, 0, 0, 0, 7, 7]) = .ok fields d ∧
      Value.fieldEntries fields = 3 ∧ Value.fieldHollows fields = 2 ∧
      Accounted (.start [128, 2, 0, 0, 0, 7, 7]) d 3 2) ∧
    ∃ v, readStruct (levelsFrom 0) (.start (hollowStruct 1000 1000 ++ List.replicate 1000 0)) =
        .ok v ⟨6004, List.replicate 1000 0⟩ ∧
      v.entries = 1002001 := by
  obtain ⟨struct, fields, square⟩ := entries_are_paid_but_for_dynamic_arrays 0
  refine ⟨?_, ?_, square (by decide) 1000 (by decide)⟩
  · obtain ⟨v, d, read, entries, hollows⟩ : ∃ v d,
        readStruct (levelsFrom 0) (.start [1, 0, 0, 0, 1, 97, 1, 5]) = .ok v d ∧
          v.entries = 3 ∧ v.hollows = 0 := ⟨_, _, rfl, by decide +kernel, by decide +kernel⟩
    have account := struct _ v d read
    rw [entries, hollows] at account
    exact ⟨v, d, read, entries, hollows, account⟩
  · obtain ⟨found, d, read, entries, hollows⟩ : ∃ found d,
        readVariable (levelsFrom 0) (.start [128, 2, 0, 0, 0, 7, 7]) = .ok found d ∧
          Value.fieldEntries found = 3 ∧ Value.fieldHollows found = 2 :=
      ⟨_, _, rfl, by decide +kernel, by decide +kernel⟩
    have account := fields _ found d read
    rw [entries, hollows] at account
    exact ⟨found, d, read, entries, hollows, account⟩

/-- A struct of three fields of twenty Dynamic elements each takes 22 of its 42 bytes. -/
theorem struct_outgrows_its_bytes :
    ∃ v d, readStruct (levelsFrom 0) (.start (hollowStruct 3 20 ++ List.replicate 20 0)) =
        .ok v d ∧
      d.position = 22 ∧ ¬ v.entries ≤ d.position ∧
      ¬ v.entries ≤ (hollowStruct 3 20 ++ List.replicate 20 0).length := by
  have three : Reads.IsCount 3 := by decide
  have twenty : Reads.IsCount 20 := by decide
  have room : 20 ≤ (List.replicate 20 (0 : UInt8)).length := by decide
  have read := hollowStruct_read three twenty 127 room
  have entries := entries_hollowStruct 3 20
  refine ⟨_, _, read, rfl, ?_, ?_⟩
  · rw [entries]
    decide
  · rw [entries]
    decide

end ChainDecode.Carbon
