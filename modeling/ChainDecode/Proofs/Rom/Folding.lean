import ChainDecode.Proofs.DepthLimits
import ChainDecode.Proofs.Rom.Delimiting

/-! # Structs as records

A struct has a record exactly when its keys can name the members. Whether they can is decided while
the entries are still read, one entry after another, and what was decided of the entries read so far
is what the whole struct would be if they were all.
-/
namespace ChainDecode.Rom.Node

variable {entries : List (Node × Node)} {fields : List (Text × Json)}

theorem fieldName_isSome (key : Node) :
    key.fieldName?.isSome ↔ key.type ∈ [.string, .number, .enumeration, .timestamp, .bool] := by
  cases key <;> simp [fieldName?, type]

/-- The members are the entries in their order, each under the name of its key, and no two have the
same name. -/
structure Folds (entries : List (Node × Node)) (fields : List (Text × Json)) : Prop where
  members : entries.map (fun e => (e.1.fieldName?, e.2.valueJson)) =
    fields.map fun m => (some m.1, m.2)
  distinct : (fields.map Prod.fst).Nodup

theorem mapM_eq_some {ι α : Type} {f : ι → Option α} {items : List ι} {found : List α} :
    items.mapM f = some found ↔ items.map f = found.map some := by
  induction items generalizing found with
  | nil => cases found <;> simp
  | cons x items ih =>
    rw [List.mapM_cons, List.map_cons]
    constructor
    · intro h
      obtain ⟨a, first, h⟩ := Option.bind_eq_some_iff.mp h
      obtain ⟨rest, others, h⟩ := Option.bind_eq_some_iff.mp h
      cases h
      rw [first, ih.mp others, List.map_cons]
    · intro h
      obtain ⟨a, rest, rfl, first, others⟩ := List.map_eq_cons_iff.mp h.symm
      rw [← first, ih.mpr others.symm]
      rfl

theorem fieldNames_eq_some {names : List Text} :
    fieldNames? entries = some names ↔
      entries.map (fun e => e.1.fieldName?) = names.map some ∧ names.Nodup := by
  rw [← mapM_eq_some]
  unfold fieldNames?
  cases entries.mapM fun e => e.1.fieldName? with
  | none => simp
  | some found =>
    by_cases distinct : found.Nodup
    · simp only [if_pos distinct, Option.some.injEq]
      constructor
      · rintro rfl
        exact ⟨rfl, distinct⟩
      · exact fun h => h.1
    · simp only [if_neg distinct]
      constructor
      · nofun
      · rintro ⟨h, other⟩
        cases h
        exact absurd other distinct

theorem fields_eq_some : (struct entries).fields? = some fields ↔ Folds entries fields := by
  rw [fields?, Option.map_eq_some_iff]
  constructor
  · rintro ⟨names, found, rfl⟩
    obtain ⟨each, distinct⟩ := fieldNames_eq_some.mp found
    have size : names.length = entries.length := by simpa using (congrArg List.length each).symm
    have pairs : entries.map (fun e => (e.1.fieldName?, e.2.valueJson)) =
        (names.map some).zip (entries.map fun e => e.2.valueJson) := by
      rw [← each, List.zip_map']
    rw [Tree.valuesJson_eq]
    constructor
    · rw [pairs, List.zip_map_left]
      rfl
    · rw [List.map_fst_zip (by simp [size])]
      exact distinct
  · rintro ⟨members, distinct⟩
    have names : entries.map (fun e => e.1.fieldName?) = (fields.map Prod.fst).map some := by
      simpa [Function.comp_def] using congrArg (List.map Prod.fst) members
    have values : entries.map (fun e => e.2.valueJson) = fields.map Prod.snd := by
      simpa [Function.comp_def] using congrArg (List.map Prod.snd) members
    refine ⟨_, fieldNames_eq_some.mpr ⟨names, distinct⟩, ?_⟩
    rw [Tree.valuesJson_eq, values, List.zip_map']
    simp

theorem fields_isSome : (struct entries).fields?.isSome ↔
    (∀ e ∈ entries, e.1.fieldName?.isSome) ∧
      entries.Pairwise fun e other => e.1.fieldName? ≠ other.1.fieldName? := by
  have apart : entries.Pairwise (fun e other => e.1.fieldName? ≠ other.1.fieldName?) ↔
      (entries.map fun e => e.1.fieldName?).Nodup := by
    rw [List.Nodup, List.pairwise_map]
  rw [apart, fields?, Option.isSome_map, Option.isSome_iff_exists]
  simp only [fieldNames_eq_some]
  constructor
  · rintro ⟨names, each, distinct⟩
    rw [each]
    refine ⟨fun e member => ?_, distinct.map (Option.some_injective _)⟩
    have listed : e.1.fieldName? ∈ names.map some := by
      rw [← each]
      exact List.mem_map_of_mem member
    obtain ⟨name, -, same⟩ := List.mem_map.mp listed
    rw [← same]
    rfl
  · rintro ⟨all, distinct⟩
    have each : entries.map (fun e => e.1.fieldName?) =
        (entries.map fun e => e.1.fieldName?.getD "").map some := by
      rw [List.map_map]
      refine List.map_congr_left fun e member => ?_
      obtain ⟨name, same⟩ := Option.isSome_iff_exists.mp (all e member)
      simp [same]
    rw [each] at distinct
    exact ⟨_, each, distinct.of_map _⟩

theorem field?_eq_none {name : Text} :
    Json.field? fields name = Option.none ↔ name ∉ fields.map Prod.fst := by
  rw [Json.field?, List.lookup_eq_none_iff]
  constructor
  · intro other listed
    obtain ⟨m, member, same⟩ := List.mem_map.mp listed
    have apart := other m member
    simp [same] at apart
  · intro absent m member
    have other : name ≠ m.1 := fun same => absent (same ▸ List.mem_map_of_mem member)
    simpa using other

theorem Folds.field? (h : Folds entries fields) {e : Node × Node} (member : e ∈ entries)
    {name : Text} (named : e.1.fieldName? = some name) :
    Json.field? fields name = some e.2.valueJson := by
  have listed : (some name, e.2.valueJson) ∈ fields.map fun m => (some m.1, m.2) := by
    rw [← h.members, ← named]
    exact List.mem_map_of_mem (f := fun e => (e.1.fieldName?, e.2.valueJson)) member
  obtain ⟨⟨key, value⟩, inside, same⟩ := List.mem_map.mp listed
  cases same
  obtain ⟨front, back, rfl⟩ := List.append_of_mem inside
  have before : ∀ m ∈ front, m.1 ≠ key := by
    intro m earlier same
    have distinct := h.distinct
    rw [List.map_append, List.map_cons] at distinct
    obtain ⟨-, -, apart⟩ := List.nodup_append.mp distinct
    exact apart m.1 (List.mem_map_of_mem earlier) key List.mem_cons_self same
  refine List.lookup_eq_some_iff.mpr ⟨front, back, rfl, fun m earlier => ?_⟩
  simpa using (before m earlier).symm

theorem Folds.of_field? (h : Folds entries fields) {name : Text} {value : Json}
    (found : Json.field? fields name = some value) :
    ∃ e ∈ entries, e.1.fieldName? = some name ∧ e.2.valueJson = value := by
  obtain ⟨front, back, same, -⟩ := List.lookup_eq_some_iff.mp found
  have listed : (some name, value) ∈ entries.map fun e => (e.1.fieldName?, e.2.valueJson) := by
    rw [h.members, same]
    simp
  obtain ⟨e, member, pair⟩ := List.mem_map.mp listed
  obtain ⟨named, shown⟩ := Prod.mk.inj pair
  exact ⟨e, member, named, shown⟩

/-- What is kept of the entries read so far: themselves, the members that they make, and whether
every one of them made a new one. -/
structure Folding where
  entries : List (Node × Node)
  members : List (Text × Json)
  whole : Bool

namespace Folding

def empty : Folding := ⟨[], [], true⟩

def add (s : Folding) (e : Node × Node) : Folding :=
  match e.1.fieldName? with
  | some name =>
    if (Json.field? s.members name).isSome then ⟨s.entries ++ [e], s.members, false⟩
    else ⟨s.entries ++ [e], s.members ++ [(name, e.2.valueJson)], s.whole⟩
  | Option.none => ⟨s.entries ++ [e], s.members, false⟩

def fields? (s : Folding) : Option (List (Text × Json)) :=
  if s.whole then some s.members else Option.none

def Decided (s : Folding) : Prop := s.fields? = (struct s.entries).fields?

end Folding

theorem folds_concat {e : Node × Node} : Folds (entries ++ [e]) fields ↔
    ∃ front name, fields = front ++ [(name, e.2.valueJson)] ∧ Folds entries front ∧
      e.1.fieldName? = some name ∧ Json.field? front name = Option.none := by
  constructor
  · rintro ⟨members, distinct⟩
    rw [List.map_append] at members
    obtain ⟨front, back, rfl, earlier, last⟩ := List.append_eq_map_iff.mp members
    obtain ⟨⟨name, value⟩, none, rfl, same, nothing⟩ := List.map_eq_cons_iff.mp last
    cases List.map_eq_nil_iff.mp nothing
    obtain ⟨named, shown⟩ := Prod.mk.inj same
    rw [List.map_append] at distinct
    obtain ⟨kept, -, apart⟩ := List.nodup_append.mp distinct
    cases shown
    refine ⟨front, name, rfl, ⟨earlier.symm, kept⟩, named.symm, field?_eq_none.mpr ?_⟩
    intro listed
    exact apart name listed name List.mem_cons_self rfl
  · rintro ⟨front, name, rfl, ⟨members, distinct⟩, named, new⟩
    constructor
    · simp [members, named]
    · rw [List.map_append]
      refine List.nodup_append.mpr ⟨distinct, List.nodup_singleton _, ?_⟩
      rintro other listed _ last rfl
      cases List.mem_singleton.mp last
      exact field?_eq_none.mp new listed

/-- A record can only be lost: entries that do not fold do not fold with more of them. -/
theorem fields_concat_none {e : Node × Node} (none : (struct entries).fields? = Option.none) :
    (struct (entries ++ [e])).fields? = Option.none := by
  rw [Option.eq_none_iff_forall_ne_some]
  intro fields found
  obtain ⟨front, -, -, folds, -⟩ := folds_concat.mp (fields_eq_some.mp found)
  rw [fields_eq_some.mpr folds] at none
  cases none

theorem fields_concat (found : (struct entries).fields? = some fields) (e : Node × Node) :
    (struct (entries ++ [e])).fields? =
      match e.1.fieldName? with
      | some name =>
        if (Json.field? fields name).isSome then Option.none
        else some (fields ++ [(name, e.2.valueJson)])
      | Option.none => Option.none := by
  have folds := fields_eq_some.mp found
  -- A record with the entry could only be this one and one more member.
  have last : ∀ more, (struct (entries ++ [e])).fields? = some more →
      ∃ name, e.1.fieldName? = some name ∧ Json.field? fields name = Option.none := by
    intro more whole
    obtain ⟨front, name, -, same, named, new⟩ := folds_concat.mp (fields_eq_some.mp whole)
    cases Option.some.inj (found.symm.trans (fields_eq_some.mpr same))
    exact ⟨name, named, new⟩
  cases named : e.1.fieldName? with
  | none =>
    refine Option.eq_none_iff_forall_ne_some.mpr fun more whole => ?_
    obtain ⟨name, other, -⟩ := last more whole
    rw [named] at other
    cases other
  | some name =>
    dsimp only
    cases new : Json.field? fields name with
    | some value =>
      refine Option.eq_none_iff_forall_ne_some.mpr fun more whole => ?_
      obtain ⟨other, same, none⟩ := last more whole
      rw [named] at same
      cases same
      rw [new] at none
      cases none
    | none => exact fields_eq_some.mpr (folds_concat.mpr ⟨fields, name, rfl, folds, named, new⟩)

theorem Folding.decided_empty : Folding.empty.Decided := rfl

theorem Folding.entries_add (s : Folding) (e : Node × Node) :
    (s.add e).entries = s.entries ++ [e] := by
  unfold add
  split
  · split <;> rfl
  · rfl

theorem Folding.decided_add {s : Folding} (h : s.Decided) (e : Node × Node) :
    (s.add e).Decided := by
  unfold Decided at h ⊢
  rw [entries_add]
  cases whole : s.whole with
  | false =>
    have broken : (s.add e).whole = false := by
      unfold add
      split
      · split
        · rfl
        · exact whole
      · rfl
    rw [fields?, whole] at h
    rw [fields?, broken, fields_concat_none h.symm]
    rfl
  | true =>
    rw [fields?, whole] at h
    rw [fields_concat h.symm e]
    unfold fields? add
    split
    · split
      · rfl
      · simp
    · rfl

def foldEntries (entry : Read (Node × Node)) : (count : Nat) → Folding → Read Folding
  | 0, s => pure s
  | count + 1, s => do
    let e ← entry
    foldEntries entry count (s.add e)

/-- The loop stops where the entries do, and decides of them what they are as a whole. -/
theorem foldEntries_decided {entry : Read (Node × Node)} {count : Nat} {c d : Cursor}
    (found : times entry count c = .ok entries d) {s : Folding} (h : s.Decided) :
    ∃ t, foldEntries entry count s c = .ok t d ∧ t.entries = s.entries ++ entries ∧ t.Decided := by
  induction count generalizing c entries s with
  | zero =>
    cases found
    exact ⟨s, rfl, (List.append_nil _).symm, h⟩
  | succ count ih =>
    obtain ⟨e, middle, first, more⟩ := of_bind_ok found
    obtain ⟨rest, last, others, done⟩ := of_bind_ok more
    cases done
    obtain ⟨t, looped, kept, decided⟩ := ih others (Folding.decided_add h e)
    refine ⟨t, ?_, ?_, decided⟩
    · rw [foldEntries, bind_ok first, looped]
    · rw [kept, Folding.entries_add, List.append_assoc]
      rfl

inductive EntriesRead (node : Read Node) : Cursor → List (Node × Node) → Cursor → Prop
  | none (c : Cursor) : EntriesRead node c [] c
  | next {c d e f : Cursor} {key value : Node} {rest : List (Node × Node)}
      (first : node c = .ok key d) (second : node d = .ok value e)
      (others : EntriesRead node e rest f) : EntriesRead node c ((key, value) :: rest) f

theorem entriesRead_of_times {node : Read Node} {count : Nat} {c d : Cursor}
    (found : times (readEntry node) count c = .ok entries d) :
    entries.length = count ∧ EntriesRead node c entries d := by
  induction count generalizing c entries with
  | zero =>
    cases found
    exact ⟨rfl, .none _⟩
  | succ count ih =>
    obtain ⟨e, middle, one, more⟩ := of_bind_ok found
    obtain ⟨rest, last, others, done⟩ := of_bind_ok more
    cases done
    obtain ⟨key, between, first, more⟩ := of_bind_ok one
    obtain ⟨value, behind, second, done⟩ := of_bind_ok more
    cases done
    obtain ⟨size, turns⟩ := ih others
    exact ⟨congrArg (· + 1) size, .next first second turns⟩

def ReadBetween (label : Text) (levels : Nat) (c d : Cursor) (node : Node) : Prop :=
  ∃ start stop, c.Reaches start ∧ stop.Reaches d ∧ read label levels start = .ok node stop

/-- A struct is read from a place to another: its type, the count of its entries, and all of them.
The loop that folds them while it reads them decides whether they have a record. -/
structure StructRead (label : Text) (levels : Nat) (start counted first : Cursor)
    (entries : List (Node × Node)) (stop : Cursor) : Prop where
  type : Buffer.word label 1 start = .ok 1 counted
  count : Buffer.varint label Buffer.varintMax counted = .ok entries.length first
  each : EntriesRead (read label levels) first entries stop
  loop : ∃ s, foldEntries (readEntry (read label levels)) entries.length .empty first = .ok s stop ∧
    s.entries = entries ∧ s.fields? = (struct entries).fields?

section Reading

variable {label : Text} {levels : Nat}

theorem typed_leaf {inner : Read Node} {offset type : Nat} (other : type ≠ 1) :
    Yields (fun node => ∀ entries, node ≠ .struct entries)
      (readOfType label inner offset type) := by
  unfold readOfType
  split
  any_goals exact .after fun _ => .pure nofun
  · exact .pure nofun
  · exact absurd rfl other
  · intro c node d stop
    cases stop

theorem struct_read {start stop : Cursor}
    (found : read label (levels + 1) start = .ok (.struct entries) stop) :
    ∃ counted first, StructRead label levels start counted first entries stop := by
  obtain ⟨type, counted, typed, behind⟩ := of_bind_ok
    (show (Buffer.word label 1 >>= readOfType label (read label levels) start.position) start =
      .ok (.struct entries) stop from found)
  by_cases struct : type = 1
  · subst struct
    obtain ⟨count, first, announced, behind⟩ := of_bind_ok
      (show readStruct label (read label levels) counted = .ok (.struct entries) stop from behind)
    obtain ⟨remaining, same, left, behind⟩ := of_bind_ok behind
    cases left
    split at behind
    · cases behind
    obtain ⟨all, last, items, done⟩ := of_bind_ok behind
    cases done
    obtain ⟨rfl, turns⟩ := entriesRead_of_times items
    obtain ⟨s, looped, kept, decided⟩ := foldEntries_decided items Folding.decided_empty
    have same : s.entries = entries := kept
    rw [Folding.Decided, same] at decided
    exact ⟨counted, _, typed, announced, turns, s, looped, same, decided⟩
  · exact absurd rfl (typed_leaf struct _ _ _ behind entries)

theorem reaches_read {node : Node} {c d : Cursor} (found : read label levels c = .ok node d) :
    c.Reaches d := (node_forward label levels).of_ok found

theorem EntriesRead.reaches {c d : Cursor} (h : EntriesRead (read label levels) c entries d) :
    c.Reaches d := by
  induction h with
  | none c => exact .refl c
  | next first second _ ih => exact ((reaches_read first).trans (reaches_read second)).trans ih

theorem EntriesRead.between {c d : Cursor} (h : EntriesRead (read label levels) c entries d)
    {e : Node × Node} (member : e ∈ entries) :
    ReadBetween label levels c d e.1 ∧ ReadBetween label levels c d e.2 := by
  induction h with
  | none c => cases member
  | @next c d f g key value rest first second others ih =>
    have after := reaches_read first
    have skipped := after.trans (reaches_read second)
    rcases List.mem_cons.mp member with rfl | behind
    · exact ⟨⟨c, d, .refl c, (reaches_read second).trans others.reaches, first⟩,
        ⟨d, f, after, others.reaches, second⟩⟩
    · obtain ⟨⟨p, q, early, late, one⟩, ⟨r, s, early', late', two⟩⟩ := ih behind
      exact ⟨⟨p, q, skipped.trans early, late, one⟩, ⟨r, s, skipped.trans early', late', two⟩⟩

theorem readBetween_down {c d : Cursor} {outer inner : Node}
    (h : ReadBetween label (levels + 1) c d outer) (inside : outer.Holds inner) :
    ReadBetween label levels c d inner := by
  obtain ⟨start, stop, before, behind, found⟩ := h
  obtain ⟨entries, rfl, e, member, which⟩ := inside
  obtain ⟨counted, first, struct⟩ := struct_read found
  have opened : start.Reaches first :=
    ((Advances.bufferWord label 1).of_ok struct.type).trans
      ((Advances.varint label _).of_ok struct.count)
  obtain ⟨key, value⟩ := struct.each.between member
  have wider : ∀ node, ReadBetween label levels first stop node →
      ReadBetween label levels c d node := by
    rintro node ⟨p, q, earlier, later, read⟩
    exact ⟨p, q, (before.trans opened).trans earlier, later.trans behind, read⟩
  rcases which with rfl | rfl
  · exact wider _ key
  · exact wider _ value

theorem readBetween_inside {c d : Cursor} {k : Nat} {outer inner : Node}
    (inside : Inside Holds k outer inner) (h : ReadBetween label levels c d outer) :
    ∃ fewer, fewer + k = levels ∧ ReadBetween label fewer c d inner := by
  induction inside generalizing levels with
  | here => exact ⟨levels, rfl, h⟩
  | step one _ ih =>
    cases levels with
    | zero =>
      obtain ⟨start, stop, -, -, found⟩ := h
      cases found
    | succ levels =>
      obtain ⟨fewer, left, read⟩ := ih (readBetween_down h one)
      exact ⟨fewer, by omega, read⟩

end Reading

/-- An entry as it is shown, with the types of its key and its value. -/
def entryShown (e : Node × Node) : Json :=
  .obj [("key_vm_type", .str e.1.type.name), ("key", e.1.valueJson),
    ("value_vm_type", .str e.2.type.name), ("value", e.2.valueJson)]

/-- A struct that stands so many steps inside what is read between two places, with so many levels,
and how it is shown. -/
structure Folded (label : Text) (levels k : Nat) (c d : Cursor) (entries : List (Node × Node)) :
    Prop where
  -- The entries are all that stand there, in the order of the bytes.
  wire : ∃ fewer start counted first stop, fewer + k + 1 = levels ∧
    c.Reaches start ∧ stop.Reaches d ∧ (k = 0 → start = c ∧ stop = d) ∧
    StructRead label fewer start counted first entries stop
  -- There is a record if every key has a type that names members and no two have the same name.
  exactly : (struct entries).fields?.isSome ↔
    (∀ e ∈ entries, e.1.type ∈ [.string, .number, .enumeration, .timestamp, .bool]) ∧
      entries.Pairwise fun e other => e.1.fieldName? ≠ other.1.fieldName?
  -- The members are the entries in their order, and each name leads to its entry's value.
  members : ∀ fields, (struct entries).fields? = some fields →
    entries.map (fun e => (e.1.fieldName?, e.2.valueJson)) =
        fields.map (fun m => (some m.1, m.2)) ∧
      ∀ e ∈ entries, ∀ name, e.1.fieldName? = some name →
        Json.field? fields name = some e.2.valueJson
  -- Inside another node only the record is shown, or only the entries.
  inside : (struct entries).valueJson =
    match (struct entries).fields? with
    | some fields => .obj fields
    | Option.none => .arr (entries.map entryShown)
  -- At the root the entries are shown in both cases.
  root : (struct entries).toJson.get? "fields" = (struct entries).fields?.map .obj ∧
    (struct entries).toJson.get? "entries" = some (.arr (entries.map entryShown))

theorem shown_inside : (struct entries).valueJson =
    match (struct entries).fields? with
    | some fields => .obj fields
    | Option.none => .arr (entries.map entryShown) := by
  rw [valueJson, Tree.entriesJson_eq, fields?]
  cases fieldNames? entries <;> rfl

theorem shown_root :
    (struct entries).toJson.get? "fields" = (struct entries).fields?.map .obj ∧
      (struct entries).toJson.get? "entries" = some (.arr (entries.map entryShown)) := by
  rw [toJson, Tree.entriesJson_eq]
  cases (struct entries).fields? <;> exact ⟨rfl, rfl⟩

theorem struct_place {label : Text} {levels k : Nat} {c d : Cursor} {root : Node}
    (found : read label levels c = .ok root d) (inside : Inside Holds k root (.struct entries)) :
    ∃ fewer start stop, fewer + k + 1 = levels ∧ c.Reaches start ∧ stop.Reaches d ∧
      (k = 0 → start = c ∧ stop = d) ∧
      read label (fewer + 1) start = .ok (.struct entries) stop := by
  cases inside with
  | here =>
    cases levels with
    | zero => cases found
    | succ levels => exact ⟨levels, c, d, rfl, .refl c, .refl d, fun _ => ⟨rfl, rfl⟩, found⟩
  | step one more =>
    obtain ⟨fewer, left, start, stop, before, behind, read⟩ :=
      readBetween_inside (.step one more) ⟨c, d, .refl c, .refl d, found⟩
    cases fewer with
    | zero => cases read
    | succ fewer => exact ⟨fewer, start, stop, by omega, before, behind, nofun, read⟩

/-- Every struct that is read, at the root or inside, has a record exactly if it can have one. -/
theorem structs_fold_if_they_can (label : Text) (depth : Int) {c d : Cursor} {root : Node}
    (found : read label (levelsFrom depth) c = .ok root d) {k : Nat}
    {entries : List (Node × Node)} (inside : Inside Holds k root (.struct entries)) :
    Folded label (levelsFrom depth) k c d entries where
  wire := by
    obtain ⟨fewer, start, stop, left, before, behind, here, read⟩ := struct_place found inside
    obtain ⟨counted, first, struct⟩ := struct_read read
    exact ⟨fewer, start, counted, first, stop, left, before, behind, here, struct⟩
  exactly := by
    rw [fields_isSome]
    simp only [fieldName_isSome]
  members := by
    intro fields record
    have folds := fields_eq_some.mp record
    exact ⟨folds.members, fun e member name named => folds.field? member named⟩
  inside := shown_inside
  root := shown_root

theorem two_unmarked : (2 : UInt8).toNat < 0xfd := by decide

theorem oneText_exact : (Text.Utf8.encode "1").length = 1 := by decide +kernel

theorem one_low : -(Number.wordSpan 1 : Int) ≤ 2 * 1 := by decide

theorem one_high : 2 * 1 < (Number.wordSpan 1 : Int) := by decide

/-- Two entries whose keys are a text and a number of the same name. -/
def twoOnes : Tree :=
  .struct (.byte 2 two_unmarked)
    (fun i => if i.val = 0 then .text ⟨.byte 1 one_unmarked, "1", oneText_exact⟩
      else .number ⟨1, 1, one_low, one_high⟩)
    fun _ => .flag 1

def twoOnesEntries : List (Node × Node) :=
  [(.text "1", .flag true), (.number 1, .flag true)]

/-- A record whose value is no record, because two of its keys have the same name. -/
theorem twoOnes_are_no_record :
    ∃ root d, read "ROM" (levelsFrom 0) ⟨0, (nested twoOnes 1).wire⟩ = .ok root d ∧
      Inside Holds 1 root (.struct twoOnesEntries) ∧
      Folded "ROM" (levelsFrom 0) 1 ⟨0, (nested twoOnes 1).wire⟩ d twoOnesEntries ∧
      (struct twoOnesEntries).fields? = Option.none ∧
      root.valueJson = .obj [("true", .arr (twoOnesEntries.map entryShown))] := by
  have shallow : (nested twoOnes 1).height < levelsFrom 0 := by decide +kernel
  have found := (nested twoOnes 1).reads "ROM" shallow 0 []
  rw [List.append_nil] at found
  have inside : Inside Holds 1 (nested twoOnes 1).node (.struct twoOnesEntries) :=
    inside_nested twoOnes 1
  exact ⟨_, _, found, inside, structs_fold_if_they_can "ROM" 0 found inside, by decide +kernel, rfl⟩

end ChainDecode.Rom.Node
