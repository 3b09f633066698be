import ChainDecode.Proofs.Number.Calendar
import ChainDecode.Proofs.Rom.Folding
import ChainDecode.Proofs.Rom.Selection

/-! # The time of creation that a tree tells

The time is looked up in the record of the root, where numbers, texts and bytes are all texts. So
what a value is is no longer known, and bytes whose hexadecimal digits are all decimal digits pass
for a number.
-/
namespace ChainDecode.Rom

/-- The node is a number, or a text of its decimal digits. -/
inductive Denotes : Node → Nat → Prop
  | timestamp (seconds : Nat) : Denotes (.timestamp seconds) seconds
  | enumeration (n : Nat) : Denotes (.enumeration n) n
  | number (n : Nat) : Denotes (.number n) n
  | text {s : String} {n : Nat} (digits : Number.Decimal s n) : Denotes (.text s) n

inductive PassesFor : Node → Nat → Prop
  | bytes {data : List UInt8} {n : Nat} (digits : Number.Decimal (Text.Hex.encode data) n) :
      PassesFor (.bytes data) n

inductive Tells : Json → Nat → Prop
  | number (n : Nat) : Tells (.int n) n
  | text {s : Text} {n : Nat} (digits : Number.Decimal s n) : Tells (.str s) n

theorem not_tells_object (data : List UInt8) (n : Nat) : ¬ Tells (Node.objectJson data) n := by
  intro told
  unfold Node.objectJson at told
  dsimp only at told
  split at told
  · split at told
    · split at told <;> cases told
    · cases told
  · cases told

/-- In the record, only bytes can be taken for a number that they are not. -/
theorem tells_valueJson (node : Node) (n : Nat) :
    Tells node.valueJson n ↔ Denotes node n ∨ PassesFor node n := by
  constructor
  · intro told
    cases node with
    | none => cases told
    | bytes data =>
      cases told with
      | text digits => exact Or.inr (.bytes digits)
    | number m =>
      cases told with
      | text digits =>
        cases Number.decimal_toString_iff.mp digits
        exact Or.inl (.number n)
    | text s =>
      cases told with
      | text digits => exact Or.inl (.text digits)
    | timestamp seconds =>
      cases told
      exact Or.inl (.timestamp _)
    | flag b => cases told
    | enumeration m =>
      cases told
      exact Or.inl (.enumeration _)
    | object data => exact absurd told (not_tells_object data n)
    | struct entries =>
      rw [Node.shown_inside] at told
      split at told <;> cases told
  · rintro (denoted | passed)
    · cases denoted with
      | timestamp => exact .number n
      | enumeration => exact .number n
      | number => exact .text (Number.decimal_toString_iff.mpr rfl)
      | text digits => exact .text digits
    · cases passed with
      | bytes digits => exact .text digits

theorem createdOf_tells {fields : List (Text × Json)} {time : Option Nat}
    (found : createdOf fields = .ok time) (n : Nat) :
    time = some n ↔ ∃ v, Json.field? fields "created" = some v ∧ Tells v n := by
  unfold createdOf at found
  cases field : Json.field? fields "created" with
  | none =>
    rw [field] at found
    cases found
    simp
  | some v =>
    rw [field] at found
    have only : time = some n ↔ Tells v n := by
      cases v with
      | int m =>
        cases found
        by_cases negative : 0 ≤ m
        · obtain ⟨k, rfl⟩ := Int.eq_ofNat_of_zero_le negative
          rw [if_pos negative, Int.toNat_natCast, Option.some.injEq]
          constructor
          · rintro rfl
            exact .number k
          · rintro ⟨⟩
            rfl
        · rw [if_neg negative]
          constructor
          · nofun
          · rintro ⟨⟩
            exact absurd (Int.natCast_nonneg n) negative
      | str s =>
        dsimp only at found
        split at found
        · rename_i digits
          obtain ⟨m, read, rfl⟩ := except_map_ok.mp found
          obtain ⟨k, rfl, own⟩ := Number.decimal_of_ofNumeral digits read
          rw [Int.toNat_natCast, Option.some.injEq]
          constructor
          · rintro rfl
            exact .text own
          · rintro ⟨other⟩
            exact own.unique ‹_›
        · rename_i other
          cases found
          constructor
          · nofun
          · rintro ⟨⟩
            rename_i own
            exact absurd own.isDigits other
      | _ =>
        cases found
        constructor
        · nofun
        · nofun
    simpa using only

/-- What a tree tells of its creation: a time if an entry of the root's record is named so and tells
a number. -/
structure Creation (entries : List (Node × Node)) (d : Decoded) : Prop where
  told : ∀ n, (∃ iso, d.created = some (n, iso)) ↔
    (Node.struct entries).fields?.isSome ∧ ∃ e ∈ entries, e.1.fieldName? = some "created" ∧
      (Denotes e.2 n ∨ PassesFor e.2 n)
  form : ∀ n iso, d.created = some (n, iso) → Number.IsoForm n iso
  unix : d.toJson.get? "created_unix" = d.created.map fun time => .nat time.1
  iso : d.toJson.get? "created_iso" = d.created.map fun time => .str time.2

theorem createdOf_record {entries : List (Node × Node)} {time : Option Nat}
    (found : createdOf ((Node.struct entries).fields?.getD []) = .ok time) (n : Nat) :
    time = some n ↔ (Node.struct entries).fields?.isSome ∧
      ∃ e ∈ entries, e.1.fieldName? = some "created" ∧ (Denotes e.2 n ∨ PassesFor e.2 n) := by
  rw [createdOf_tells found]
  cases record : (Node.struct entries).fields? with
  | none => simp [Json.field?]
  | some fields =>
    have folds := Node.fields_eq_some.mp record
    simp only [Option.getD_some, Option.isSome_some, true_and, ← tells_valueJson]
    constructor
    · rintro ⟨v, field, told⟩
      obtain ⟨e, member, named, rfl⟩ := folds.of_field? field
      exact ⟨e, member, named, told⟩
    · rintro ⟨e, member, named, told⟩
      exact ⟨_, folds.field? member named, told⟩

theorem decodeTree_created {data : List UInt8} {hints : Hints} {d : Decoded} {notes : List Text}
    (decoded : decodeTree data hints = .ok (d, notes)) :
    ∃ entries cursor time,
      (Node.read treeLabel (Node.levelsFrom 0)).onBytes data = .ok (.struct entries, cursor) ∧
        createdOf ((Node.struct entries).fields?.getD []) = .ok time ∧
        d.created.map Prod.fst = time ∧
        ∀ n iso, d.created = some (n, iso) → Number.isoTime n = .ok iso := by
  unfold decodeTree at decoded
  obtain ⟨⟨root, cursor⟩, read, decoded⟩ := except_bind_ok.mp decoded
  dsimp only at decoded
  split at decoded
  · cases decoded
  rename_i struct
  obtain ⟨time, found, decoded⟩ := except_bind_ok.mp decoded
  cases root with
  | struct entries =>
    refine ⟨entries, cursor, time, read, found, ?_⟩
    cases time with
    | none =>
      cases decoded
      exact ⟨rfl, nofun⟩
    | some unix =>
      obtain ⟨iso, written, decoded⟩ := except_bind_ok.mp decoded
      cases decoded
      refine ⟨rfl, fun n iso created => ?_⟩
      cases created
      exact written
  | _ => exact absurd nofun struct

/-- An accepted tree tells a time of creation exactly if its root has a record and an entry named
`created` in it denotes a number, or is bytes that pass for one. -/
theorem creation_time_is_told_iff {data : List UInt8} {hints : Hints} {d : Decoded}
    {notes : List Text} (decoded : decodeTree data hints = .ok (d, notes)) :
    ∃ entries cursor,
      (Node.read treeLabel (Node.levelsFrom 0)).onBytes data = .ok (.struct entries, cursor) ∧
        Creation entries d := by
  obtain ⟨entries, cursor, time, read, found, told, written⟩ := decodeTree_created decoded
  obtain ⟨unix, iso⟩ := shown_created d
  refine ⟨entries, cursor, read, fun n => ?_, fun n iso created => ?_, unix, iso⟩
  · rw [← createdOf_record found, ← told, Option.map_eq_some_iff]
    constructor
    · rintro ⟨iso, created⟩
      exact ⟨_, created, rfl⟩
    · rintro ⟨⟨_, iso⟩, created, rfl⟩
      exact ⟨iso, created⟩
  · exact Number.isoTime_form (written n iso created)

theorem seven_unmarked : (7 : UInt8).toNat < 0xfd := by decide

theorem created_exact : (Text.Utf8.encode "created").length = 7 := by decide +kernel

def dated (value : Tree) : Tree :=
  .struct (.byte 1 one_unmarked)
    (fun _ => .text ⟨.byte 7 seven_unmarked, "created", created_exact⟩) fun _ => value

theorem decodeTree_dated {value : Tree} {n : Nat} {iso : String}
    (shallow : (dated value).height < Node.levelsFrom 0)
    (told : createdOf (Json.member "created" value.node.valueJson) = .ok (some n))
    (written : Number.isoTime n = .ok iso) (hints : Hints) :
    ∃ d cursor, (Node.read treeLabel (Node.levelsFrom 0)).onBytes (dated value).wire =
        .ok (.struct [(.text "created", value.node)], cursor) ∧
      decodeTree (dated value).wire hints = .ok (d, []) ∧ d.created = some (n, iso) := by
  have read := ((dated value).reads treeLabel shallow).onBytes []
  rw [List.append_nil] at read
  have node : (dated value).node = .struct [(.text "created", value.node)] := rfl
  have record : (Node.struct [(.text "created", value.node)]).fields?.getD [] =
      Json.member "created" value.node.valueJson := rfl
  rw [node] at read
  have decoded : ∃ d, decodeTree (dated value).wire hints = .ok (d, []) ∧
      d.created = some (n, iso) := by
    rw [decodeTree, read]
    simp only [bind, Except.bind, record, told, written, pure, Except.pure]
    exact ⟨_, rfl, rfl⟩
  obtain ⟨d, returned, created⟩ := decoded
  exact ⟨d, _, read, returned, created⟩

/-- A time stamp is told as it is. -/
theorem timestamp_is_told :
    ∃ d entries cursor,
      decodeTree (dated (.timestamp 1700000000)).wire ⟨none, none⟩ = .ok (d, []) ∧
      (Node.read treeLabel (Node.levelsFrom 0)).onBytes (dated (.timestamp 1700000000)).wire =
        .ok (.struct entries, cursor) ∧
      Creation entries d ∧ d.created = some (1700000000, "2023-11-14T22:13:20Z") := by
  have shallow : (dated (.timestamp 1700000000)).height < Node.levelsFrom 0 := by decide +kernel
  have written : Number.isoTime (1700000000 : Nat) = .ok "2023-11-14T22:13:20Z" := by
    decide +kernel
  obtain ⟨d, -, -, returned, created⟩ := decodeTree_dated shallow rfl written ⟨none, none⟩
  obtain ⟨entries, cursor, read, creation⟩ := creation_time_is_told_iff returned
  exact ⟨d, entries, cursor, returned, read, creation, created⟩

def digitBytes : Tree := .bytes ⟨.byte 1 one_unmarked, [0x12], rfl⟩

/-- A byte of eighteen is no number, but it is written `12` and told as twelve. -/
theorem digit_bytes_are_told :
    ∃ d cursor,
      (Node.read treeLabel (Node.levelsFrom 0)).onBytes (dated digitBytes).wire =
        .ok (.struct [(.text "created", .bytes [0x12])], cursor) ∧
      decodeTree (dated digitBytes).wire ⟨none, none⟩ = .ok (d, []) ∧
      d.created = some (12, "1970-01-01T00:00:12Z") ∧ ∀ n, ¬ Denotes (.bytes [0x12]) n := by
  have shallow : (dated digitBytes).height < Node.levelsFrom 0 := by decide +kernel
  have written : Number.isoTime (12 : Nat) = .ok "1970-01-01T00:00:12Z" := by decide +kernel
  obtain ⟨d, cursor, read, returned, created⟩ := decodeTree_dated shallow rfl written ⟨none, none⟩
  exact ⟨d, cursor, read, returned, created, nofun⟩

end ChainDecode.Rom
