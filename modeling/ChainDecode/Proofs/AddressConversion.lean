import ChainDecode.Proofs.CanonicalAddress
import ChainDecode.Proofs.Reading

/-! # Address texts there and back

A key leaves out the kind byte and the reserved byte of its address, and the way back makes both up
from the key. So the text comes back exactly if they were what is made up, or if the address is null
and its text shows neither.
-/
namespace ChainDecode.Address

def TagOfKey (a : Address) : Prop := a.tag = if StartsWithZeros a.key then 2 else 1

instance : DecidablePred TagOfKey := fun a =>
  inferInstanceAs (Decidable (a.tag = if StartsWithZeros a.key then 2 else 1))

variable {t : Text} {a b : Address}

theorem ofKey_eq_iff (made : ofKey a.key = .ok b) : b = a ↔ a.reserved = 0 ∧ TagOfKey a := by
  rw [ofKey_ok a.key_length] at made
  cases made
  have system : isSystemKey a.key = true ↔ StartsWithZeros a.key := by
    simp [isSystemKey, StartsWithZeros]
  obtain ⟨tag, reserved, key, size⟩ := a
  simp only [mk.injEq, and_true, TagOfKey, system]
  constructor
  · rintro ⟨tags, reserves⟩
    exact ⟨reserves.symm, tags.symm⟩
  · rintro ⟨reserves, tags⟩
    exact ⟨tags.symm, reserves.symm⟩

theorem zeros_of_null (null : a.isNull = true) : ∀ b ∈ a.key, b = 0 := by
  simp only [isNull, List.all_cons, Bool.and_eq_true, List.all_eq_true, decide_eq_true_eq] at null
  exact null.2

theorem letter_of_ofText (read : ofText t = .ok a) (present : a.isNull = false) :
    ∃ letter, a.kind.letter? = some letter := by
  rcases ofText_cases read with ⟨-, rfl⟩ | ⟨letter, known, -⟩
  · exact absurd present (by decide)
  · exact ⟨letter, known⟩

theorem text_returns_iff (read : ofText t = .ok a) (made : ofKey a.key = .ok b) :
    b.text = a.text ↔ a.isNull = true ∨ a.reserved = 0 ∧ TagOfKey a := by
  cases present : a.isNull with
  | true =>
    have null := (text_ofKey_null made).mpr (zeros_of_null present)
    rw [null, text, if_pos present]
    simp [nullText]
  | false =>
    obtain ⟨letter, known⟩ := letter_of_ofText read present
    have own := ofText_text present known
    rw [← ofKey_eq_iff made]
    simp only [Bool.false_eq_true, false_or]
    constructor
    · intro same
      rw [← same] at own
      cases null : b.isNull with
      | true =>
        rw [ofText_of_null null] at own
        cases own
        exact absurd present (by decide)
      | false =>
        obtain ⟨letter, known⟩ := letter_ofKey made
        rw [ofText_text null known] at own
        exact Except.ok.inj own
    · intro same
      rw [same]

theorem tag_cases (read : ofText t = .ok a) (native : a.kind ≠ .interop)
    (present : a.isNull = false) : a.tag = 1 ∧ a.kind = .user ∨ a.tag = 2 ∧ a.kind = .system := by
  obtain ⟨letter, known⟩ := letter_of_ofText read present
  have some := (letter_iff_tag present).mp ⟨letter, known⟩
  have kinds : a.kind = Kind.ofTag a.tag := by rw [kind, if_neg (by rw [present]; decide)]
  rw [kinds, Kind.ofTag, if_neg some] at native ⊢
  by_cases user : a.tag = 1
  · exact Or.inl ⟨user, if_pos user⟩
  · rw [if_neg user] at native ⊢
    by_cases system : a.tag = 2
    · exact Or.inr ⟨system, if_pos system⟩
    · exact absurd (if_neg system) native

theorem kind_returns_iff (read : ofText t = .ok a) (native : a.kind ≠ .interop)
    (made : ofKey a.key = .ok b) : b.isSystem = a.isSystem ↔ a.isNull = true ∨ TagOfKey a := by
  have kinds := kind_ofKey made
  cases present : a.isNull with
  | true =>
    have zeros : StartsWithZeros a.key := fun b member =>
      zeros_of_null present b (List.mem_of_mem_take member)
    have system : a.kind = .system := by rw [kind, if_pos present]
    rw [if_pos zeros] at kinds
    simp [isSystem, kinds, system]
  | false =>
    unfold isSystem TagOfKey
    rw [kinds]
    rcases tag_cases read native present with ⟨tag, user⟩ | ⟨tag, system⟩
    · rw [tag, user]
      by_cases zeros : StartsWithZeros a.key <;> simp [zeros]
    · rw [tag, system]
      by_cases zeros : StartsWithZeros a.key <;> simp [zeros]

theorem of_convert_text {c : Conversion} (converted : convert none (some t) = .ok c) :
    ofText t = .ok c.address ∧ c.address.kind ≠ .interop ∧ c.direction = .textToKey := by
  unfold convert at converted
  cases given : t.isEmpty with
  | true =>
    have none : Option.filter (fun t : Text => !t.isEmpty) (some t) = none := by simp [given]
    rw [none] at converted
    cases converted
  | false =>
    have some : Option.filter (fun t : Text => !t.isEmpty) (some t) = some t := by simp [given]
    rw [some] at converted
    obtain ⟨a, read, rest⟩ := except_bind_ok.mp converted
    split at rest
    · cases rest
    · rename_i native
      cases rest
      exact ⟨read, native, rfl⟩

theorem kindName_eq_iff {c d : Conversion} :
    c.kindName = d.kindName ↔ c.address.isSystem = d.address.isSystem := by
  unfold Conversion.kindName
  cases c.address.isSystem <;> cases d.address.isSystem <;> decide

/-- How an address text and its key are reported on the way there and on the way back. -/
structure ThereAndBack (t : Text) (a : Address) (there back : Conversion) : Prop where
  read : ofText t = .ok a
  -- The text that is reported is the one that was given, without the blanks around it, unless the
  -- address is null.
  given : (there.address.text : Text) = if a.isNull then .ofString "NULL" else t.strip
  shown : there.toJson = report "pha-to-bytes32" there.kindName a.key there.address.text
  returned : convert (some (Text.Hex.encode a.key)) none = .ok back
  shownBack : back.toJson = report "bytes32-to-pha" back.kindName a.key back.address.text
  text : back.address.text = there.address.text ↔
    a.isNull = true ∨ a.reserved = 0 ∧ TagOfKey a
  kind : back.kindName = there.kindName ↔ a.isNull = true ∨ TagOfKey a

/-- Every address text that is converted to a key can be converted back. The same text comes back
exactly if the address is null or has no other kind byte than its key stands for and nothing in the
reserved byte, and the same kind exactly if it is null or has this kind byte. -/
theorem address_texts_there_and_back (t : Text) (there : Conversion)
    (converted : convert none (some t) = .ok there) :
    ∃ a back, ThereAndBack t a there back := by
  obtain ⟨read, native, direction⟩ := of_convert_text converted
  obtain ⟨b, made⟩ : ∃ b, ofKey there.address.key = .ok b := ⟨_, ofKey_ok there.address.key_length⟩
  refine ⟨there.address, ⟨.keyToText, b⟩, read, ?_, ?_, convert_key made, ?_,
    text_returns_iff read made, ?_⟩
  · cases present : there.address.isNull with
    | true => rw [text, if_pos present]; rfl
    | false => exact (text_of_ofText read).resolve_left (by rw [present]; decide)
  · simp [Conversion.toJson, report, direction, Direction.name]
  · simp [Conversion.toJson, report, Direction.name, (ofKey_cases made).1]
  · rw [kindName_eq_iff]
    exact kind_returns_iff read native made

/-- The text of a system whose key has no zeros in front comes back as the text of a user. -/
theorem system_text_comes_back_changed :
    ∃ there a back,
      convert none (some " S3d6d6wyhSVe87tjsVrcHFMzUzMtZ7HdFU1BA3PmPc2uQiB") = .ok there ∧
      ThereAndBack " S3d6d6wyhSVe87tjsVrcHFMzUzMtZ7HdFU1BA3PmPc2uQiB" a there back ∧
      a.tag = 2 ∧ a.reserved = 0 ∧ back.address.text ≠ there.address.text ∧
      back.kindName ≠ there.kindName := by
  let a : Address := ⟨2, 0, (List.range 32).map fun n => UInt8.ofNat (n + 1), by decide⟩
  have converted : convert none (some " S3d6d6wyhSVe87tjsVrcHFMzUzMtZ7HdFU1BA3PmPc2uQiB") =
      .ok ⟨.textToKey, a⟩ := by
    decide +kernel
  obtain ⟨c, back, both⟩ := address_texts_there_and_back _ _ converted
  have same : c = a := Except.ok.inj (both.read.symm.trans (of_convert_text converted).1)
  subst same
  have other : ¬ (a.isNull = true ∨ TagOfKey a) := by decide +kernel
  refine ⟨_, a, back, converted, both, rfl, rfl, ?_, mt both.kind.mp other⟩
  exact fun text => other ((both.text.mp text).imp_right And.right)

end ChainDecode.Address
