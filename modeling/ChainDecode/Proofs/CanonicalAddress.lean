import ChainDecode.Proofs.Address

/-! # Canonical address texts

An address that is not null has one text, whatever blanks stand around it, and it is read back from
it if its kind byte is not zero. All null addresses share the text of the zero address.
-/
namespace ChainDecode.Address

theorem bytes_of_ofBytes {bytes : List UInt8} {a : Address} (made : ofBytes bytes = .ok a) :
    a.bytes = bytes := by
  unfold ofBytes at made
  split at made
  · split at made
    · cases made
      rfl
    · cases made
  · cases made

theorem ofText_cases {t : Text} {a : Address} (read : ofText t = .ok a) :
    (t.strip = nullText ∧ a = zero) ∨
      ∃ letter, a.kind.letter? = some letter ∧
        t.strip = Text.ofChars (letter :: (Text.Base58.encode a.bytes).toList) := by
  unfold ofText at read
  dsimp only at read
  split at read
  · rename_i null
    exact Or.inl ⟨null, (Except.ok.inj read).symm⟩
  split at read
  · rename_i letter numeral letters
    split at read
    · cases read
    split at read
    · cases read
    rename_i bytes decoded
    split at read
    · cases read
    cases made : ofBytes bytes with
    | error f =>
      rw [made] at read
      cases read
    | ok b =>
      rw [made] at read
      change (if b.kind.letter?.map Letter.char = some letter then Except.ok b
        else Except.error (Fault.addressLetter letter)) = .ok a at read
      split at read
      · rename_i agrees
        cases read
        obtain ⟨c, known, rfl⟩ := Option.map_eq_some_iff.mp agrees
        refine Or.inr ⟨c, known, ?_⟩
        have written := Text.Base58.encode_of_decode decoded
        rw [bytes_of_ofBytes made]
        exact congrArg Text.mk (letters.trans (congrArg _ written))
      · cases read
  · cases read

theorem text_of_ofText {t : Text} {a : Address} (read : ofText t = .ok a) :
    a.isNull = true ∨ (a.text : Text) = t.strip := by
  rcases ofText_cases read with ⟨-, rfl⟩ | ⟨letter, known, written⟩
  · exact Or.inl (by decide)
  · cases present : a.isNull with
    | true => exact Or.inl rfl
    | false => exact Or.inr ((text_letters present known).trans written.symm)

theorem ofText_of_null {a : Address} (null : a.isNull = true) : ofText a.text = .ok zero := by
  rw [text, if_pos null]
  exact ofText_null

theorem letter_iff_tag {a : Address} (present : a.isNull = false) :
    (∃ letter, a.kind.letter? = some letter) ↔ a.tag ≠ 0 := by
  rw [kind, present, if_neg (by decide), Kind.ofTag]
  by_cases zero : a.tag = 0
  · simp [zero, Kind.letter?]
  · simp only [zero, if_false, ne_eq, not_false_eq_true, iff_true]
    split
    · exact ⟨'P', rfl⟩
    · split
      · exact ⟨'S', rfl⟩
      · exact ⟨'X', rfl⟩

theorem ofText_kindless {a : Address} (present : a.isNull = false) (kindless : a.tag = 0) :
    ofText a.text = .error (.addressLetter (.char '?')) := by
  have none : a.kind.letter? = none := by
    rw [kind, present, if_neg (by decide), Kind.ofTag, if_pos kindless]
    rfl
  rw [ofText_present present, none]
  rfl

theorem bytes_eq_zeros_iff {a : Address} : a.bytes = List.replicate size 0 ↔ a = zero := by
  constructor
  · intro zeros
    obtain ⟨tag, reserved, key, length⟩ := a
    obtain ⟨rfl, rest⟩ := List.cons.inj zeros
    obtain ⟨rfl, rfl⟩ := List.cons.inj rest
    rfl
  · rintro rfl
    rfl

/-- What the texts of an address are, and what is read from its own text. -/
structure CanonicalText (a : Address) : Prop where
  -- A text of the address is its own one between blanks, unless the address is null.
  written : ∀ t : Text, ofText t = .ok a → a.isNull = true ∨ (a.text : Text) = t.strip
  -- Only null addresses have two texts that differ in more than the blanks around them.
  alone : ∀ s t : Text, ofText s = .ok a → ofText t = .ok a → a.isNull = false → s.strip = t.strip
  returns : ofText a.text = .ok a ↔
    a.bytes = List.replicate 34 0 ∨ (a.isNull = false ∧ a.tag ≠ 0)
  null : a.isNull = true → a.tag ≠ 0 →
    ∃ b, ofText a.text = .ok b ∧ b.bytes = List.replicate 34 0
  kindless : a.isNull = false → a.tag = 0 → ∃ f, ofText a.text = .error f ∧ f.kind = .format

/-- The text of an address is canonical: it is the only one, and it is read back as the address
exactly if this is zero throughout or neither null nor of no kind. -/
theorem address_text_is_canonical (a : Address) : CanonicalText a := by
  refine ⟨fun t read => text_of_ofText read, ?_, ?_, ?_, ?_⟩
  · intro s t first second present
    have own : ∀ u : Text, ofText u = .ok a → (a.text : Text) = u.strip := fun u read =>
      (text_of_ofText read).resolve_left (by rw [present]; decide)
    exact (own s first).symm.trans (own t second)
  · have zeros : a.bytes = List.replicate 34 0 ↔ a = zero := bytes_eq_zeros_iff
    rw [zeros]
    cases present : a.isNull with
    | true =>
      rw [ofText_of_null present]
      simp [eq_comm]
    | false =>
      have other : a ≠ zero := by
        rintro rfl
        exact absurd present (by decide)
      by_cases kindless : a.tag = 0
      · rw [ofText_kindless present kindless]
        simp [other, kindless]
      · obtain ⟨letter, known⟩ := (letter_iff_tag present).mpr kindless
        simp [ofText_text present known, kindless]
  · intro null _
    exact ⟨zero, ofText_of_null null, rfl⟩
  · intro present kindless
    exact ⟨_, ofText_kindless present kindless, rfl⟩

/-- A user's address is read from its text, and from its text between blanks. -/
theorem user_text_is_canonical :
    ∃ a : Address, ofText "\tP2K3r24ukzvQ3MAim2vTMoUTyeqv8NYuyPoN7r9RaHYhZhZ\n" = .ok a ∧
      a.isNull = false ∧ a.tag ≠ 0 ∧ ofText a.text = .ok a ∧
      (a.text : Text) = "P2K3r24ukzvQ3MAim2vTMoUTyeqv8NYuyPoN7r9RaHYhZhZ" := by
  let a : Address := ⟨1, 0, (List.range 32).map fun n => UInt8.ofNat (n + 1), by decide⟩
  have read : ofText "\tP2K3r24ukzvQ3MAim2vTMoUTyeqv8NYuyPoN7r9RaHYhZhZ\n" = .ok a := by
    decide +kernel
  have present : a.isNull = false := by decide +kernel
  have kind : a.tag ≠ 0 := by decide
  have stripped : Text.strip "\tP2K3r24ukzvQ3MAim2vTMoUTyeqv8NYuyPoN7r9RaHYhZhZ\n" =
      "P2K3r24ukzvQ3MAim2vTMoUTyeqv8NYuyPoN7r9RaHYhZhZ" := by
    decide +kernel
  have canonical := address_text_is_canonical a
  refine ⟨a, read, present, kind, canonical.returns.mpr (Or.inr ⟨present, kind⟩), ?_⟩
  rw [← stripped]
  exact (canonical.written _ read).resolve_left (by rw [present]; decide)

end ChainDecode.Address
