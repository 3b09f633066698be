import ChainDecode.Proofs.Address

/-! # Hexadecimal texts

A text is hexadecimal if, blanks apart, it is an even number of digits with at most one mark in
front. Such a text is read as the bytes that are written in its digits, and every other text is
refused.
-/
namespace ChainDecode.Text.Hex

def marks : List (List Char) := [[], ['0', 'x'], ['0', 'X']]

/-- A text that is an even number of digits behind a mark, spread over any blanks. -/
structure Spells (t : Text) (digits : List Char) : Prop where
  letters : ∃ mark ∈ marks, inked t = (mark ++ digits).map .char
  hexadecimal : ∀ c ∈ digits, HexDigit c
  even : digits.length % 2 = 0

def small (digits : List Char) : String := String.ofList (digits.map Char.toLower)

/-- A text is read as the bytes that its digits write. -/
structure IsRead (t : Text) (digits : List Char) : Prop where
  bytes : ∃ bytes, decode t = .ok bytes ∧ encode bytes = small digits
  normal : normalize t = .ok (small digits)

def Refused (t : Text) : Prop :=
  ∃ f : Fault, f.kind = .format ∧ decode t = .error f ∧ normalize t = .error f

theorem body_marked (ls : List Letter) : ∃ mark ∈ marks, ls = mark.map .char ++ body ls := by
  unfold body
  split
  · exact ⟨['0', 'x'], by simp [marks], rfl⟩
  · exact ⟨['0', 'X'], by simp [marks], rfl⟩
  · exact ⟨[], by simp [marks], rfl⟩

theorem Spells.digit {t : Text} {digits : List Char} (h : Spells t digits) :
    ∀ c ∈ digits, isHexDigit c = true :=
  fun c member => (hexDigit_iff c).mpr (h.hexadecimal c member)

theorem Spells.body {t : Text} {digits : List Char} (h : Spells t digits) :
    body (inked t) = digits.map .char := by
  obtain ⟨mark, known, letters⟩ := h.letters
  rw [letters]
  simp only [marks, List.mem_cons, List.not_mem_nil, or_false] at known
  rcases known with rfl | rfl | rfl
  · exact body_digits h.digit
  · rfl
  · rfl

theorem Spells.normalChars {t : Text} {digits : List Char} (h : Spells t digits) :
    normalChars t = .ok (digits.map Char.toLower) :=
  normalChars_of_body h.body h.digit h.even

theorem eq_chars_of_all {kind : Char → Bool} {ls : List Letter} (h : ls.all (·.is kind) = true) :
    ∃ cs : List Char, ls = cs.map .char ∧ ∀ c ∈ cs, kind c = true := by
  induction ls with
  | nil => exact ⟨[], rfl, by simp⟩
  | cons l ls ih =>
    obtain ⟨first, rest⟩ := Bool.and_eq_true_iff.mp (List.all_cons ▸ h)
    obtain ⟨cs, rfl, others⟩ := ih rest
    cases l with
    | char c => exact ⟨c :: cs, rfl, List.forall_mem_cons.mpr ⟨first, others⟩⟩
    | surrogate place => cases first

theorem spells_or_refused (t : Text) :
    (∃ digits, Spells t digits) ∨ ∃ f : Fault, f.kind = .format ∧ normalChars t = .error f := by
  obtain ⟨mark, known, letters⟩ := body_marked (inked t)
  unfold Hex.normalChars
  dsimp only
  by_cases odd : (Hex.body (inked t)).length % 2 = 1
  · exact .inr ⟨_, rfl, if_pos odd⟩
  rw [if_neg odd]
  by_cases all : (Hex.body (inked t)).all (·.is isHexDigit) = true
  · obtain ⟨digits, same, digit⟩ := eq_chars_of_all all
    refine .inl ⟨digits, ⟨mark, known, ?_⟩,
      fun c member => (hexDigit_iff c).mp (digit c member), ?_⟩
    · rw [List.map_append, ← same]
      exact letters
    · rw [same, List.length_map] at odd
      omega
  · exact .inr ⟨_, rfl, if_neg all⟩

theorem toLower_digit {c : Char} (h : isHexDigit c = true) : ∃ n < 16, c.toLower = hexDigit n := by
  have table : ∀ n < 127, isHexDigit (Char.ofNat n) = true →
      ∃ m < 16, (Char.ofNat n).toLower = hexDigit m := by
    decide +kernel
  have row := digit_row h
  have found := table c.toNat (by omega)
  rw [Char.ofNat_toNat] at found
  exact found h

theorem flatMap_ofPairs {cs : List Char} (digits : ∀ c ∈ cs, ∃ n < 16, c = hexDigit n)
    (even : cs.length % 2 = 0) : (ofPairs cs).flatMap ofByte = cs := by
  match cs with
  | [] => rfl
  | [_] => simp at even
  | high :: low :: rest =>
    obtain ⟨m, bound, rfl⟩ := digits high (by simp)
    obtain ⟨n, bound', rfl⟩ := digits low (by simp)
    have others : (ofPairs rest).flatMap ofByte = rest :=
      flatMap_ofPairs (fun c member => digits c (by simp [member]))
        (by simp only [List.length_cons] at even; omega)
    have value : (UInt8.ofNat (m * 16 + n)).toNat = m * 16 + n := by
      rw [UInt8.toNat_ofNat']
      exact Nat.mod_eq_of_lt (by omega)
    have front : (m * 16 + n) / 16 = m := by omega
    have back : (m * 16 + n) % 16 = n := by omega
    rw [ofPairs, hexValue_hexDigit bound, hexValue_hexDigit bound', Option.getD_some,
      Option.getD_some, List.flatMap_cons, others, ofByte, value, front, back]
    rfl

theorem Spells.isRead {t : Text} {digits : List Char} (h : Spells t digits) : IsRead t digits := by
  have written : ∀ c ∈ digits.map Char.toLower, ∃ n < 16, c = hexDigit n := by
    intro c member
    obtain ⟨d, inside, rfl⟩ := List.mem_map.mp member
    exact toLower_digit (h.digit d inside)
  have even : (digits.map Char.toLower).length % 2 = 0 := by rw [List.length_map, h.even]
  refine ⟨⟨ofPairs (digits.map Char.toLower), ?_, ?_⟩, ?_⟩
  · rw [decode, h.normalChars]
    rfl
  · rw [encode, flatMap_ofPairs written even, small]
  · rw [normalize, h.normalChars]
    rfl

theorem refused_iff (t : Text) : Refused t ↔ ∀ digits, ¬ Spells t digits := by
  constructor
  · rintro ⟨f, -, stop, -⟩ digits h
    obtain ⟨bytes, read, -⟩ := h.isRead.bytes
    rw [read] at stop
    cases stop
  · intro none
    rcases spells_or_refused t with ⟨digits, h⟩ | ⟨f, format, stop⟩
    · exact absurd h (none digits)
    · refine ⟨f, format, ?_, ?_⟩
      · rw [decode, stop]
        rfl
      · rw [normalize, stop]
        rfl

theorem normalize_normal {t : Text} {s : String} (h : normalize t = .ok s) :
    normalize s = .ok s := by
  rcases spells_or_refused t with ⟨digits, spells⟩ | ⟨f, -, stop⟩
  · obtain ⟨bytes, -, written⟩ := spells.isRead.bytes
    rw [spells.isRead.normal, ← written] at h
    cases h
    rw [normalize, normalChars_written]
    rfl
  · rw [normalize, stop] at h
    cases h

/-- Exactly the hexadecimal texts are read, as the bytes that their digits write in small form, and
every other text is refused for its form. So bytes are read back from their digits, and a text in
normal form stays as it is. -/
theorem hexadecimal_is_read_exactly :
    (∀ t digits, Spells t digits → IsRead t digits) ∧
    (∀ t, Refused t ↔ ∀ digits, ¬ Spells t digits) ∧
    (∀ bytes : List UInt8, decode (encode bytes) = .ok bytes) ∧
    ∀ (t : Text) (s : String), normalize t = .ok s → normalize s = .ok s :=
  ⟨fun _ _ h => h.isRead, refused_iff, decode_encode, fun _ _ h => normalize_normal h⟩

/-- Blanks may stand inside the mark, and one mark only is taken off. -/
theorem one_mark_is_taken :
    Spells "0\u00a0X aB\tc D" ['a', 'B', 'c', 'D'] ∧
      IsRead "0\u00a0X aB\tc D" ['a', 'B', 'c', 'D'] ∧
      Refused "0x0x12" ∧ normalize "0xAB" = .ok "ab" ∧ normalize "ab" = .ok "ab" := by
  have digit : ['a', 'B', 'c', 'D'].all isHexDigit = true := by decide
  have spells : Spells "0\u00a0X aB\tc D" ['a', 'B', 'c', 'D'] :=
    ⟨⟨['0', 'X'], by decide, by decide +kernel⟩,
      fun c member => (hexDigit_iff c).mp (List.all_eq_true.mp digit c member), rfl⟩
  have twice : ∀ digits, ¬ Spells "0x0x12" digits := by
    intro digits h
    have stop : decode "0x0x12" = .error .hexBadDigit := by decide +kernel
    obtain ⟨bytes, read, -⟩ := h.isRead.bytes
    rw [read] at stop
    cases stop
  have normal : normalize "0xAB" = .ok "ab" := by decide +kernel
  obtain ⟨reads, refuses, -, stays⟩ := hexadecimal_is_read_exactly
  exact ⟨spells, reads _ _ spells, (refuses _).mpr twice, normal, stays _ _ normal⟩

end ChainDecode.Text.Hex
