import ChainDecode.Number.Numeral

/-! # Numerals made of digits

A text of digits is a numeral when each of its digits has a decimal value and there are not too
many of them. Digits of every script have one; digits by form only, such as a superscript, do not.
-/
namespace ChainDecode

def Letter.digit? (l : Letter) : Option Nat := l.char?.bind Text.decimalDigit?

namespace Text

theorem decimalDigit_lt {c : Char} {d : Nat} (h : decimalDigit? c = some d) : d < 10 := by
  obtain ⟨z, found, rfl⟩ := Option.map_eq_some_iff.mp h
  have row := List.find?_some found
  simp only [Bool.and_eq_true, decide_eq_true_eq] at row
  omega

theorem digit_ascii {c : Char} (ascii : c.toNat < 127) (h : isDigit c = true) :
    0x30 ≤ c.toNat ∧ c.toNat ≤ 0x39 ∧ decimalDigit? c = some (c.toNat - 0x30) := by
  have table : ∀ n < 127,
      (zeros.find? fun z => z ≤ n && n ≤ z + 9) =
          (if 0x30 ≤ n ∧ n ≤ 0x39 then some 0x30 else none) ∧
        inRanges digitForms n = false := by decide +kernel
  obtain ⟨zero, noForm⟩ := table c.toNat ascii
  rw [isDigit, decimalDigit?, zero, noForm] at h
  rw [decimalDigit?, zero]
  by_cases row : 0x30 ≤ c.toNat ∧ c.toNat ≤ 0x39
  · simp [row]
  · simp [row] at h

def blanks : List Nat :=
  [0x9, 0xa, 0xb, 0xc, 0xd, 0x1c, 0x1d, 0x1e, 0x1f, 0x20, 0x85, 0xa0, 0x1680, 0x2000, 0x2001,
    0x2002, 0x2003, 0x2004, 0x2005, 0x2006, 0x2007, 0x2008, 0x2009, 0x200a, 0x2028, 0x2029,
    0x202f, 0x205f, 0x3000]

theorem mem_blanks {c : Char} (h : isBlank c = true) : c.toNat ∈ blanks := by
  simp [isBlank] at h
  simp only [blanks, List.mem_cons, List.not_mem_nil, or_false]
  omega

theorem blank_not_digit {c : Char} (h : isBlank c = true) : isDigit c = false := by
  have table : ∀ n ∈ blanks,
      (zeros.find? fun z => z ≤ n && n ≤ z + 9) = none ∧ inRanges digitForms n = false := by
    decide
  obtain ⟨noZero, noForm⟩ := table c.toNat (mem_blanks h)
  simp [isDigit, decimalDigit?, noZero, noForm]

end Text

namespace Number

def digitChar (d : Nat) : Char := Char.ofNat (0x30 + d)

theorem digitChar_isDigit : ∀ d < 10, (digitChar d).isDigit = true := by decide

theorem digitChar_value : ∀ d < 10, (digitChar d).toNat - 0x30 = d := by decide

theorem plain_digit {l : Letter} (h : l.is Text.isDigit = true) :
    plain l = (l.digit?.map digitChar).getD '?' := by
  cases l with
  | surrogate place => simp [Letter.is, Letter.char?] at h
  | char c =>
    have digit : Text.isDigit c = true := by simpa [Letter.is, Letter.char?] using h
    simp only [plain, Letter.char?, Letter.digit?, Option.map_some, Option.getD_some,
      Option.bind_some]
    unfold plainChar
    by_cases ascii : c.toNat < 127
    · obtain ⟨low, high, value⟩ := Text.digit_ascii ascii digit
      have same : 0x30 + (c.toNat - 0x30) = c.toNat := by omega
      rw [if_pos ascii, value, Option.map_some, Option.getD_some, digitChar, same,
        Char.ofNat_toNat]
    · have inked : ¬ Text.isBlank c = true := by
        intro blank
        rw [Text.blank_not_digit blank] at digit
        cases digit
      rw [if_neg ascii, if_neg inked]
      cases Text.decimalDigit? c <;> rfl

theorem digitRun_values {ds : List Nat} (small : ∀ d ∈ ds, d < 10) {rest : List Char}
    (stop : ∀ c ∈ rest.head?, c.isDigit = false ∧ c ≠ '_') (after : Bool) :
    digitRun after (ds.map digitChar ++ rest) =
      if after = true ∨ ds ≠ [] then some (ds, rest) else none := by
  induction ds generalizing after with
  | nil =>
    cases rest with
    | nil => cases after <;> rfl
    | cons c rest =>
      obtain ⟨noDigit, noMark⟩ := stop c (by simp)
      cases after <;> simp [digitRun, noDigit, noMark]
  | cons d ds ih =>
    have digit := digitChar_isDigit d (small d List.mem_cons_self)
    have value := digitChar_value d (small d List.mem_cons_self)
    have others := ih (fun e member => small e (List.mem_cons_of_mem d member)) true
    rw [if_pos (Or.inl rfl)] at others
    rw [List.map_cons, List.cons_append, digitRun, if_pos digit, others, if_pos (by simp)]
    simp [value]

theorem digitValue_lt {ls : List Letter} {ds : List Nat}
    (values : ls.map Letter.digit? = ds.map some) :
    ∀ d ∈ ds, d < 10 := by
  intro d member
  have listed : some d ∈ ls.map Letter.digit? := by
    rw [values]
    exact List.mem_map_of_mem member
  obtain ⟨l, _, value⟩ := List.mem_map.mp listed
  obtain ⟨c, _, digit⟩ := Option.bind_eq_some_iff.mp value
  exact Text.decimalDigit_lt digit

theorem plain_digit_inked {l : Letter} (h : l.is Text.isDigit = true) :
    isMargin (plain l) = false ∧ plain l ≠ '-' ∧ plain l ≠ '+' := by
  have plainDigits : ∀ d < 10,
      isMargin (digitChar d) = false ∧ digitChar d ≠ '-' ∧ digitChar d ≠ '+' := by decide
  rw [plain_digit h]
  cases value : l.digit? with
  | none => exact ⟨by decide, by decide, by decide⟩
  | some d =>
    obtain ⟨c, _, digit⟩ := Option.bind_eq_some_iff.mp value
    exact plainDigits d (Text.decimalDigit_lt digit)

theorem signed_digits {ls : List Letter} (digits : ∀ l ∈ ls, l.is Text.isDigit = true) :
    signed ((ls.map plain).dropWhile isMargin) = (false, ls.map plain) := by
  cases ls with
  | nil => rfl
  | cons l ls =>
    obtain ⟨noMargin, noMinus, noPlus⟩ := plain_digit_inked (digits l List.mem_cons_self)
    rw [List.map_cons, List.dropWhile_cons_of_neg (by simp [noMargin]), signed]
    · exact fun _ same => noMinus (List.cons.inj same).1
    · exact fun _ same => noPlus (List.cons.inj same).1

theorem map_plain {ls : List Letter} {ds : List Nat}
    (digits : ∀ l ∈ ls, l.is Text.isDigit = true)
    (values : ls.map Letter.digit? = ds.map some) : ls.map plain = ds.map digitChar := by
  calc ls.map plain
    _ = ls.map fun l => (l.digit?.map digitChar).getD '?' :=
      List.map_congr_left fun l member => plain_digit (digits l member)
    _ = (ls.map Letter.digit?).map fun d => (d.map digitChar).getD '?' := by simp
    _ = ds.map digitChar := by simp [values]

theorem ofNumeral_digits {t : Text} {front back : List Letter} {ds : List Nat}
    (digits : Text.isDigits t = true) (split : t.letters = front ++ back)
    (values : front.map Letter.digit? = ds.map some) (stop : ∀ l ∈ back.head?, l.digit? = none) :
    ofNumeral t =
      if ds = [] then .error (.badNumeral t)
      else if maxDigits < ds.length then .error (.longNumeral ds.length)
      else if back = [] then .ok (ds.foldl (fun n d => 10 * n + d) 0 : Nat)
      else .error (.badNumeral t) := by
  have each : ∀ l ∈ front ++ back, l.is Text.isDigit = true := by
    rw [← split]
    exact List.all_eq_true.mp (Bool.and_eq_true_iff.mp digits).2
  have first := map_plain (fun l member => each l (List.mem_append_left back member)) values
  have stopped : ∀ c ∈ (back.map plain).head?, c.isDigit = false ∧ c ≠ '_' := by
    intro c member
    rw [List.head?_map] at member
    obtain ⟨l, head, rfl⟩ := Option.map_eq_some_iff.mp member
    have inside : l ∈ back := List.mem_of_mem_head? head
    rw [plain_digit (each l (List.mem_append_right front inside)), stop l head]
    exact ⟨by decide, by decide⟩
  have run := digitRun_values (digitValue_lt values) stopped false
  rw [ofNumeral, split, signed_digits each, List.map_append, first]
  dsimp only
  rw [run]
  by_cases none : ds = []
  · simp [none]
  by_cases long : maxDigits < ds.length
  · simp [none, long]
  -- What is left behind the digits is no margin, so only nothing may be left.
  have left : ((back.map plain).dropWhile isMargin).isEmpty = true ↔ back = [] := by
    cases back with
    | nil => simp
    | cons l back =>
      have inked := (plain_digit_inked (each l (by simp))).1
      simp [inked]
  by_cases all : back = []
  · simp [none, long, all]
  · simp [none, long, all, left]

theorem naming_short {n : Int} {f : Fault} (short : ¬ IsLong n) : naming n f = f := if_neg short

theorem naming_long {n : Int} {f : Fault} (long : IsLong n) : naming n f = .digitLimit :=
  if_pos long

theorem word_short {n : Int} (small : n.natAbs < 0x10000000000000000) : ¬ IsLong n := by
  have few : 0x10000000000000000 ≤ leastLong := by decide +kernel
  exact fun long => Nat.lt_irrefl _ (Nat.lt_of_lt_of_le small (Nat.le_trans few long))

theorem isLong_nat {n : Nat} : IsLong n ↔ leastLong ≤ n := Iff.rfl

theorem isLong_iff {n : Int} : IsLong n ↔ Nat.pow 10 maxDigits ≤ n.natAbs := by
  unfold IsLong leastLong
  generalize Nat.pow 10 maxDigits = least
  exact Iff.rfl

theorem leastLong_isLong : IsLong leastLong := isLong_nat.mpr (Nat.le_refl leastLong)

theorem numeral_error {n : Int} {f : Fault} :
    numeral n = .error f ↔ f = .digitLimit ∧ IsLong n := by
  unfold numeral
  by_cases long : IsLong n
  · rw [if_pos long]
    constructor
    · intro stop
      cases stop
      exact ⟨rfl, long⟩
    · rintro ⟨rfl, _⟩
      rfl
  · rw [if_neg long]
    constructor
    · intro stop
      cases stop
    · rintro ⟨_, other⟩
      exact absurd other long

/-- A text of digits that is no numeral. -/
def Unreadable (t : Text) : Prop :=
  Text.isDigits t = true ∧ ((∃ l ∈ t.letters, l.digit? = none) ∨ maxDigits < t.letters.length)

theorem ofNumeral_cause {t : Text} {f : Fault} (h : ofNumeral t = .error f) : f.kind = .value := by
  unfold ofNumeral at h
  grind [Fault.kind]

theorem length_of_values {ls : List Letter} {ds : List Nat}
    (values : ls.map Letter.digit? = ds.map some) : ls.length = ds.length := by
  simpa using congrArg List.length values

theorem split_values (ls : List Letter) : ∃ (front back : List Letter) (ds : List Nat),
    ls = front ++ back ∧ front.map Letter.digit? = ds.map some ∧
      ∀ l ∈ back.head?, l.digit? = none := by
  induction ls with
  | nil => exact ⟨[], [], [], rfl, rfl, by simp⟩
  | cons l ls ih =>
    cases value : l.digit? with
    | none => exact ⟨[], l :: ls, [], rfl, rfl, by simpa using value⟩
    | some d =>
      obtain ⟨front, back, ds, rfl, values, stop⟩ := ih
      exact ⟨l :: front, back, d :: ds, rfl, by simp [value, values], stop⟩

theorem ofNumeral_error_iff {t : Text} (digits : Text.isDigits t = true) :
    (∃ f, ofNumeral t = .error f) ↔ Unreadable t := by
  obtain ⟨front, back, ds, split, values, stop⟩ := split_values t.letters
  rw [ofNumeral_digits digits split values stop, Unreadable, split]
  have length := length_of_values values
  cases back with
  | nil =>
    have some : ds ≠ [] := by
      rintro rfl
      have empty : t.letters = [] := by rw [split, List.length_eq_zero_iff.mp length]; rfl
      simp [Text.isDigits, Text.isEmpty, empty] at digits
    have valued : ¬ ∃ l ∈ front ++ [], l.digit? = none := by
      rintro ⟨l, member, absent⟩
      have listed : none ∈ ds.map Option.some := by
        rw [← values, ← absent]
        exact List.mem_map_of_mem (by simpa using member)
      simp at listed
    rw [if_neg some, if_pos rfl, List.append_nil, length]
    by_cases long : maxDigits < ds.length
    · simp [digits, long]
    · rw [List.append_nil] at valued
      simp [long, valued]
  | cons l back =>
    have foreign : ∃ m ∈ front ++ l :: back, m.digit? = none := ⟨l, by simp, stop l (by simp)⟩
    constructor
    · exact fun _ => ⟨digits, Or.inl foreign⟩
    · intro _
      rw [if_neg (List.cons_ne_nil l back)]
      split
      · exact ⟨_, rfl⟩
      split
      · exact ⟨_, rfl⟩
      · exact ⟨_, rfl⟩

/-- The letters of a text are decimal digits, and they are those of a number. -/
def Decimal (t : Text) (n : Nat) : Prop :=
  ∃ ds : List Nat, ds ≠ [] ∧ t.letters.map Letter.digit? = ds.map some ∧
    ds.foldl (fun n d => 10 * n + d) 0 = n

theorem Decimal.unique {t : Text} {n m : Nat} (h : Decimal t n) (k : Decimal t m) : n = m := by
  obtain ⟨ds, -, values, rfl⟩ := h
  obtain ⟨es, -, others, rfl⟩ := k
  have same : ds = es :=
    (List.map_inj_right fun _ _ => Option.some.inj).mp (values.symm.trans others)
  rw [same]

theorem Decimal.isDigits {t : Text} {n : Nat} (h : Decimal t n) : Text.isDigits t = true := by
  obtain ⟨ds, some, values, -⟩ := h
  have filled : t.letters ≠ [] := by
    intro none
    rw [none] at values
    exact some (List.map_eq_nil_iff.mp values.symm)
  have each : ∀ l ∈ t.letters, l.is Text.isDigit = true := by
    intro l member
    have listed : l.digit? ∈ ds.map Option.some := by
      rw [← values]
      exact List.mem_map_of_mem member
    obtain ⟨d, -, value⟩ := List.mem_map.mp listed
    obtain ⟨c, char, digit⟩ := Option.bind_eq_some_iff.mp value.symm
    simp [Letter.is, char, Text.isDigit, digit]
  simpa [Text.isDigits, Text.isEmpty, filled] using each

theorem decimal_of_ofNumeral {t : Text} {n : Int} (digits : Text.isDigits t = true)
    (read : ofNumeral t = .ok n) : ∃ m : Nat, n = m ∧ Decimal t m := by
  obtain ⟨front, back, ds, split, values, stop⟩ := split_values t.letters
  rw [ofNumeral_digits digits split values stop] at read
  split at read
  · cases read
  rename_i some
  split at read
  · cases read
  split at read
  · rename_i none
    cases read
    rw [none, List.append_nil] at split
    exact ⟨_, rfl, ds, some, split ▸ values, rfl⟩
  · cases read

theorem foldl_zeros (count n : Nat) :
    (List.replicate count 0).foldl (fun n d => 10 * n + d) n = n * Nat.pow 10 count := by
  induction count generalizing n with
  | zero => exact (Nat.mul_one n).symm
  | succ count ih =>
    calc (List.replicate (count + 1) 0).foldl (fun n d => 10 * n + d) n
      _ = (10 * n + 0) * Nat.pow 10 count := ih (10 * n + 0)
      _ = n * (Nat.pow 10 count * 10) := by
        rw [Nat.add_zero, Nat.mul_comm 10 n, Nat.mul_assoc, Nat.mul_comm 10]

theorem foldl_digits_lt {ds : List Nat} (small : ∀ d ∈ ds, d < 10) (n : Nat) :
    ds.foldl (fun n d => 10 * n + d) n < (n + 1) * Nat.pow 10 ds.length := by
  induction ds generalizing n with
  | nil => exact Nat.lt_of_lt_of_eq (Nat.lt_succ_self n) (Nat.mul_one _).symm
  | cons d ds ih =>
    have digit := small d List.mem_cons_self
    have rest := ih (fun e member => small e (List.mem_cons_of_mem d member)) (10 * n + d)
    calc (d :: ds).foldl (fun n d => 10 * n + d) n
      _ < (10 * n + d + 1) * Nat.pow 10 ds.length := rest
      _ ≤ ((n + 1) * 10) * Nat.pow 10 ds.length := Nat.mul_le_mul_right _ (by omega)
      _ = (n + 1) * (Nat.pow 10 ds.length * 10) := by rw [Nat.mul_assoc, Nat.mul_comm 10]

theorem pow_le_leastLong {k : Nat} (few : k ≤ maxDigits) : Nat.pow 10 k ≤ leastLong := by
  unfold leastLong
  -- Of the limit only its order counts; nothing has to compute the power.
  generalize maxDigits = most at few ⊢
  exact Nat.pow_le_pow_right (Nat.succ_pos 9) few

/-- As many digits as a numeral may have make no long number. -/
theorem Decimal.short {t : Text} {n : Nat} (h : Decimal t n) (few : t.letters.length ≤ maxDigits) :
    ¬ IsLong n := by
  obtain ⟨ds, -, values, rfl⟩ := h
  have length := length_of_values values
  have small := foldl_digits_lt (digitValue_lt values) 0
  rw [Nat.zero_add, Nat.one_mul] at small
  rw [length] at few
  exact fun long => Nat.not_le.mpr (Nat.lt_of_lt_of_le small (pow_le_leastLong few))
    (isLong_nat.mp long)

/-- A text of digits is read as the number that they denote, or there are too many of them. -/
theorem ofNumeral_decimal {t : Text} {n : Nat} (h : Decimal t n) :
    ofNumeral t = if maxDigits < t.letters.length then .error (.longNumeral t.letters.length)
      else .ok n := by
  have digits := h.isDigits
  obtain ⟨ds, some, values, rfl⟩ := h
  have length := length_of_values values
  rw [ofNumeral_digits digits (List.append_nil _).symm values (by simp), if_neg some, if_pos rfl,
    length]

theorem ofNumeral_short {t : Text} {n : Int} (digits : Text.isDigits t = true)
    (read : ofNumeral t = .ok n) : ¬ IsLong n := by
  obtain ⟨m, rfl, own⟩ := decimal_of_ofNumeral digits read
  refine own.short (Nat.le_of_not_lt fun long => ?_)
  rw [ofNumeral_decimal own, if_pos long] at read
  cases read

theorem decimalDigit_ascii {c : Char} (digit : c.isDigit = true) :
    Text.decimalDigit? c = some (c.toNat - 0x30) := by
  have row : 0x30 ≤ c.toNat ∧ c.toNat ≤ 0x39 := by
    simpa [Char.isDigit, UInt32.le_iff_toNat_le] using digit
  simp [Text.decimalDigit?, Text.zeros, row]

theorem decimal_toString (n : Nat) : Decimal (toString n) n := by
  have letters : (Text.ofString (toString n)).letters = (Nat.toDigits 10 n).map Letter.char := by
    rw [Text.letters_ofString, Nat.toString_eq_ofList_toDigits, String.toList_ofList]
  refine ⟨(Nat.toDigits 10 n).map fun c => c.toNat - 0x30, ?_, ?_, ?_⟩
  · simp [Nat.toDigits_ne_nil]
  · rw [letters, List.map_map, List.map_map]
    refine List.map_congr_left fun c member => ?_
    have digit : c.isDigit = true := Nat.isDigit_of_mem_toDigits (by decide) (by decide) member
    exact decimalDigit_ascii digit
  · rw [List.foldl_map]
    exact Nat.ofDigitChars_ten_toDigits

/-- A sign is no digit, so only a number that is not negative is written in digits alone. -/
theorem decimal_toString_iff {n : Int} {m : Nat} : Decimal (toString n) m ↔ n = m := by
  constructor
  · intro h
    by_cases negative : n < 0
    · have sign : (Text.ofString (toString n)).letters.head? = some (.char '-') := by
        rw [Int.toString_eq_repr, Int.repr_eq_if, if_neg (Int.not_le.mpr negative)]
        simp
      have unvalued : (Letter.char '-').digit? = none := rfl
      obtain ⟨ds, -, values, -⟩ := h
      have first := congrArg List.head? values
      rw [List.head?_map, sign, List.head?_map, Option.map_some, unvalued] at first
      cases ds <;> cases first
    · obtain ⟨k, rfl⟩ := Int.eq_ofNat_of_zero_le (Int.not_lt.mp negative)
      exact congrArg Nat.cast ((decimal_toString k).unique h)
  · rintro rfl
    exact decimal_toString m

theorem toString_int_inj {n m : Int} (same : toString n = toString m) : n = m := by
  by_cases natural : 0 ≤ n
  · obtain ⟨k, rfl⟩ := Int.eq_ofNat_of_zero_le natural
    have own : Decimal (toString m) k := same ▸ decimal_toString_iff.mpr rfl
    exact (decimal_toString_iff.mp own).symm
  by_cases other : 0 ≤ m
  · obtain ⟨k, rfl⟩ := Int.eq_ofNat_of_zero_le other
    have own : Decimal (toString n) k := same.symm ▸ decimal_toString_iff.mpr rfl
    exact decimal_toString_iff.mp own
  · rw [Int.toString_eq_repr, Int.toString_eq_repr, Int.repr_eq_if, Int.repr_eq_if,
      if_neg natural, if_neg other, String.append_right_inj] at same
    have own : Decimal (toString (-m).toNat) (-n).toNat :=
      (show toString (-n).toNat = toString (-m).toNat from same) ▸ decimal_toString (-n).toNat
    have sizes := own.unique (decimal_toString (-m).toNat)
    omega

end Number

end ChainDecode
