import Mathlib.Data.List.TakeWhile
import Mathlib.Data.Nat.Digits.Lemmas
import ChainDecode.Text.Base58

/-! # Base 58 numerals

The digits of a number are those of positional notation, so a number and its digits determine each
other. The leading first letters of a numeral count the zero bytes that the number cannot hold.
-/
namespace ChainDecode

namespace Number

theorem digitsWithin_eq {base n count : Nat} (h : 1 < base) (enough : n ≤ count) :
    digitsWithin base count n = Nat.digits base n := by
  induction count generalizing n with
  | zero =>
    have zero : n = 0 := Nat.le_zero.mp enough
    simp [digitsWithin, zero]
  | succ count ih =>
    by_cases zero : n = 0
    · simp [digitsWithin, zero]
    · have smaller : n / base < n := Nat.div_lt_self (by omega) h
      have rest := ih (show n / base ≤ count by omega)
      rw [digitsWithin, if_neg zero, rest, ← Nat.digits_def' h (Nat.pos_of_ne_zero zero)]

theorem digits_eq {base : Nat} (h : 1 < base) (n : Nat) : digits base n = Nat.digits base n :=
  digitsWithin_eq h (Nat.le_refl n)

theorem ofDigits_eq (base : Nat) (ds : List Nat) : ofDigits base ds = Nat.ofDigits base ds := by
  rw [Nat.ofDigits_eq_foldr]
  rfl

theorem ofBytes_eq_ofDigits (bytes : List UInt8) :
    ofBytes bytes = ofDigits 256 (bytes.map UInt8.toNat) := by
  induction bytes with
  | nil => rfl
  | cons b rest ih => rw [ofBytes, ih, List.map_cons, ofDigits, ofDigits, List.foldr_cons]

theorem ofDigits_digits {base : Nat} (h : 1 < base) (n : Nat) :
    ofDigits base (digits base n) = n := by
  rw [ofDigits_eq, digits_eq h, Nat.ofDigits_digits]

theorem digit_lt {base n d : Nat} (h : 1 < base) (member : d ∈ digits base n) : d < base := by
  rw [digits_eq h] at member
  exact Nat.digits_lt_base h member

theorem head_digits_ne_zero {base n d : Nat} {rest : List Nat} (h : 1 < base)
    (written : (digits base n).reverse = d :: rest) : d ≠ 0 := by
  rw [digits_eq h] at written
  have number : n ≠ 0 := by
    rintro rfl
    simp at written
  have present : Nat.digits base n ≠ [] := Nat.digits_ne_nil_iff_ne_zero.mpr number
  have last := Nat.getLast_digit_ne_zero base number
  rw [← List.head_reverse (List.reverse_eq_nil_iff.not.mpr present)] at last
  simpa [written] using last

theorem digits_ofBytes {bytes : List UInt8} (front : bytes.head? ≠ some 0) :
    ((digits 256 (ofBytes bytes.reverse)).map UInt8.ofNat).reverse = bytes := by
  have small : ∀ d ∈ bytes.reverse.map UInt8.toNat, d < 256 := by
    intro d member
    obtain ⟨b, _, rfl⟩ := List.mem_map.mp member
    exact b.toNat_lt
  have top : ∀ h, (bytes.reverse.map UInt8.toNat).getLast h ≠ 0 := by
    intro present zero
    cases bytes with
    | nil => exact present rfl
    | cons b rest =>
      have first : b = 0 := by
        apply UInt8.toNat_inj.mp
        simpa using zero
      exact front (by rw [first, List.head?_cons])
  have back : digits 256 (ofBytes bytes.reverse) = bytes.reverse.map UInt8.toNat := by
    rw [ofBytes_eq_ofDigits, digits_eq (by decide), ofDigits_eq]
    exact Nat.digits_ofDigits 256 (by decide) _ small top
  rw [back, List.map_map, ← List.map_reverse, List.reverse_reverse]
  calc bytes.map (UInt8.ofNat ∘ UInt8.toNat)
    _ = bytes.map id := List.map_congr_left fun b _ => UInt8.ofNat_toNat
    _ = bytes := List.map_id bytes

theorem digits_ofDigits {base : Nat} {ds : List Nat} (h : 1 < base) (small : ∀ d ∈ ds, d < base)
    (front : ds.head? ≠ some 0) : (digits base (ofDigits base ds.reverse)).reverse = ds := by
  have reversed : ∀ d ∈ ds.reverse, d < base := fun d member =>
    small d (List.mem_reverse.mp member)
  have top : ∀ present, ds.reverse.getLast present ≠ 0 := by
    intro present zero
    cases ds with
    | nil => exact present rfl
    | cons d rest => exact front (by simpa using zero)
  rw [digits_eq h, ofDigits_eq, Nat.digits_ofDigits base h _ reversed top, List.reverse_reverse]

theorem head_bytes (n : Nat) : ((digits 256 n).map UInt8.ofNat).reverse.head? ≠ some 0 := by
  rw [← List.map_reverse]
  cases written : (digits 256 n).reverse with
  | nil => simp
  | cons d rest =>
    have top : d ≠ 0 := head_digits_ne_zero (by decide) written
    have member : d ∈ digits 256 n := List.mem_reverse.mp (by simp [written])
    have small : d < 256 := digit_lt (by decide) member
    intro zero
    have byte : UInt8.ofNat d = 0 := by simpa using zero
    have value := congrArg UInt8.toNat byte
    rw [UInt8.toNat_ofNat', Nat.mod_eq_of_lt small] at value
    exact top value

theorem ofBytes_digits (n : Nat) : ofBytes ((digits 256 n).map UInt8.ofNat) = n := by
  have bytes : ((digits 256 n).map UInt8.ofNat).map UInt8.toNat = digits 256 n := by
    rw [List.map_map]
    refine (List.map_congr_left fun d member => ?_).trans (List.map_id _)
    have small : d < 256 := digit_lt (by decide) member
    simp [Nat.mod_eq_of_lt small]
  rw [ofBytes_eq_ofDigits, bytes, ofDigits_digits (by decide)]

theorem ofBytes_append_zeros (bytes : List UInt8) (zeros : Nat) :
    ofBytes (bytes ++ List.replicate zeros 0) = ofBytes bytes := by
  induction bytes with
  | nil =>
    induction zeros with
    | zero => rfl
    | succ zeros ih => simpa [List.replicate_succ, ofBytes] using ih
  | cons b rest ih => rw [List.cons_append, ofBytes, ih, ofBytes]

end Number

namespace Text.Base58

theorem letterValue_letter : ∀ n < 58, letterValue (letter n) = .ok n := by decide +kernel

theorem letter_mem : ∀ n < 58, letter n ∈ alphabet := by decide +kernel

theorem letter_ne_one : ∀ n < 58, n ≠ 0 → letter n ≠ '1' := by decide +kernel

theorem alphabet_ascii : ∀ c ∈ alphabet, c.toNat < 128 := by
  have all : alphabet.all (fun c => decide (c.toNat < 128)) = true := rfl
  exact fun c member => of_decide_eq_true (List.all_eq_true.mp all c member)

theorem mapM_letterValue {digits : List Nat} (small : ∀ d ∈ digits, d < 58) :
    (digits.map letter).mapM letterValue = .ok digits := by
  induction digits with
  | nil => rfl
  | cons d rest ih =>
    have first := letterValue_letter d (small d List.mem_cons_self)
    have others := ih fun e member => small e (List.mem_cons_of_mem d member)
    rw [List.map_cons, List.mapM_cons, first, others]
    rfl

def numeral (n : Nat) : List Char := (Number.digits 58 n).reverse.map letter

theorem numeral_digits_small (n : Nat) : ∀ d ∈ (Number.digits 58 n).reverse, d < 58 := by
  intro d member
  exact Number.digit_lt (by decide) (List.mem_reverse.mp member)

theorem numeral_in_alphabet (n : Nat) : ∀ c ∈ numeral n, c ∈ alphabet := by
  intro c member
  obtain ⟨d, digit, rfl⟩ := List.mem_map.mp member
  exact letter_mem d (numeral_digits_small n d digit)

theorem numeral_head (n : Nat) : (numeral n).head? ≠ some '1' := by
  have small := numeral_digits_small n
  unfold numeral
  cases written : (Number.digits 58 n).reverse with
  | nil => simp
  | cons d rest =>
    have top : d ≠ 0 := Number.head_digits_ne_zero (by decide) written
    have letters : letter d ≠ '1' := letter_ne_one d (small d (by simp [written])) top
    simpa using letters

theorem encode_letters (bytes : List UInt8) :
    (encode bytes).toList =
      List.replicate (bytes.takeWhile (· = 0)).length '1' ++
        numeral (Number.ofBytes bytes.reverse) := by
  rw [encode, String.toList_ofList, numeral]

theorem encode_in_alphabet (bytes : List UInt8) : ∀ c ∈ (encode bytes).toList, c ∈ alphabet := by
  intro c member
  rw [encode_letters] at member
  rcases List.mem_append.mp member with one | digit
  · rw [(List.mem_replicate.mp one).2]
    decide
  · exact numeral_in_alphabet _ c digit

/-- What is put in front of a list that does not start with it can be counted and taken off. -/
theorem takeWhile_replicate_append {α : Type} [DecidableEq α] (a : α) (n : Nat) {rest : List α}
    (front : rest.head? ≠ some a) :
    (List.replicate n a ++ rest).takeWhile (· = a) = List.replicate n a ∧
      (List.replicate n a ++ rest).dropWhile (· = a) = rest := by
  induction n with
  | zero =>
    cases rest with
    | nil => simp
    | cons b rest =>
      have other : b ≠ a := by simpa using front
      simp [other]
  | succ n ih => simpa [List.replicate_succ] using ih

theorem takeWhile_zeros (bytes : List UInt8) :
    bytes.takeWhile (· = 0) = List.replicate (bytes.takeWhile (· = 0)).length 0 := by
  refine List.eq_replicate_length.mpr fun b member => ?_
  simpa using List.mem_takeWhile_imp member

theorem decodeChars_encode (bytes : List UInt8) :
    decodeChars (encode bytes).toList = .ok bytes := by
  have split := List.takeWhile_append_dropWhile (p := (· = (0 : UInt8))) (l := bytes)
  have front : (bytes.dropWhile (· = 0)).head? ≠ some 0 := by
    intro zero
    have other := List.head?_dropWhile_not (p := (· = (0 : UInt8))) bytes
    rw [zero] at other
    simp at other
  -- Zero bytes in front are the top digits of the number, so it does not hold them.
  have value : Number.ofBytes bytes.reverse = Number.ofBytes (bytes.dropWhile (· = 0)).reverse := by
    conv => lhs; rw [← split, takeWhile_zeros, List.reverse_append, List.reverse_replicate]
    exact Number.ofBytes_append_zeros _ _
  obtain ⟨ones, digits⟩ := takeWhile_replicate_append '1' (bytes.takeWhile (· = 0)).length
    (numeral_head (Number.ofBytes bytes.reverse))
  have numbers := mapM_letterValue (numeral_digits_small (Number.ofBytes bytes.reverse))
  rw [decodeChars, encode_letters, ones, digits, numeral, numbers]
  simp only [bind, Except.bind, pure, Except.pure, List.length_replicate, List.reverse_reverse,
    Number.ofDigits_digits (show 1 < 58 by decide), value, Number.digits_ofBytes front]
  rw [← takeWhile_zeros, split]

theorem decode_encode (bytes : List UInt8) :
    decode ((encode bytes).toList.map .char) = .ok bytes := by
  have ascii : ∀ l ∈ (encode bytes).toList.map Letter.char, Encoding.ascii.covers l = true := by
    intro l member
    obtain ⟨c, letter, rfl⟩ := List.mem_map.mp member
    exact decide_eq_true (alphabet_ascii c (encode_in_alphabet bytes c letter))
  have covered : Encoding.ascii.unencodable? ⟨(encode bytes).toList.map .char⟩ = none := by
    rw [Encoding.unencodable?, List.dropWhile_eq_nil_iff.mpr ascii]
  have chars : ((encode bytes).toList.map Letter.char).filterMap Letter.char? =
      (encode bytes).toList := by
    simp [List.filterMap_map, Function.comp_def, Letter.char?]
  rw [decode, covered, chars]
  exact decodeChars_encode bytes

theorem letter_of_value {c : Char} {n : Nat} (h : letterValue c = .ok n) :
    n < 58 ∧ letter n = c := by
  unfold letterValue at h
  split at h
  · rename_i place
    cases h
    obtain ⟨inside, same, -⟩ := List.idxOf?_eq_some_iff.mp place
    have size : alphabet.length = 58 := rfl
    refine ⟨size ▸ inside, ?_⟩
    rw [letter, List.getD_eq_getElem?_getD, List.getElem?_eq_getElem inside, same,
      Option.getD_some]
  · cases h

theorem letters_of_values {cs : List Char} {values : List Nat}
    (h : cs.mapM letterValue = .ok values) : (∀ n ∈ values, n < 58) ∧ values.map letter = cs := by
  induction cs generalizing values with
  | nil =>
    cases h
    exact ⟨List.forall_mem_nil _, rfl⟩
  | cons c cs ih =>
    rw [List.mapM_cons] at h
    cases first : letterValue c with
    | error f =>
      rw [first] at h
      cases h
    | ok n =>
      cases rest : cs.mapM letterValue with
      | error f =>
        rw [first, rest] at h
        cases h
      | ok others =>
        rw [first, rest] at h
        cases h
        obtain ⟨small, same⟩ := letter_of_value first
        obtain ⟨others_small, others_same⟩ := ih rest
        refine ⟨List.forall_mem_cons.mpr ⟨small, others_small⟩, ?_⟩
        rw [List.map_cons, same, others_same]

/-- The values of letters that do not start with the letter for zero do not start with zero. -/
theorem values_head {cs : List Char} {values : List Nat} (same : values.map letter = cs)
    (front : cs.head? ≠ some '1') : values.head? ≠ some 0 := by
  intro zero
  have one : letter 0 = '1' := by decide
  rw [← same, List.head?_map, zero, Option.map_some, one] at front
  exact front rfl

theorem encode_of_decodeChars {cs : List Char} {bytes : List UInt8}
    (h : decodeChars cs = .ok bytes) : (encode bytes).toList = cs := by
  unfold decodeChars at h
  cases read : (cs.dropWhile (· = '1')).mapM letterValue with
  | error f =>
    rw [read] at h
    cases h
  | ok values =>
    rw [read] at h
    cases h
    obtain ⟨small, letters⟩ := letters_of_values read
    have front : (cs.dropWhile (· = '1')).head? ≠ some '1' := by
      intro one
      have other := List.head?_dropWhile_not (p := (· = '1')) cs
      rw [one] at other
      simp at other
    have digits : numeral (Number.ofDigits 58 values.reverse) = cs.dropWhile (· = '1') := by
      rw [numeral, Number.digits_ofDigits (by decide) small (values_head letters front), letters]
    have ones : List.replicate (cs.takeWhile (· = '1')).length '1' = cs.takeWhile (· = '1') := by
      refine (List.eq_replicate_length.mpr fun c member => ?_).symm
      simpa using List.mem_takeWhile_imp member
    obtain ⟨zeros, -⟩ := takeWhile_replicate_append 0 (cs.takeWhile (· = '1')).length
      (Number.head_bytes (Number.ofDigits 58 values.reverse))
    rw [encode_letters, zeros, List.length_replicate, ones, List.reverse_append,
      List.reverse_reverse, List.reverse_replicate, Number.ofBytes_append_zeros,
      Number.ofBytes_digits, digits, List.takeWhile_append_dropWhile]

theorem chars_of_ascii {ls : List Letter} (h : Encoding.ascii.unencodable? ⟨ls⟩ = none) :
    (ls.filterMap Letter.char?).map Letter.char = ls := by
  have covered : ∀ l ∈ ls, Encoding.ascii.covers l = true := by
    unfold Encoding.unencodable? at h
    split at h
    · rename_i all
      exact List.dropWhile_eq_nil_iff.mp all
    · cases h
  clear h
  induction ls with
  | nil => rfl
  | cons l ls ih =>
    have rest := ih fun m member => covered m (List.mem_cons_of_mem l member)
    cases l with
    | char c =>
      rw [List.filterMap_cons_some (rfl : Letter.char? (.char c) = some c), List.map_cons, rest]
    | surrogate place =>
      have low := of_decide_eq_true (covered _ List.mem_cons_self)
      simp only [Letter.codePoint, Letter.firstSurrogate] at low
      omega

/-- Bytes have no other numeral than the one that they are written as. -/
theorem encode_of_decode {ls : List Letter} {bytes : List UInt8} (h : decode ls = .ok bytes) :
    ls = (encode bytes).toList.map .char := by
  unfold decode at h
  split at h
  · cases h
  · rename_i ascii
    rw [encode_of_decodeChars h, chars_of_ascii ascii]

end Text.Base58

end ChainDecode
