import ChainDecode.Number.Bytes
import ChainDecode.Text.Hex
import ChainDecode.Text.Utf8

/-! # Bytes of numbers and texts

Words, UTF-8 and hexadecimal digits are read back as they were written. Each reading is stated
with whatever follows, because a reader never sees the end of what it reads.
-/
namespace ChainDecode

namespace Number

@[simp] theorem wordSpan_zero : wordSpan 0 = 1 := rfl

theorem wordSpan_succ (width : Nat) : wordSpan (width + 1) = 256 * wordSpan width := by
  simp only [wordSpan, Nat.pow_eq, Nat.pow_succ]
  omega

theorem wordSpan_pos (width : Nat) : 0 < wordSpan width := Nat.pow_pos (by decide)

@[simp] theorem length_toBytes (width n : Nat) : (toBytes width n).length = width := by
  induction width generalizing n with
  | zero => rfl
  | succ width ih => simp [toBytes, ih]

@[simp] theorem length_toSignedBytes (width : Nat) (n : Int) :
    (toSignedBytes width n).length = width := length_toBytes ..

theorem ofBytes_toBytes {width n : Nat} (h : n < wordSpan width) :
    ofBytes (toBytes width n) = n := by
  induction width generalizing n with
  | zero => simp only [wordSpan_zero] at h; simp [toBytes, ofBytes]; omega
  | succ width ih =>
    have hs := wordSpan_succ width
    have low : (UInt8.ofNat (n % 256)).toNat = n % 256 := by
      simp
    rw [toBytes, ofBytes, ih (by omega), low]
    omega

theorem ofBytes_lt (bytes : List UInt8) : ofBytes bytes < wordSpan bytes.length := by
  induction bytes with
  | nil => simp [ofBytes]
  | cons b rest ih =>
    have byte := b.toNat_lt
    rw [ofBytes, List.length_cons, wordSpan_succ]
    omega

theorem toBytes_ofBytes (bytes : List UInt8) : toBytes bytes.length (ofBytes bytes) = bytes := by
  induction bytes with
  | nil => rfl
  | cons b rest ih =>
    have byte := b.toNat_lt
    have low : (b.toNat + 256 * ofBytes rest) % 256 = b.toNat := by omega
    have high : (b.toNat + 256 * ofBytes rest) / 256 = ofBytes rest := by omega
    rw [ofBytes, List.length_cons, toBytes, low, high, ih, UInt8.ofNat_toNat]

theorem ofSignedBytes_toSignedBytes {width : Nat} {n : Int} (even : wordSpan width % 2 = 0)
    (low : -(wordSpan width : Int) ≤ 2 * n) (high : 2 * n < wordSpan width) :
    ofSignedBytes (toSignedBytes width n) = n := by
  have pos := wordSpan_pos width
  have small : (n % wordSpan width).toNat < wordSpan width := by
    have := Int.emod_lt_of_pos n (b := wordSpan width) (by omega)
    have := Int.emod_nonneg n (b := wordSpan width) (by omega)
    omega
  rw [ofSignedBytes, length_toSignedBytes, toSignedBytes, ofBytes_toBytes small]
  rcases Int.lt_or_le n 0 with neg | nonneg
  · have wrapped : n % wordSpan width = n + wordSpan width := by
      rw [← Int.add_emod_right, Int.emod_eq_of_lt (by omega) (by omega)]
    rw [wrapped, if_neg (by omega)]
    omega
  · rw [Int.emod_eq_of_lt nonneg (by omega), if_pos (by omega)]
    omega

theorem ofSignedBytes_of_fits {width : Nat} {n : Int} (low : -(wordSpan width : Int) ≤ 2 * n)
    (high : 2 * n < wordSpan width) : ofSignedBytes (toSignedBytes width n) = n := by
  cases width with
  | zero =>
    have zero : n = 0 := by
      simp only [wordSpan_zero] at low high
      omega
    rw [zero]
    rfl
  | succ width =>
    refine ofSignedBytes_toSignedBytes ?_ low high
    rw [wordSpan_succ]
    omega

end Number

namespace Text.Utf8

private theorem toList_loop (bytes : ByteArray) (i : Nat) (done : List UInt8) :
    ByteArray.toList.loop bytes i done = done.reverse ++ bytes.data.toList.drop i := by
  fun_induction ByteArray.toList.loop bytes i done with
  | case1 i done h ih =>
    have split : bytes.data.toList.drop i = bytes.get! i :: bytes.data.toList.drop (i + 1) := by
      rw [List.drop_eq_getElem_cons (by simpa using h)]
      have inside : i < bytes.data.size := h
      simp only [Array.getElem_toList, ByteArray.get!, getElem!_pos bytes.data i inside]
    rw [ih, split]
    simp
  | case2 i done h =>
    have past : bytes.data.toList.length ≤ i := by simpa using Nat.le_of_not_lt h
    simp [List.drop_eq_nil_of_le past]

theorem encode_eq (s : String) : encode s = s.toList.flatMap String.utf8EncodeChar := by
  have bytes : s.toByteArray = (s.toList.flatMap String.utf8EncodeChar).toByteArray := by
    conv => lhs; rw [← String.ofList_toList (s := s)]
    rfl
  rw [encode, String.toUTF8_eq_toByteArray, bytes, ByteArray.toList, toList_loop]
  simp

private theorem toNat_ofNat {n : Nat} (h : n < 256) : (UInt8.ofNat n).toNat = n := by
  simp
  omega

private theorem lead_ofNat {n : Nat} (h : n < 256) :
    lead? (UInt8.ofNat n) =
      if n < 0x80 then some ⟨n, []⟩
      else if 0xc2 ≤ n ∧ n ≤ 0xdf then some ⟨n - 0xc0, [anyTail]⟩
      else if n = 0xe0 then some ⟨0, [(0xa0, 0xbf), anyTail]⟩
      else if n = 0xed then some ⟨0xd, [(0x80, 0x9f), anyTail]⟩
      else if 0xe1 ≤ n ∧ n ≤ 0xef then some ⟨n - 0xe0, [anyTail, anyTail]⟩
      else if n = 0xf0 then some ⟨0, [(0x90, 0xbf), anyTail, anyTail]⟩
      else if 0xf1 ≤ n ∧ n ≤ 0xf3 then some ⟨n - 0xf0, [anyTail, anyTail, anyTail]⟩
      else if n = 0xf4 then some ⟨4, [(0x80, 0x8f), anyTail, anyTail]⟩
      else none := by
  have e := toNat_ofNat h
  simp [lead?, UInt8.le_iff_toNat_le, UInt8.lt_iff_toNat_lt, ← UInt8.toNat_inj, e,
    -UInt8.toNat_ofNat']

theorem takeTails_cons {bits n : Nat} {range : UInt8 × UInt8} {tails : List (UInt8 × UInt8)}
    {rest : List UInt8} (low : range.1.toNat ≤ n) (high : n ≤ range.2.toNat) :
    takeTails bits (range :: tails) (UInt8.ofNat n :: rest) =
      takeTails (bits * 64 + (n - 0x80)) tails rest := by
  have e := toNat_ofNat (Nat.lt_of_le_of_lt high range.2.toNat_lt)
  simp [takeTails, UInt8.le_iff_toNat_le, e, low, high, -UInt8.toNat_ofNat']

theorem takeTails_any {bits n : Nat} {tails : List (UInt8 × UInt8)} {rest : List UInt8}
    (h : n < 64) :
    takeTails bits (anyTail :: tails) (UInt8.ofNat (n + 0x80) :: rest) =
      takeTails (bits * 64 + n) tails rest := by
  have low : anyTail.1.toNat ≤ n + 0x80 := Nat.le_add_left ..
  have high : n + 0x80 ≤ anyTail.2.toNat := by change _ ≤ 0xbf; omega
  rw [takeTails_cons low high, Nat.add_sub_cancel]

theorem step_of_lead {b : UInt8} {lead : Lead} {bytes rest : List UInt8} {v : Nat}
    (known : lead? b = some lead)
    (taken : takeTails lead.bits lead.tails bytes = (some v, rest)) :
    step b bytes = (some (Char.ofNat v), rest) := by
  simp [step, known, taken]

private theorem step_two {v : Nat} (low : 0x7f < v) (high : v ≤ 0x7ff) (rest : List UInt8) :
    step (UInt8.ofNat (v / 64 % 32 + 0xc0)) (UInt8.ofNat (v % 64 + 0x80) :: rest) =
      (some (Char.ofNat v), rest) := by
  have lead : lead? (UInt8.ofNat (v / 64 % 32 + 0xc0)) = some ⟨v / 64, [anyTail]⟩ := by
    grind [lead_ofNat]
  refine step_of_lead lead ?_
  rw [takeTails_any (by omega), takeTails, Nat.div_add_mod']

/-- The second byte of three is narrowed after the first and after the last lead but two. -/
private theorem lead_three {v : Nat} (low : 0x7ff < v) (high : v ≤ 0xffff)
    (valid : v < 0xd800 ∨ 0xdfff < v) :
    ∃ second : UInt8 × UInt8,
      lead? (UInt8.ofNat (v / 4096 % 16 + 0xe0)) = some ⟨v / 4096, [second, anyTail]⟩ ∧
      second.1.toNat ≤ v / 64 % 64 + 0x80 ∧ v / 64 % 64 + 0x80 ≤ second.2.toNat := by
  rw [lead_ofNat (by omega)]
  by_cases first : v < 0x1000
  · refine ⟨(0xa0, 0xbf), by grind, ?_, ?_⟩
    · change 0xa0 ≤ _; omega
    · change _ ≤ 0xbf; omega
  by_cases surrogates : v / 4096 = 0xd
  · refine ⟨(0x80, 0x9f), by grind, ?_, ?_⟩
    · change 0x80 ≤ _; omega
    · change _ ≤ 0x9f; omega
  refine ⟨anyTail, by grind, ?_, ?_⟩
  · change 0x80 ≤ _; omega
  · change _ ≤ 0xbf; omega

private theorem step_three {v : Nat} (low : 0x7ff < v) (high : v ≤ 0xffff)
    (valid : v < 0xd800 ∨ 0xdfff < v) (rest : List UInt8) :
    step (UInt8.ofNat (v / 4096 % 16 + 0xe0))
        (UInt8.ofNat (v / 64 % 64 + 0x80) :: UInt8.ofNat (v % 64 + 0x80) :: rest) =
      (some (Char.ofNat v), rest) := by
  obtain ⟨second, lead, above, below⟩ := lead_three low high valid
  refine step_of_lead lead ?_
  have value : (v / 4096 * 64 + (v / 64 % 64 + 0x80 - 0x80)) * 64 + v % 64 = v := by omega
  rw [takeTails_cons above below, takeTails_any (by omega), takeTails, value]

private theorem lead_four {v : Nat} (low : 0xffff < v) (high : v < 0x110000) :
    ∃ second : UInt8 × UInt8,
      lead? (UInt8.ofNat (v / 262144 % 8 + 0xf0)) =
        some ⟨v / 262144, [second, anyTail, anyTail]⟩ ∧
      second.1.toNat ≤ v / 4096 % 64 + 0x80 ∧ v / 4096 % 64 + 0x80 ≤ second.2.toNat := by
  rw [lead_ofNat (by omega)]
  by_cases first : v < 0x40000
  · refine ⟨(0x90, 0xbf), by grind, ?_, ?_⟩
    · change 0x90 ≤ _; omega
    · change _ ≤ 0xbf; omega
  by_cases last : 0x100000 ≤ v
  · refine ⟨(0x80, 0x8f), by grind, ?_, ?_⟩
    · change 0x80 ≤ _; omega
    · change _ ≤ 0x8f; omega
  refine ⟨anyTail, by grind, ?_, ?_⟩
  · change 0x80 ≤ _; omega
  · change _ ≤ 0xbf; omega

private theorem step_four {v : Nat} (low : 0xffff < v) (high : v < 0x110000)
    (rest : List UInt8) :
    step (UInt8.ofNat (v / 262144 % 8 + 0xf0))
        (UInt8.ofNat (v / 4096 % 64 + 0x80) :: UInt8.ofNat (v / 64 % 64 + 0x80) ::
          UInt8.ofNat (v % 64 + 0x80) :: rest) =
      (some (Char.ofNat v), rest) := by
  obtain ⟨second, lead, above, below⟩ := lead_four low high
  refine step_of_lead lead ?_
  have value : ((v / 262144 * 64 + (v / 4096 % 64 + 0x80 - 0x80)) * 64 + v / 64 % 64) * 64 +
      v % 64 = v := by omega
  rw [takeTails_cons above below, takeTails_any (by omega), takeTails_any (by omega), takeTails,
    value]

theorem step_utf8EncodeChar (c : Char) (rest : List UInt8) :
    ∃ b tails, String.utf8EncodeChar c = b :: tails ∧ step b (tails ++ rest) = (some c, rest) := by
  have back : Char.ofNat c.val.toNat = c := Char.ofNat_toNat c
  have valid := c.valid
  simp only [UInt32.isValidChar, Nat.isValidChar] at valid
  generalize value : c.val.toNat = v at back valid
  simp only [String.utf8EncodeChar, value]
  subst back
  split
  · have lead : lead? (UInt8.ofNat v) = some ⟨v, []⟩ := by
      rw [lead_ofNat (by omega), if_pos (by omega)]
    exact ⟨_, _, rfl, step_of_lead lead rfl⟩
  split
  · exact ⟨_, _, rfl, step_two (by omega) (by omega) rest⟩
  split
  · exact ⟨_, _, rfl, step_three (by omega) (by omega) (by omega) rest⟩
  · exact ⟨_, _, rfl, step_four (by omega) (by omega) rest⟩

theorem scan_encoded (cs : List Char) :
    scan (cs.flatMap String.utf8EncodeChar) = cs.map some := by
  induction cs with
  | nil => simp [scan]
  | cons c cs ih =>
    obtain ⟨b, tails, bytes, step⟩ := step_utf8EncodeChar c (cs.flatMap String.utf8EncodeChar)
    rw [List.flatMap_cons, bytes, List.cons_append, scan, step, ih, List.map_cons]

theorem decode_encode (s : String) : decode (encode s) = s := by
  simp [decode, encode_eq, scan_encoded, Function.comp_def]

end Text.Utf8

namespace Text.Hex

theorem digit_row {c : Char} (h : isHexDigit c = true) :
    (0x30 ≤ c.toNat ∧ c.toNat ≤ 0x39) ∨ (0x61 ≤ c.toNat ∧ c.toNat ≤ 0x66) ∨
      (0x41 ≤ c.toNat ∧ c.toNat ≤ 0x46) := by
  unfold isHexDigit hexValue? at h
  grind

theorem digit_inked {c : Char} (h : isHexDigit c = true) : isBlank c = false := by
  have row := digit_row h
  simp [isBlank]
  omega

theorem digit_no_mark {c : Char} (h : isHexDigit c = true) : c ≠ 'x' ∧ c ≠ 'X' := by
  have row := digit_row h
  constructor
  · rintro rfl
    revert row
    decide
  · rintro rfl
    revert row
    decide

theorem hexDigit_digit {n : Nat} (h : n < 16) : isHexDigit (hexDigit n) = true := by
  have all : ∀ n < 16, isHexDigit (hexDigit n) = true := by decide
  exact all n h

theorem hexDigit_small {n : Nat} (h : n < 16) : (hexDigit n).toLower = hexDigit n := by
  have all : ∀ n < 16, (hexDigit n).toLower = hexDigit n := by decide
  exact all n h

theorem hexValue_hexDigit {n : Nat} (h : n < 16) : hexValue? (hexDigit n) = some n := by
  have all : ∀ n < 16, hexValue? (hexDigit n) = some n := by decide
  exact all n h

theorem flatMap_written (bytes : List UInt8) :
    ∀ c ∈ bytes.flatMap ofByte, ∃ n < 16, c = hexDigit n := by
  intro c member
  obtain ⟨b, _, digit⟩ := List.mem_flatMap.mp member
  have hb := b.toNat_lt
  simp only [ofByte, List.mem_cons, List.not_mem_nil, or_false] at digit
  rcases digit with rfl | rfl
  · exact ⟨b.toNat / 16, by omega, rfl⟩
  · exact ⟨b.toNat % 16, by omega, rfl⟩

theorem length_flatMap (bytes : List UInt8) :
    (bytes.flatMap ofByte).length = 2 * bytes.length := by
  induction bytes with
  | nil => rfl
  | cons b rest ih => simp [ofByte, ih]; omega

theorem ofPairs_flatMap (bytes : List UInt8) : ofPairs (bytes.flatMap ofByte) = bytes := by
  induction bytes with
  | nil => rfl
  | cons b rest ih =>
    have hb := b.toNat_lt
    have value : b.toNat / 16 * 16 + b.toNat % 16 = b.toNat := Nat.div_add_mod' ..
    simp only [List.flatMap_cons, ofByte, List.cons_append, List.nil_append, ofPairs,
      hexValue_hexDigit (show b.toNat / 16 < 16 by omega),
      hexValue_hexDigit (show b.toNat % 16 < 16 by omega), Option.getD_some, value, ih,
      UInt8.ofNat_toNat]

theorem body_digits {cs : List Char} (h : ∀ c ∈ cs, isHexDigit c = true) :
    body (cs.map .char) = cs.map .char := by
  match cs with
  | [] | [_] => simp [body]
  | c :: d :: rest =>
    have mark := digit_no_mark (h d (by simp))
    simp only [List.map_cons]
    unfold body
    split
    · rename_i e; simp at e; exact absurd e.2.1 mark.1
    · rename_i e; simp at e; exact absurd e.2.1 mark.2
    · rfl

theorem inked_chars {cs : List Char} (h : ∀ c ∈ cs, isBlank c = false) :
    inked (ofChars cs) = cs.map .char := by
  refine List.filter_eq_self.mpr fun l hl => ?_
  obtain ⟨c, hc, rfl⟩ := List.mem_map.mp hl
  simp [Letter.is, Letter.char?, h c hc]

theorem normalChars_of_body {t : Text} {cs : List Char} (digits : body (inked t) = cs.map .char)
    (h : ∀ c ∈ cs, isHexDigit c = true) (even : cs.length % 2 = 0) :
    normalChars t = .ok (cs.map Char.toLower) := by
  have all : (cs.map Letter.char).all (·.is isHexDigit) = true := by
    simpa [Letter.is, Letter.char?] using h
  have chars : (cs.map Letter.char).filterMap Letter.char? = cs := by
    simp [List.filterMap_map, Function.comp_def, Letter.char?]
  rw [normalChars, digits]
  simp only [List.length_map, even, all, chars, if_true]
  rfl

theorem normalChars_digits {cs : List Char} (h : ∀ c ∈ cs, isHexDigit c = true)
    (even : cs.length % 2 = 0) : normalChars (ofChars cs) = .ok (cs.map Char.toLower) := by
  refine normalChars_of_body ?_ h even
  rw [inked_chars fun c hc => digit_inked (h c hc), body_digits h]

theorem normalChars_marked {cs : List Char} (h : ∀ c ∈ cs, isHexDigit c = true)
    (even : cs.length % 2 = 0) :
    normalChars (ofChars ('0' :: 'x' :: cs)) = .ok (cs.map Char.toLower) := by
  have inked : ∀ c ∈ '0' :: 'x' :: cs, isBlank c = false := by
    intro c hc
    simp only [List.mem_cons] at hc
    rcases hc with rfl | rfl | hc
    · decide
    · decide
    · exact digit_inked (h c hc)
  refine normalChars_of_body ?_ h even
  rw [inked_chars inked]
  rfl

theorem normalChars_written (bytes : List UInt8) :
    normalChars (encode bytes) = .ok (bytes.flatMap ofByte) := by
  have written := flatMap_written bytes
  have digits : ∀ c ∈ bytes.flatMap ofByte, isHexDigit c = true := by
    intro c hc
    obtain ⟨n, small, rfl⟩ := written c hc
    exact hexDigit_digit small
  have even : (bytes.flatMap ofByte).length % 2 = 0 := by rw [length_flatMap]; omega
  have lowered : (bytes.flatMap ofByte).map Char.toLower = bytes.flatMap ofByte := by
    conv => rhs; rw [← List.map_id (bytes.flatMap ofByte)]
    refine List.map_congr_left fun c hc => ?_
    obtain ⟨n, small, rfl⟩ := written c hc
    exact hexDigit_small small
  rw [ofString, encode, String.toList_ofList, normalChars_digits digits even, lowered]

theorem decode_encode (bytes : List UInt8) : decode (encode bytes) = .ok bytes := by
  rw [decode, normalChars_written]
  exact congrArg Except.ok (ofPairs_flatMap bytes)

theorem decode_cause {t : Text} {f : Fault} (h : decode t = .error f) : f.isDecode = true := by
  unfold decode normalChars at h
  dsimp only at h
  split at h
  · cases h
    rfl
  split at h
  · cases h
  · cases h
    rfl

theorem length_ofPairs {cs : List Char} {n : Nat} (h : cs.length = 2 * n) :
    (ofPairs cs).length = n := by
  induction n generalizing cs with
  | zero =>
    rw [List.length_eq_zero_iff.mp h]
    rfl
  | succ n ih =>
    match cs with
    | [] => simp at h
    | [_] => simp at h; omega
    | high :: low :: rest =>
      simp only [List.length_cons] at h
      rw [ofPairs, List.length_cons, ih (show rest.length = 2 * n by omega)]

end Text.Hex

end ChainDecode
