import Mathlib.Data.Nat.Digits.Defs
import ChainDecode.Proofs.Event.Kinds
import ChainDecode.Proofs.Event.Reporting

/-! # Hints by name and by number

A kind that is known by name is hinted at by its name in any spelling and by its number in digits of
any script. Both hints give the same event, as long as the number has no more digits than a numeral
may have; zeros in front count.
-/
namespace ChainDecode

namespace Number

theorem Decimal.bare {t : Text} {n : Nat} (h : Decimal t n) : Text.Bare t.letters := by
  have inked : ∀ l ∈ t.letters, l.is Text.isBlank = false := by
    intro l member
    have digit := List.all_eq_true.mp (Bool.and_eq_true_iff.mp h.isDigits).2 l member
    cases l with
    | surrogate place => rfl
    | char c =>
      by_contra blank
      have none := Text.blank_not_digit (c := c) (by simpa [Letter.is, Letter.char?] using blank)
      simp [Letter.is, Letter.char?, none] at digit
  exact ⟨fun l first => inked l (List.mem_of_head? first),
    fun l last => inked l (List.mem_of_getLast? last)⟩

theorem toString_length {n count : Nat} (some : 0 < count) (h : n < Nat.pow 10 count) :
    (Text.ofString (toString n)).letters.length ≤ count := by
  rw [Text.letters_ofString, List.length_map, Nat.toString_eq_ofList_toDigits,
    String.toList_ofList]
  exact Nat.toDigits_length 10 n count some h

end Number

namespace Event

open Number (Decimal maxDigits)

def madeName (id : Nat) : String := s!"EventKind_{id}"

theorem names_not_made {name : String} (h : name ∈ Kind.names) (id : Nat) : name ≠ madeName id := by
  have table : ∀ name ∈ Kind.names, ("EventKind_".toList.isPrefixOf name.toList) = false := by
    decide +kernel
  intro same
  have made : (madeName id).toList = "EventKind_".toList ++ (toString id).toList :=
    String.toList_append
  have front := table name h
  rw [same, made] at front
  have begins : "EventKind_".toList <+: "EventKind_".toList ++ (toString id).toList :=
    List.prefix_append _ _
  rw [List.isPrefixOf_iff_prefix.mpr begins] at front
  cases front

/-- A hint of digits, with blanks around them, gives the kind of their number. -/
theorem ofHint_decimal {hint digits : Text} {id : Nat} (around : Text.Around hint digits)
    (decimal : Decimal digits id) :
    Kind.ofHint (some hint) =
      if maxDigits < digits.letters.length then .error (.longNumeral digits.letters.length)
      else .ok (some (.ofId id)) := by
  have filled : digits.isEmpty = false := by
    have all := decimal.isDigits
    rw [Text.isDigits, Bool.and_eq_true] at all
    simpa using all.1
  have some : digits.letters ≠ [] := by simpa [Text.isEmpty] using filled
  have text : Text.strip ((Option.some hint).getD "") = digits := around.strip decimal.bare some
  simp only [Kind.ofHint, text, filled, Bool.false_eq_true, if_false, decimal.isDigits, if_true,
    Number.ofNumeral_decimal decimal]
  split
  · rfl
  · rfl

/-- A hint by name and a hint by number for one kind. -/
structure HintsFor (id : Nat) (name : String) (word number digits : Text) : Prop where
  known : Kind.names[id]? = some name
  -- The name in any case, with blanks anywhere.
  spelling : Kind.Spelling name.toList word.letters
  -- Digits of any script, with blanks around them.
  around : Text.Around number digits
  decimal : Decimal digits id

/-- What is decoded of an event with a hint by name, and what with a hint by number. -/
structure Agree (data : List UInt8) (id : Nat) (name : String) (word number digits : Text) :
    Prop where
  named : decode data (some word) = decodeKind data ⟨id, name⟩
  same : decode data (some number) = decode data (some word) ↔ digits.letters.length ≤ maxDigits
  long : maxDigits < digits.letters.length →
    decode data (some number) = .error (.longNumeral digits.letters.length)
  -- The event is told, unless it is of a task that holds a number of too many digits.
  told : (∃ e warnings, decode data (some word) = .ok (e, warnings)) ↔
    ¬ (name ∈ taskKinds ∧ HoldLongNumber data)

theorem decode_hinted {data : List UInt8} {hint : Option Text} {kind : Kind}
    (h : Kind.ofHint hint = .ok (some kind)) : decode data hint = decodeKind data kind := by
  rw [decode, h]
  rfl

theorem ofId_known {id : Nat} {name : String} (h : Kind.names[id]? = some name) :
    Kind.ofId id = ⟨id, name⟩ := by
  rw [Kind.ofId, List.getD_eq_getElem?_getD, h, Option.getD_some]

theorem HintsFor.agree {id : Nat} {name : String} {word number digits : Text}
    (h : HintsFor id name word number digits) (data : List UInt8) :
    Agree data id name word number digits := by
  have named : decode data (some word) = decodeKind data ⟨id, name⟩ :=
    decode_hinted (Kind.ofHint_spelling h.known h.spelling)
  have numbered := ofHint_decimal h.around h.decimal
  rw [ofId_known h.known] at numbered
  have long : maxDigits < digits.letters.length →
      decode data (some number) = .error (.longNumeral digits.letters.length) := by
    intro many
    rw [decode, numbered, if_pos many]
    rfl
  refine ⟨named, ⟨fun same => ?_, fun few => ?_⟩, long, ?_⟩
  · -- With too many digits the number itself is the cause, which no kind gives.
    by_contra many
    rw [long (Nat.lt_of_not_le many), named] at same
    obtain ⟨cause, -, -⟩ := decodeKind_error.mp same.symm
    cases cause
  · rw [if_neg (Nat.not_lt.mpr few)] at numbered
    rw [named, decode_hinted numbered]
  · rw [named]
    cases told : decodeKind data ⟨id, name⟩ with
    | ok found =>
      have short : ¬ (name ∈ taskKinds ∧ HoldLongNumber data) := by
        intro long
        rw [decodeKind_error.mpr ⟨rfl, long⟩] at told
        cases told
      exact ⟨fun _ => short, fun _ => ⟨found.1, found.2, rfl⟩⟩
    | error f =>
      obtain ⟨-, task, many⟩ := decodeKind_error.mp told
      simp [task, many]

/-- The kind of a number bears it, and a made name if the number has no name of its own. -/
structure Numbered (kind : Kind) (n : Nat) : Prop where
  number : kind.id = n
  made : kind.name = madeName n ↔ Kind.names[n]? = none
  known : ∀ name, Kind.names[n]? = some name → kind.name = name

theorem ofId_numbered (n : Nat) : Numbered (.ofId n) n := by
  cases known : Kind.names[n]? with
  | none =>
    have unnamed : Kind.ofId n = ⟨n, madeName n⟩ := by
      rw [Kind.ofId, List.getD_eq_getElem?_getD, known]
      rfl
    rw [unnamed]
    exact ⟨rfl, by simp [known], by simp [known]⟩
  | some name =>
    have own := names_not_made (List.mem_of_getElem? known) n
    rw [ofId_known known]
    exact ⟨rfl, by simp [known, own], by simp [known]⟩

theorem ofHint_toString {n : Nat} (small : n < Nat.pow 10 maxDigits) :
    Kind.ofHint (some (Text.ofString (toString n))) = .ok (some (Kind.ofId n)) := by
  have alone : Text.Around (toString n : String) (toString n : String) :=
    ⟨[], [], by simp, by simp⟩
  rw [ofHint_decimal alone (Number.decimal_toString n),
    if_neg (Nat.not_lt.mpr (Number.toString_length (by decide) small))]

/-- The name of a kind, however it is spelled, and its number, in whatever digits, give the same
event exactly if the number has no more digits than a numeral may have; otherwise the hint by number
stops the decode. Every number below that limit is the hint for a kind with this number, whose name
is made up exactly if no kind of the number is known. -/
theorem hints_agree_iff (data : List UInt8) :
    (∀ (id : Nat) (name : String) (word number digits : Text),
      HintsFor id name word number digits → Agree data id name word number digits) ∧
    ∀ n < Nat.pow 10 maxDigits, ∃ kind,
      Kind.ofHint (some (Text.ofString (toString n))) = .ok (some kind) ∧ Numbered kind n :=
  ⟨fun _ _ _ _ _ hints => hints.agree data,
    fun n small => ⟨.ofId n, ofHint_toString small, ofId_numbered n⟩⟩

/-- The data of a sending: `SOUL`, a hundred, and `main`. -/
def sendData : List UInt8 := [4, 83, 79, 85, 76, 1, 100, 4, 109, 97, 105, 110]

/-- A spelling of `TokenSend` with other capitals and two blanks. -/
def spreadSend : Text := Text.ofChars ['t', 'o', 'k', 'E', 'N', '\u3000', 's', 'e', 'n', 'd', ' ']

theorem spreadSend_spelling : Kind.Spelling "TokenSend".toList spreadSend.letters :=
  .letter rfl <| .letter rfl <| .letter rfl <| .letter rfl <| .letter rfl <| .blank rfl <|
    .letter rfl <| .letter rfl <| .letter rfl <| .letter rfl <| .blank rfl .done

/-- A zero and a three in other digits than those of ASCII. -/
def arabicThree : Text := Text.ofChars ['٠', '٣']

theorem sending_by_name_and_number :
    HintsFor 3 "TokenSend" spreadSend (Text.single (.char '\t') ++ arabicThree) arabicThree ∧
    Agree sendData 3 "TokenSend" spreadSend (Text.single (.char '\t') ++ arabicThree)
      arabicThree ∧
    3 < Nat.pow 10 maxDigits ∧
    ∃ kind, Kind.ofHint (some (Text.ofString (toString 3))) = .ok (some kind) ∧
      Numbered kind 3 := by
  have around : Text.Around (Text.single (.char '\t') ++ arabicThree) arabicThree :=
    ⟨[.char '\t'], [], rfl, by decide⟩
  have hints : HintsFor 3 "TokenSend" spreadSend _ arabicThree :=
    ⟨rfl, spreadSend_spelling, around, [0, 3], by simp, by decide, rfl⟩
  have above : ∀ count, 0 < count → 3 < Nat.pow 10 count := by
    intro count some
    obtain ⟨k, rfl⟩ := Nat.exists_eq_succ_of_ne_zero (Nat.ne_of_gt some)
    have power : 0 < 10 ^ k := Nat.pow_pos (by decide)
    rw [Nat.pow_eq, Nat.pow_succ]
    omega
  have small : 3 < Nat.pow 10 maxDigits := above maxDigits (by decide)
  obtain ⟨agree, numbered⟩ := hints_agree_iff sendData
  exact ⟨hints, agree 3 "TokenSend" _ _ _ hints, small, numbered 3 small⟩

/-- Three behind as many zeros as a numeral may have digits. -/
def paddedThree : Text := Text.ofChars (List.replicate maxDigits '0' ++ ['3'])

theorem paddedThree_decimal : Decimal paddedThree 3 := by
  refine ⟨List.replicate maxDigits 0 ++ [3], List.append_ne_nil_of_right_ne_nil _ nofun, ?_, ?_⟩
  · simp only [paddedThree, Text.ofChars, List.map_append, List.map_replicate, List.map_singleton]
    rfl
  · rw [List.foldl_append, Number.foldl_zeros, Nat.zero_mul]
    rfl

/-- A zero too many in front makes the number of a kind no hint for it. -/
theorem padded_number_stops :
    HintsFor 3 "TokenSend" "TokenSend" paddedThree paddedThree ∧
      decode sendData (some paddedThree) = .error (.longNumeral 4301) ∧
      decode sendData (some paddedThree) ≠ decode sendData (some "TokenSend") := by
  have hints : HintsFor 3 "TokenSend" "TokenSend" paddedThree paddedThree :=
    ⟨rfl, .refl _, ⟨[], [], by simp, by simp⟩, paddedThree_decimal⟩
  have length : paddedThree.letters.length = 4301 := by
    rw [paddedThree, Text.ofChars, List.length_map, List.length_append, List.length_replicate]
    rfl
  have agree := hints.agree sendData
  have many : maxDigits < paddedThree.letters.length := by rw [length]; decide
  refine ⟨hints, length ▸ agree.long many, fun same => ?_⟩
  exact Nat.not_le_of_lt many (agree.same.mp same)

end Event

end ChainDecode
