import ChainDecode.Proofs.Number.IsoTime
import ChainDecode.Proofs.Rom.CreationTime

/-! # Times that are too late

A time behind the last one that has a text is refused with its own digits in the message. So a time
with more digits than a numeral may have is not refused as a time: nothing can name it, and as the
digits of a text it is not even read.
-/
namespace ChainDecode.Rom

open Number

/-- A time of creation that is read is refused as a late time, and one that is not read stops
decoding before. -/
theorem decodeTree_late {data : List UInt8} {hints : Hints} {s : Text} {v : Nat}
    (text : CreatedText data s) (digits : Decimal s v) (late : 253402300799 < v) :
    decodeTree data hints = .error (if maxDigits < s.letters.length
      then .longNumeral s.letters.length else .timestampRange (toString v)) := by
  obtain ⟨root, cursor, fields, read, record, field⟩ := text
  rw [decodeTree_read hints read, if_pos (fields_struct record), record]
  have numeral := ofNumeral_decimal digits
  by_cases long : maxDigits < s.letters.length
  · rw [if_pos long] at numeral ⊢
    exact Or.inl (createdOf_error.mpr ⟨s, field, digits.isDigits, numeral⟩)
  · rw [if_neg long] at numeral ⊢
    have created : createdOf (Option.getD (some fields) []) = .ok (some v) := by
      rw [Option.getD_some, createdOf, field]
      dsimp only
      rw [if_pos digits.isDigits, numeral]
      rfl
    refine Or.inr ⟨v, created, ?_⟩
    rw [isoTime_late late, naming_short (digits.short (Nat.le_of_not_lt long))]

/-- Up to the last second of the year 9999 every time has a text that names it, and the texts are in
the order of the times. Every later time is refused as long as it can be named, and a record that
shows it for the creation as long as it can be read. -/
theorem iso_texts_are_faithful (v : Nat) :
    (v ≤ 253402300799 → ∃ text, isoTime v = .ok text ∧ Names text v ∧
      ∀ (w : Nat) other, isoTime w = .ok other →
        (text = other ↔ v = w) ∧ (text < other ↔ v < w)) ∧
    (253402300799 < v → ¬ IsLong v → isoTime v = .error (.timestampRange (toString v)) ∧
      (Fault.timestampRange (toString v)).kind = .format) ∧
    (IsLong v → isoTime v = .error .digitLimit ∧ Fault.digitLimit.kind = .value) ∧
    (253402300799 < v → ∀ data hints s, CreatedText data s → Decimal s v →
      decodeTree data hints = .error (if maxDigits < s.letters.length
        then .longNumeral s.letters.length else .timestampRange (toString v))) := by
  have later : IsLong v → 253402300799 < v := by
    intro long
    by_contra early
    exact word_short (by omega) long
  refine ⟨fun within => ?_, fun late short => ⟨?_, rfl⟩, fun long => ⟨?_, rfl⟩,
    fun late data hints s text digits => decodeTree_late text digits late⟩
  · obtain ⟨text, shown⟩ := isoTime_ok within
    exact ⟨text, shown, names_of_isoTime within shown, fun w other => isoTime_order shown⟩
  · rw [isoTime_late late, naming_short short]
  · rw [isoTime_late (later long), naming_long long]

theorem createdText_dated (t : SizedText) : CreatedText (dated (.text t)).wire t.text := by
  have shallow : (dated (.text t)).height < Node.levelsFrom 0 := by
    show (1 : Nat) < Node.levelsFrom 0
    decide
  have read := ((dated (.text t)).reads treeLabel shallow).onBytes []
  rw [List.append_nil] at read
  exact ⟨_, _, _, read, rfl, rfl⟩

def firstLateText : SizedText :=
  ⟨.byte 12 (by decide), "253402300800", by decide +kernel⟩

/-- The last second of a February with twenty-nine days and the second behind it, and the first
second that has no text, alone and in a record. -/
theorem leap_day_is_faithful :
    (951868799 ≤ 253402300799 ∧ isoTime 951868799 = .ok "2000-02-29T23:59:59Z" ∧
      Names "2000-02-29T23:59:59Z" 951868799 ∧
      isoTime 951868800 = .ok "2000-03-01T00:00:00Z" ∧
      ("2000-02-29T23:59:59Z" < "2000-03-01T00:00:00Z" ↔ 951868799 < 951868800)) ∧
    253402300799 < 253402300800 ∧
      isoTime 253402300800 = .error (.timestampRange "253402300800") ∧
      decodeTree (dated (.text firstLateText)).wire ⟨none, none⟩ =
        .error (.timestampRange "253402300800") := by
  have first : isoTime (951868799 : Nat) = .ok "2000-02-29T23:59:59Z" := rfl
  have second : isoTime (951868800 : Nat) = .ok "2000-03-01T00:00:00Z" := rfl
  have short : ¬ IsLong (253402300800 : Nat) := word_short (by decide)
  obtain ⟨text, shown, names, order⟩ := (iso_texts_are_faithful 951868799).1 (by decide)
  cases first.symm.trans shown
  refine ⟨⟨by decide, first, names, second, (order 951868800 _ second).2⟩, by decide, ?_, ?_⟩
  · exact ((iso_texts_are_faithful 253402300800).2.1 (by decide) short).1
  · exact (iso_texts_are_faithful 253402300800).2.2.2 (by decide) _ _ _
      (createdText_dated firstLateText) (decimal_toString 253402300800)

def leastLongText : String := String.ofList ('1' :: List.replicate maxDigits '0')

theorem leastLongText_length : (Text.ofString leastLongText).letters.length = 4301 := by
  rw [Text.letters_ofString, leastLongText, String.toList_ofList, List.length_map,
    List.length_cons, List.length_replicate]
  rfl

theorem leastLongText_exact : (Text.Utf8.encode leastLongText).length = 4301 := by
  rw [Text.Utf8.encode_eq, leastLongText, String.toList_ofList, List.length_flatMap,
    List.map_cons, List.map_replicate, List.sum_cons, List.sum_replicate]
  rfl

theorem leastLongText_decimal : Decimal leastLongText leastLong := by
  refine ⟨1 :: List.replicate maxDigits 0, List.cons_ne_nil _ _, ?_, ?_⟩
  · rw [Text.letters_ofString, leastLongText, String.toList_ofList, List.map_cons, List.map_cons,
      List.map_replicate, List.map_replicate, List.map_cons, List.map_replicate]
    rfl
  · rw [List.foldl_cons, foldl_zeros]
    unfold leastLong
    generalize maxDigits = most
    exact Nat.one_mul _

/-- A record whose time of creation is written with one digit too many. -/
def datedTooLate : Tree := dated (.text ⟨.two 4301, leastLongText, leastLongText_exact⟩)

/-- The least number that is too long is late, but it is not refused as a late time, neither alone
nor in a record. -/
theorem long_time_is_not_named :
    253402300799 < leastLong ∧ isoTime leastLong = .error .digitLimit ∧
      decodeTree datedTooLate.wire ⟨none, none⟩ = .error (.longNumeral 4301) ∧
      Fault.kind .digitLimit ≠ .format ∧ Fault.kind (.longNumeral 4301) ≠ .format := by
  have late : 253402300799 < leastLong := by
    by_contra early
    exact word_short (by omega) leastLong_isLong
  have text : CreatedText datedTooLate.wire leastLongText := createdText_dated _
  have many : maxDigits < (Text.ofString leastLongText).letters.length := by
    rw [leastLongText_length]
    decide
  refine ⟨late, ?_, ?_, by decide, by decide⟩
  · rw [isoTime_late late, naming_long leastLong_isLong]
  · rw [decodeTree_late text leastLongText_decimal late, if_pos many, leastLongText_length]

end ChainDecode.Rom
