import ChainDecode.Address
import ChainDecode.Proofs.Bytes
import ChainDecode.Proofs.Text.Base58
import ChainDecode.Proofs.Text.Blank

/-! # Address texts

A key is read back from its address text, and an address text is never a key in hexadecimal. The
text of the zero key has no numeral and stands apart in both.
-/
namespace ChainDecode

namespace Text

def HexDigit (c : Char) : Prop :=
  ('0' ≤ c ∧ c ≤ '9') ∨ ('a' ≤ c ∧ c ≤ 'f') ∨ ('A' ≤ c ∧ c ≤ 'F')

/-- A key in hexadecimal: sixty-four digits, with or without `0x` in front, and nothing else. -/
def KeyHex (t : Text) : Prop :=
  ∃ digits : List Char, digits.length = 64 ∧ (∀ c ∈ digits, HexDigit c) ∧
    (t = ofChars digits ∨ t = ofChars ('0' :: 'x' :: digits))

theorem hexDigit_iff (c : Char) : Hex.isHexDigit c = true ↔ HexDigit c := by
  have rows : ∀ d : Char, (d ≤ c ↔ d.toNat ≤ c.toNat) ∧ (c ≤ d ↔ c.toNat ≤ d.toNat) :=
    fun d => ⟨Iff.rfl, Iff.rfl⟩
  unfold HexDigit
  rw [(rows '0').1, (rows '9').2, (rows 'a').1, (rows 'f').2, (rows 'A').1, (rows 'F').2]
  constructor
  · exact Hex.digit_row
  · intro row
    change (0x30 ≤ c.toNat ∧ c.toNat ≤ 0x39) ∨ (0x61 ≤ c.toNat ∧ c.toNat ≤ 0x66) ∨
      (0x41 ≤ c.toNat ∧ c.toNat ≤ 0x46) at row
    unfold Hex.isHexDigit hexValue?
    grind

theorem KeyHex.decode {t : Text} (h : KeyHex t) :
    ∃ key, Hex.decode t = .ok key ∧ key.length = 32 := by
  obtain ⟨digits, size, hex, form⟩ := h
  have digit : ∀ c ∈ digits, Hex.isHexDigit c = true := fun c member =>
    (hexDigit_iff c).mpr (hex c member)
  have even : digits.length % 2 = 0 := by omega
  have chars : Hex.normalChars t = .ok (digits.map Char.toLower) := by
    rcases form with rfl | rfl
    · exact Hex.normalChars_digits digit even
    · exact Hex.normalChars_marked digit even
  refine ⟨Hex.ofPairs (digits.map Char.toLower), ?_, ?_⟩
  · rw [Hex.decode, chars]
    rfl
  · exact Hex.length_ofPairs (by rw [List.length_map, size])

theorem keyHex_encode {key : List UInt8} (h : key.length = 32) : KeyHex (Hex.encode key) := by
  refine ⟨key.flatMap Hex.ofByte, ?_, ?_, Or.inl ?_⟩
  · rw [Hex.length_flatMap, h]
  · intro c member
    obtain ⟨n, small, rfl⟩ := Hex.flatMap_written key c member
    exact (hexDigit_iff _).mp (Hex.hexDigit_digit small)
  · rw [Hex.encode, ofString, String.toList_ofList]

theorem KeyHex.front {c : Char} {cs : List Char} (h : KeyHex (ofChars (c :: cs))) : HexDigit c := by
  obtain ⟨digits, size, hex, form⟩ := h
  have chars : ∀ {ds : List Char}, ofChars (c :: cs) = ofChars ds → ds = c :: cs := by
    intro ds e
    have letters : (c :: cs).map Letter.char = ds.map .char := congrArg Text.letters e
    exact (List.map_injective_iff.mpr (fun _ _ => Letter.char.inj) letters).symm
  rcases form with e | e
  · exact hex c (by rw [chars e]; exact List.mem_cons_self)
  · have zero := (List.cons.inj (chars e)).1
    rw [← zero]
    exact Or.inl (by decide)

end Text

namespace Address

theorem ofBytes_of_size {bytes : List UInt8} (h : bytes.length = size) :
    ∃ a, ofBytes bytes = .ok a ∧ a.bytes = bytes := by
  rcases bytes with _ | ⟨tag, _ | ⟨reserved, key⟩⟩
  · cases h
  · cases h
  · have length : key.length = 32 := by simpa [size] using h
    exact ⟨⟨tag, reserved, key, length⟩, dif_pos length, rfl⟩

theorem ofBytes_of_other_size {bytes : List UInt8} (h : bytes.length ≠ size) :
    ∃ f, ofBytes bytes = .error f := by
  rcases bytes with _ | ⟨tag, _ | ⟨reserved, key⟩⟩
  · exact ⟨_, rfl⟩
  · exact ⟨_, rfl⟩
  · have length : ¬ key.length = 32 := fun same => h (congrArg (· + 2) same)
    exact ⟨_, dif_neg length⟩

theorem ofText_null : ofText nullText = .ok zero := by decide

theorem numeral_inked (bytes : List UInt8) :
    ∀ c ∈ (Text.Base58.encode bytes).toList, Text.isBlank c = false := by
  have inked : Text.Base58.alphabet.all (fun c => !Text.isBlank c) = true := by decide +kernel
  intro c member
  have letter := Text.Base58.encode_in_alphabet bytes c member
  simpa using List.all_eq_true.mp inked c letter

theorem numeral_some {bytes : List UInt8} (h : bytes ≠ []) :
    ((Text.Base58.encode bytes).toList.map Letter.char).isEmpty = false := by
  rw [List.isEmpty_eq_false_iff]
  intro none
  have back := Text.Base58.decode_encode bytes
  rw [none] at back
  have empty : Text.Base58.decode [] = .ok [] := by decide
  rw [empty] at back
  exact h (Except.ok.inj back).symm

theorem text_present {a : Address} (present : a.isNull = false) :
    (a.text : Text) =
      Text.ofChars (a.kind.letter?.getD '?' :: (Text.Base58.encode a.bytes).toList) := by
  rw [text, present, if_neg (by decide), Text.ofString, String.toList_append, String.toList_ofList]
  rfl

theorem text_letters {a : Address} {letter : Char} (present : a.isNull = false)
    (known : a.kind.letter? = some letter) :
    (a.text : Text) = Text.ofChars (letter :: (Text.Base58.encode a.bytes).toList) := by
  rw [text_present present, known]
  rfl

theorem letter_written {k : Kind} {letter : Char} (known : k.letter? = some letter) :
    letter = 'P' ∨ letter = 'S' ∨ letter = 'X' := by
  cases k <;> simp [Kind.letter?] at known <;> simp [← known]

theorem letter_inked (k : Kind) :
    Text.isBlank (k.letter?.getD '?') = false ∧ k.letter?.getD '?' ≠ 'N' := by
  cases k <;> decide

/-- The numeral of an address that is not null is read, so its letter alone decides. -/
theorem ofText_present {a : Address} (present : a.isNull = false) :
    ofText a.text =
      if a.kind.letter?.map Letter.char = some (.char (a.kind.letter?.getD '?')) then .ok a
      else .error (.addressLetter (.char (a.kind.letter?.getD '?'))) := by
  obtain ⟨inkedFront, otherFront⟩ := letter_inked a.kind
  have inked : ∀ l ∈ (a.text : Text).letters, l.is Text.isBlank = false := by
    intro l member
    rw [text_present present] at member
    obtain ⟨c, char, rfl⟩ := List.mem_map.mp member
    rcases List.mem_cons.mp char with rfl | char
    · exact inkedFront
    · exact numeral_inked a.bytes c char
  have other : (a.text : Text) ≠ nullText := by
    intro same
    rw [text_present present] at same
    exact otherFront (Letter.char.inj (List.cons.inj (congrArg Text.letters same)).1)
  have letters : (a.text : Text).letters =
      .char (a.kind.letter?.getD '?') :: (Text.Base58.encode a.bytes).toList.map .char := by
    rw [text_present present]
    rfl
  have length : a.bytes.length = size := by simp [bytes, a.key_length, size]
  have numeral := Text.Base58.decode_encode a.bytes
  have digits := numeral_some (show a.bytes ≠ [] by simp [bytes])
  have made : ofBytes a.bytes = .ok a := by
    rw [bytes, ofBytes, dif_pos a.key_length]
  rw [ofText, Text.strip_inked inked, if_neg other, letters]
  simp only [digits, numeral, length, made]
  rfl

theorem ofText_text {a : Address} {letter : Char} (present : a.isNull = false)
    (known : a.kind.letter? = some letter) : ofText a.text = .ok a := by
  rw [ofText_present present, known]
  exact if_pos rfl

theorem ofKey_ok {key : List UInt8} (h : key.length = 32) :
    ofKey key = .ok ⟨if isSystemKey key then 2 else 1, 0, key, h⟩ := by
  rw [ofKey, dif_pos h]

/-- The address of a key is null for the zero key alone; others belong to the system or a user. -/
theorem ofKey_cases {key : List UInt8} {a : Address} (made : ofKey key = .ok a) :
    a.key = key ∧ ((a.isNull = true ∧ key = List.replicate 32 0) ∨
      (a.isNull = false ∧ (a.kind = .system ∨ a.kind = .user))) := by
  unfold ofKey at made
  split at made
  · rename_i size
    cases made
    refine ⟨rfl, ?_⟩
    cases null : Address.isNull ⟨if isSystemKey key then 2 else 1, 0, key, size⟩ with
    | true =>
      refine Or.inl ⟨rfl, List.eq_replicate_iff.mpr ⟨size, fun b member => ?_⟩⟩
      simp only [isNull, List.all_cons, Bool.and_eq_true, List.all_eq_true] at null
      simpa using null.2 b member
    | false =>
      refine Or.inr ⟨rfl, ?_⟩
      rw [kind, null, if_neg (by decide)]
      by_cases system : isSystemKey key = true
      · exact Or.inl (by simp [system, Kind.ofTag])
      · exact Or.inr (by simp [system, Kind.ofTag])
  · cases made

theorem keyOfText_text {key : List UInt8} {a : Address} (made : ofKey key = .ok a) :
    keyOfText a.text = .ok key := by
  obtain ⟨same, ⟨null, zeros⟩ | ⟨present, kinds⟩⟩ := ofKey_cases made
  · have form : a.text = nullText := by rw [text, null, if_pos rfl]
    rw [form, keyOfText, ofText_null, zeros]
    rfl
  · have read : ofText a.text = .ok a := by
      rcases kinds with system | user
      · exact ofText_text present (by rw [system]; rfl)
      · exact ofText_text present (by rw [user]; rfl)
    have own : a.kind ≠ .interop := by
      rcases kinds with system | user
      · simp [system]
      · simp [user]
    rw [keyOfText, read]
    simp [bind, Except.bind, pure, Except.pure, own, same]

theorem text_not_keyHex {key : List UInt8} {a : Address} (made : ofKey key = .ok a) :
    ¬ Text.KeyHex a.text := by
  intro hex
  obtain ⟨-, ⟨null, -⟩ | ⟨present, kinds⟩⟩ := ofKey_cases made
  · have form : a.text = nullText := by rw [text, null, if_pos rfl]
    rw [form] at hex
    exact absurd ((Text.hexDigit_iff 'N').mpr hex.front) (by decide)
  · rcases kinds with system | user
    · have known : a.kind.letter? = some 'S' := by rw [system]; rfl
      rw [text_letters present known] at hex
      exact absurd ((Text.hexDigit_iff 'S').mpr hex.front) (by decide)
    · have known : a.kind.letter? = some 'P' := by rw [user]; rfl
      rw [text_letters present known] at hex
      exact absurd ((Text.hexDigit_iff 'P').mpr hex.front) (by decide)

theorem textOfKeyHex_ok {hex : Text} (h : Text.KeyHex hex) :
    ∃ key a, key.length = 32 ∧ Text.Hex.decode hex = .ok key ∧ ofKey key = .ok a ∧
      textOfKeyHex hex = .ok a.text := by
  obtain ⟨key, decoded, size⟩ := h.decode
  refine ⟨key, _, size, decoded, ofKey_ok size, ?_⟩
  rw [textOfKeyHex, decoded]
  simp only [bind, Except.bind, ofKey_ok size]
  rfl

section Keys

variable {key : List UInt8} {a : Address}

theorem length_of_ofKey (made : ofKey key = .ok a) : key.length = 32 := by
  rw [← (ofKey_cases made).1]
  exact a.key_length

theorem isNull_ofKey (made : ofKey key = .ok a) : a.isNull = true ↔ ∀ b ∈ key, b = 0 := by
  have size := length_of_ofKey made
  rw [ofKey_ok size] at made
  cases made
  simp [isNull]

def StartsWithZeros (key : List UInt8) : Prop := ∀ b ∈ key.take 15, b = 0

instance (key : List UInt8) : Decidable (StartsWithZeros key) := List.decidableBAll _ _

theorem kind_ofKey (made : ofKey key = .ok a) :
    a.kind = if StartsWithZeros key then .system else .user := by
  have null := isNull_ofKey made
  have size := length_of_ofKey made
  rw [ofKey_ok size] at made
  cases made
  have system : isSystemKey key = true ↔ StartsWithZeros key := by
    simp [isSystemKey, StartsWithZeros]
  by_cases zeros : ∀ b ∈ key, b = 0
  · have front : StartsWithZeros key := fun b member => zeros b (List.mem_of_mem_take member)
    rw [kind, if_pos (null.mpr zeros), if_pos front]
  · rw [kind, if_neg (mt null.mp zeros)]
    by_cases front : StartsWithZeros key
    · rw [if_pos front, if_pos (system.mpr front)]
      rfl
    · rw [if_neg front, if_neg (mt system.mp front)]
      rfl

theorem letter_ofKey (made : ofKey key = .ok a) : ∃ letter, a.kind.letter? = some letter := by
  rw [kind_ofKey made]
  split
  · exact ⟨'S', rfl⟩
  · exact ⟨'P', rfl⟩

theorem text_ofKey_null (made : ofKey key = .ok a) : a.text = "NULL" ↔ ∀ b ∈ key, b = 0 := by
  rw [← isNull_ofKey made]
  constructor
  · intro same
    by_contra present
    have present : a.isNull = false := by simpa using present
    obtain ⟨letter, known⟩ := letter_ofKey made
    have letters := text_letters present known
    rw [same] at letters
    have first : letter = 'N' :=
      (Letter.char.inj (List.cons.inj (congrArg Text.letters letters)).1).symm
    rcases letter_written known with rfl | rfl | rfl <;> exact absurd first (by decide)
  · intro null
    rw [text, if_pos null]
    rfl

theorem ofText_ofKey (made : ofKey key = .ok a) :
    ∃ b, ofText a.text = .ok b ∧ b.key = key ∧ b.kind = a.kind ∧ b.text = a.text := by
  obtain ⟨same, cases⟩ := ofKey_cases made
  rcases cases with ⟨null, zeros⟩ | ⟨present, -⟩
  · have form : a.text = nullText := by rw [text, if_pos null]
    have kinds : a.kind = .system := by rw [kind, if_pos null]
    refine ⟨zero, ?_, ?_, ?_, ?_⟩
    · rw [form]
      exact ofText_null
    · rw [zeros]
      rfl
    · rw [kinds]
      rfl
    · rw [form]
      rfl
  · obtain ⟨letter, known⟩ := letter_ofKey made
    exact ⟨a, ofText_text present known, same, rfl, rfl⟩

theorem convert_key (made : ofKey key = .ok a) :
    convert (some (Text.Hex.encode key)) none = .ok ⟨.keyToText, a⟩ := by
  have size := length_of_ofKey made
  have present : Text.isEmpty (Text.Hex.encode key : Text) = false := by
    cases key with
    | nil => cases size
    | cons b rest => simp [Text.isEmpty, Text.Hex.encode, Text.Hex.ofByte]
  have given : Option.filter (fun t : Text => !t.isEmpty) (some (Text.Hex.encode key : Text)) =
      some (Text.Hex.encode key : Text) := by
    simp [present]
  rw [convert, given]
  simp [Text.Hex.decode_encode, made, bind, Except.bind, pure, Except.pure]

theorem convert_text {b : Address} (read : ofText a.text = .ok b) (own : b.kind ≠ .interop)
    (present : Text.isEmpty (a.text : Text) = false) :
    convert none (some a.text) = .ok ⟨.textToKey, b⟩ := by
  have given : Option.filter (fun t : Text => !t.isEmpty) (some (a.text : Text)) =
      some (a.text : Text) := by
    simp [present]
  rw [convert, given]
  simp [read, own, bind, Except.bind, pure, Except.pure]

end Keys

def kindWord (key : List UInt8) : String :=
  if StartsWithZeros key then "system" else "user"

/-- A conversion as it is reported. -/
def report (direction kind : String) (key : List UInt8) (text : String) : Json :=
  .obj [("direction", .str direction), ("bytes32", .str (Text.Hex.encode key)),
    ("text", .str text), ("kind", .str kind)]

/-- What a key and its address have to do with each other, on the way there and on the way back. -/
structure Survives (key : List UInt8) (a : Address) : Prop where
  made : ofKey key = .ok a
  recovered : keyOfText a.text = .ok key
  -- The text is read as an address of the same kind.
  read : ∃ b, ofText a.text = .ok b ∧ b.kind = a.kind
  kind : a.kind = if StartsWithZeros key then .system else .user
  null : a.text = "NULL" ↔ ∀ b ∈ key, b = 0
  -- No other key has this text.
  alone : ∀ other b, ofKey other = .ok b → b.text = a.text → other = key
  -- Converting the key and then the text that it gives reports the same key, text and kind.
  converted : ∃ there back, convert (some (Text.Hex.encode key)) none = .ok there ∧
    convert none (some there.address.text) = .ok back ∧
    there.toJson = report "bytes32-to-pha" (kindWord key) key a.text ∧
    back.toJson = report "pha-to-bytes32" (kindWord key) key a.text

/-- Every key is read back from its address text, which it shares with no other key, and the kind of
the address is decided by the zeros in front of the key. -/
theorem keys_survive_their_text (key : List UInt8) (size : key.length = 32) :
    ∃ a, Survives key a := by
  obtain ⟨a, made⟩ : ∃ a, ofKey key = .ok a := ⟨_, ofKey_ok size⟩
  obtain ⟨b, read, same, kinds, texts⟩ := ofText_ofKey made
  have kind := kind_ofKey made
  have own : b.kind ≠ .interop := by
    rw [kinds, kind]
    split <;> decide
  have present : Text.isEmpty (a.text : Text) = false := by
    by_contra empty
    have blank : a.text = "" := by simpa [Text.isEmpty] using empty
    rw [blank] at read
    cases read
  have system : a.isSystem = true ↔ StartsWithZeros key := by
    rw [isSystem, kind]
    by_cases front : StartsWithZeros key
    · simp only [if_pos front, decide_true, true_iff]
      exact front
    · simp only [if_neg front]
      simpa using front
  refine ⟨a, made, keyOfText_text made, ⟨b, read, kinds⟩, kind, text_ofKey_null made, ?_, ?_⟩
  · intro other c madeOther shared
    have back := keyOfText_text madeOther
    rw [shared, keyOfText_text made] at back
    exact (Except.ok.inj back).symm
  · have word : kindWord key = if a.isSystem then "system" else "user" := by
      simp only [kindWord, system]
    have kept : b.isSystem = a.isSystem := by rw [isSystem, kinds, isSystem]
    refine ⟨_, _, convert_key made, convert_text read own present, ?_, ?_⟩
    · rw [word]
      simp [Conversion.toJson, Conversion.kindName, report, Direction.name, (ofKey_cases made).1]
    · rw [word]
      simp [Conversion.toJson, Conversion.kindName, report, Direction.name, same, texts, kept]

/-- Fifteen zeros make a key of the system, which has a text of its own. -/
theorem system_key_survives :
    (List.replicate 15 0 ++ List.replicate 17 (1 : UInt8)).length = 32 ∧
      ∃ a, Survives (List.replicate 15 0 ++ List.replicate 17 (1 : UInt8)) a :=
  ⟨by decide, keys_survive_their_text _ (by decide)⟩

end Address

end ChainDecode
