import ChainDecode.Proofs.Address
import ChainDecode.Proofs.Number.Calendar
import ChainDecode.Proofs.Rom.Selection

/-! # The data of CROWN tokens is read back

The data begins with the length of an address. No length above eight is the type of a node, and none
of the marks of longer lengths is, so the parser of trees refuses the data at its first byte, and
the automatic choice comes to the record of the token whatever the symbol is.
-/
namespace ChainDecode

def Buffer.Varint.mark : Varint → UInt8
  | byte n _ => n
  | two _ => 0xfd
  | four _ => 0xfe
  | eight _ => 0xff

theorem Buffer.Varint.wire_mark (v : Varint) : ∃ rest, v.wire = v.mark :: rest := by
  cases v with
  | byte n unmarked =>
    have same : UInt8.ofNat (n.toNat % 256) = n := by
      rw [Nat.mod_eq_of_lt n.toNat_lt, UInt8.ofNat_toNat]
    exact ⟨[], congrArg (· :: []) same⟩
  | two n => exact ⟨_, rfl⟩
  | four n => exact ⟨_, rfl⟩
  | eight n => exact ⟨_, rfl⟩

theorem Buffer.Varint.lt_mark {v : Varint} {least : Nat} (h : least < v.value)
    (small : least < 0xfd) : least < v.mark.toNat := by
  cases v with
  | byte n unmarked => exact h
  | two n => exact small
  | four n => exact Nat.lt_succ_of_lt small
  | eight n => exact Nat.lt_succ_of_lt (Nat.lt_succ_of_lt small)

namespace Rom

open Buffer (Varint)

theorem readOfType_unknown {label : Text} {inner : Read Node} {offset type : Nat}
    (unknown : 8 < type) :
    Node.readOfType label inner offset type = throw (.nodeType type offset) := by
  unfold Node.readOfType
  split
  all_goals first | omega | rfl

theorem decodeTree_unknown {b : UInt8} (unknown : 8 < b.toNat) (rest : List UInt8)
    (hints : Hints) : decodeTree (b :: rest) hints = .error (.nodeType b.toNat 0) := by
  have levels : Node.levelsFrom 0 = 128 + 1 := rfl
  have place : Read.position (.start (b :: rest)) = .ok 0 (.start (b :: rest)) := rfl
  have type : Buffer.word treeLabel 1 (.start (b :: rest)) = .ok b.toNat ⟨1, rest⟩ :=
    Reads.bufferByte treeLabel b 0 rest
  have stop : Node.read treeLabel (Node.levelsFrom 0) (.start (b :: rest)) =
      .error (.nodeType b.toNat 0) ⟨1, rest⟩ := by
    rw [levels, Node.read, bind_ok place, bind_ok type, readOfType_unknown unknown]
    rfl
  have refused : (Node.read treeLabel (Node.levelsFrom 0)).onBytes (b :: rest) =
      .error (.nodeType b.toNat 0) := by
    rw [Read.onBytes, EStateM.run, stop]
  rw [decodeTree, refused]
  rfl

/-- The data of a CROWN token: the staker behind its length, and a time. -/
def crownWire (staker : Sized) (seconds : UInt32) : List UInt8 :=
  staker.wire ++ Number.toBytes 4 seconds.toNat

theorem reads_crown {staker : Sized} (short : staker.data.length ≤ 2048) (seconds : UInt32) :
    Reads readCrown (crownWire staker seconds) (staker.data, seconds.toNat) := by
  have allowed : (staker.size.value : Int) ≤ stakerMax := by
    rw [← staker.exact, stakerMax]
    omega
  have length : Reads (Buffer.varint crownLabel stakerMax) staker.size.wire staker.size.value :=
    .varint_of_any (.anyVarint_form staker.size) allowed
  have bytes : Reads (Buffer.take crownLabel staker.size.value) staker.data staker.data :=
    .take staker.exact
  rw [crownWire, Sized.wire, List.append_assoc]
  exact length.bind (bytes.bind ((Reads.timestamp crownLabel seconds).bind_pure _))

/-- The notes about bytes behind the record and about a staker whose length is no address's. -/
def crownNotes (staker tail : List UInt8) : List Text :=
  let trailing : List Text :=
    if tail = [] then [] else [s!"CROWN ROM has {tail.length} trailing bytes"]
  let size : List Text :=
    if staker.length = 34 then []
    else [s!"CROWN staker address length is {staker.length}, expected 34"]
  trailing ++ size

def crownShown (staker : List UInt8) (address : Option String) (seconds : Nat) (iso : String) :
    Json :=
  match address with
  | some text =>
    .obj [("address_length", .nat staker.length),
      ("staker_address_hex", .str (Text.Hex.encode staker)), ("staker_address", .str text),
      ("timestamp_unix", .nat seconds), ("timestamp_iso", .str iso)]
  | none =>
    .obj [("address_length", .nat staker.length),
      ("staker_address_hex", .str (Text.Hex.encode staker)), ("timestamp_unix", .nat seconds),
      ("timestamp_iso", .str iso)]

inductive AddressText (bytes : List UInt8) : Option String → Prop
  | address (a : Address) (same : a.bytes = bytes) : AddressText bytes (some a.text)
  | other (size : bytes.length ≠ 34) : AddressText bytes none

/-- What is shown is the staker and the time that the data was made of. -/
structure ShowsCrown (staker : List UInt8) (seconds : Nat) (shown : Json) : Prop where
  crown : ∃ address iso, AddressText staker address ∧ Number.IsoForm seconds iso ∧
    shown.get? "crown" = some (crownShown staker address seconds iso) ∧
    shown.get? "created_iso" = some (.str iso)
  created : shown.get? "created_unix" = some (.nat seconds)

theorem stakerText_spec (c : Crown) : AddressText c.staker c.stakerText? := by
  unfold Crown.stakerText?
  by_cases size : c.staker.length = Address.size
  · obtain ⟨a, made, same⟩ := Address.ofBytes_of_size size
    rw [made]
    exact .address a same
  · obtain ⟨f, refused⟩ := Address.ofBytes_of_other_size size
    rw [refused]
    exact .other size

theorem Crown.toJson_eq (c : Crown) :
    c.toJson = crownShown c.staker c.stakerText? c.timestamp c.timestampText := by
  unfold Crown.toJson crownShown
  cases c.stakerText? <;> rfl

theorem shows_crown {d : Decoded} {c : Crown} (content : d.content = .crown c)
    (created : d.created = some (c.timestamp, c.timestampText))
    (form : Number.IsoForm c.timestamp c.timestampText) :
    ShowsCrown c.staker c.timestamp d.toJson := by
  obtain ⟨time, text⟩ := shown_created d
  rw [created] at time text
  have record : d.toJson.get? "crown" = some c.toJson := by
    simp (disch := decide) only [Decoded.toJson, Json.get?, List.append_assoc, content,
      field?_member_other, field?_member?_other]
    rfl
  rw [c.toJson_eq] at record
  exact ⟨⟨_, _, stakerText_spec c, form, record, text⟩, time⟩

theorem sizeNote (n : Nat) :
    s!"CROWN staker address length is {n}, expected {Address.size}" =
      s!"CROWN staker address length is {n}, expected 34" := by
  have number : toString ", expected " ++ toString Address.size = toString ", expected 34" := by
    decide
  rw [← number, String.append_assoc]

theorem decodeCrown_read {data : List UInt8} {staker : List UInt8} {seconds : Nat} {c : Cursor}
    {iso : String} (read : readCrown.onBytes data = .ok ((staker, seconds), c))
    (written : Number.isoTime seconds = .ok iso) (hints : Hints) :
    ∃ name, decodeCrown data hints = .ok (⟨data, hints, name, some "", some (seconds, iso),
      .crown ⟨staker, seconds, iso⟩⟩, crownNotes staker c.rest) := by
  refine ⟨(hints.tokenId.filter (!·.isEmpty)).map fun (id : Text) => "CROWN #" ++ id, ?_⟩
  rw [decodeCrown, read]
  simp only [bind, Except.bind, written, pure, Except.pure, sizeNote]
  cases behind : c.rest with
  | nil => simp [Cursor.atEnd, behind, crownNotes, Address.size]
  | cons b rest => simp [Cursor.atEnd, Cursor.remaining, behind, crownNotes, Address.size]

theorem decodeCrown_wire {staker : Sized} (short : staker.data.length ≤ 2048) (seconds : UInt32)
    (tail : List UInt8) (hints : Hints) :
    ∃ d, decodeCrown (crownWire staker seconds ++ tail) hints =
        .ok (d, crownNotes staker.data tail) ∧
      ShowsCrown staker.data seconds.toNat d.toJson := by
  obtain ⟨iso, written⟩ := isoTime_word seconds.toNat_lt
  have read := (reads_crown short seconds).onBytes tail
  obtain ⟨name, returned⟩ := decodeCrown_read read written hints
  have form := Number.isoTime_form written
  refine ⟨_, returned, ?_⟩
  exact shows_crown (c := ⟨staker.data, seconds.toNat, iso⟩) rfl rfl form

theorem decodeTree_crown {staker : Sized} (long : 8 < staker.data.length) (seconds : UInt32)
    (tail : List UInt8) (hints : Hints) :
    decodeTree (crownWire staker seconds ++ tail) hints =
      .error (.nodeType staker.size.mark.toNat 0) := by
  obtain ⟨rest, front⟩ := staker.size.wire_mark
  have unknown : 8 < staker.size.mark.toNat := Varint.lt_mark (staker.exact ▸ long) (by decide)
  have data : crownWire staker seconds ++ tail = staker.size.mark ::
      (rest ++ (staker.data ++ (Number.toBytes 4 seconds.toNat ++ tail))) := by
    rw [crownWire, Sized.wire, front]
    simp
  rw [data]
  exact decodeTree_unknown unknown _ _

section Modes

variable {data : List UInt8} {hints : Hints} {result : Except Fault (Decoded × List Text)}
  {found : Decoded × List Text}

theorem Forced.eq_found {parser : Parser} (h : Forced parser data hints result)
    (own : parser.decode data hints = .ok found) : result = .ok found := by
  cases h with
  | read other => rw [← other, own]
  | refused other =>
    rw [own] at other
    cases other

theorem Automatic.eq_found {first : Parser} (h : Automatic first data hints result)
    (own : first.decode data hints = .ok found) : result = .ok found := by
  cases h with
  | first other => rw [← other, own]
  | other failed | neither failed =>
    rw [own] at failed
    cases failed

theorem Automatic.eq_fallback {first : Parser} {f : Fault} (h : Automatic first data hints result)
    (failed : first.decode data hints = .error f)
    (own : first.other.decode data hints = .ok found) :
    result = .ok (found.1, fallbackNote first f :: found.2) := by
  cases h with
  | first other =>
    rw [failed] at other
    cases other
  | other again other =>
    rw [failed] at again
    rw [own] at other
    cases again
    cases other
    rfl
  | neither again other =>
    rw [own] at other
    cases other

theorem forced_finds_crown (own : Parser.crown.decode data hints.normal = .ok found) :
    decode data (.forced .crown) hints = .ok found := by
  have tame : ¬ Escapes (Parser.crown.decode data hints.normal) := decodeCrown_returns
  exact (decode_forced tame).eq_found own

/-- Data that is no tree comes to the record whichever parser is tried first, and with a note when
it is the parser of trees. -/
theorem auto_finds_crown {f : Fault} (own : Parser.crown.decode data hints.normal = .ok found)
    (failed : Parser.tree.decode data hints.normal = .error f) (inside : InBytes f) :
    decode data .auto hints = .ok (found.1,
      if Text.upper (Text.strip (hints.symbol.getD "")) = "CROWN" then found.2
      else fallbackNote .tree f :: found.2) := by
  have tame : ∀ parser : Parser, ¬ Escapes (parser.decode data hints.normal) := by
    rintro (_ | _)
    · rw [failed]
      exact not_escapes_error inside
    · exact decodeCrown_returns
  have chosen := decode_auto tame
  by_cases symbol : Text.upper (Text.strip (hints.symbol.getD "")) = "CROWN"
  · have first : Parser.ofSymbol hints.symbol = .crown := if_pos symbol
    rw [first] at chosen
    rw [if_pos symbol]
    exact chosen.eq_found own
  · have first : Parser.ofSymbol hints.symbol = .tree := if_neg symbol
    rw [first] at chosen
    rw [if_neg symbol]
    exact chosen.eq_fallback failed own

end Modes

def treeNote (first : UInt8) : Text :=
  Text.ofString ("auto parser fallback: legacy failed (unsupported VM type " ++
    s!"{first.toNat} at offset 0); crown succeeded")

theorem fallbackNote_tree (first : UInt8) :
    fallbackNote .tree (.nodeType first.toNat 0) = treeNote first := by
  have front : Text.ofString "auto parser fallback: legacy failed (unsupported VM type " =
      Text.ofString "auto parser fallback: " ++ Text.ofString Parser.tree.name ++
        Text.ofString " failed (" ++ Text.ofString "unsupported VM type " := by decide +kernel
  have back : Text.ofString " at offset 0); crown succeeded" =
      Text.ofString " at offset " ++ Text.ofString (toString 0) ++ Text.ofString "); " ++
        Text.ofString Parser.crown.name ++ Text.ofString " succeeded" := by decide +kernel
  have other : Parser.tree.other = .crown := rfl
  have plain : ∀ s : String, toString s = s := fun _ => rfl
  simp only [treeNote, fallbackNote, other, Fault.message, plain, Text.ofString_append, front, back,
    Text.append_assoc]

/-- What the automatic choice tells when the symbol is another: the parser of trees is tried first,
and refuses the data for its first byte. -/
def symbolNotes (mode : Mode) (symbol : Option Text) (staker : Sized) : List Text :=
  if mode = .auto ∧ Text.upper (Text.strip (symbol.getD "")) ≠ "CROWN" then
    [treeNote staker.size.mark]
  else []

/-- Data of a CROWN token with a staker of at most 2048 bytes is read back, whatever follows it and
whatever is known of the token, if its parser is forced, or if the staker has more than eight bytes,
as every address has, and the choice is automatic. -/
theorem crown_data_is_read_back (staker : Sized) (seconds : UInt32) (tail : List UInt8)
    (mode : Mode) (hints : Hints) (short : staker.data.length ≤ 2048)
    (chosen : mode = .forced .crown ∨ mode = .auto ∧ 8 < staker.data.length) :
    ∃ d, decode (crownWire staker seconds ++ tail) mode hints =
        .ok (d, symbolNotes mode hints.symbol staker ++ crownNotes staker.data tail) ∧
      RecordOf .crown (crownWire staker seconds ++ tail) hints.normal d ∧
      ShowsCrown staker.data seconds.toNat d.toJson := by
  obtain ⟨d, own, shown⟩ := decodeCrown_wire short seconds tail hints.normal
  have own : Parser.crown.decode (crownWire staker seconds ++ tail) hints.normal =
      .ok (d, crownNotes staker.data tail) := own
  refine ⟨d, ?_, recordOf_made own, shown⟩
  rcases chosen with rfl | ⟨rfl, long⟩
  · have quiet : symbolNotes (.forced .crown) hints.symbol staker = [] := by
      simp [symbolNotes]
    rw [quiet]
    exact forced_finds_crown own
  · have failed : Parser.tree.decode (crownWire staker seconds ++ tail) hints.normal =
        .error (.nodeType staker.size.mark.toNat 0) := decodeTree_crown long seconds tail _
    rw [auto_finds_crown own failed rfl, fallbackNote_tree]
    by_cases symbol : Text.upper (Text.strip (hints.symbol.getD "")) = "CROWN"
    · simp [symbolNotes, symbol]
    · simp [symbolNotes, symbol]

theorem thirtyFour_unmarked : (34 : UInt8).toNat < 0xfd := by decide

def ownedStaker : Sized := ⟨.byte 34 thirtyFour_unmarked, 1 :: 0 :: List.replicate 32 7, rfl⟩

/-- With the symbol of another token the data is read back too, behind a note. -/
theorem owned_crown_is_read_back :
    ownedStaker.data.length ≤ 2048 ∧ 8 < ownedStaker.data.length ∧
      ∃ d, decode (crownWire ownedStaker 1700000000 ++ [0]) .auto ⟨some "soul", none⟩ = .ok (d,
          [Text.ofString ("auto parser fallback: legacy failed (unsupported VM type 34 at " ++
              "offset 0); crown succeeded"),
            Text.ofString "CROWN ROM has 1 trailing bytes"]) ∧
        RecordOf .crown (crownWire ownedStaker 1700000000 ++ [0]) ⟨some "SOUL", none⟩ d ∧
        ShowsCrown ownedStaker.data 1700000000 d.toJson := by
  have short : ownedStaker.data.length ≤ 2048 := by decide
  have long : 8 < ownedStaker.data.length := by decide
  have notes : symbolNotes .auto (some "soul") ownedStaker ++ crownNotes ownedStaker.data [0] =
      [Text.ofString ("auto parser fallback: legacy failed (unsupported VM type 34 at " ++
          "offset 0); crown succeeded"),
        Text.ofString "CROWN ROM has 1 trailing bytes"] := by decide +kernel
  have normal : Hints.normal ⟨some "soul", none⟩ = ⟨some "SOUL", none⟩ := by decide +kernel
  have found := crown_data_is_read_back ownedStaker 1700000000 [0] .auto ⟨some "soul", none⟩ short
    (Or.inr ⟨rfl, long⟩)
  rw [notes, normal] at found
  exact ⟨short, long, found⟩

end Rom

end ChainDecode
