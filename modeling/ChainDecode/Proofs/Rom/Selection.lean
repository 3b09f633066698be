import ChainDecode.Proofs.Rom.Causes
import ChainDecode.Proofs.Text.Capitals

/-! # Choosing a parser

A forced parser stands alone. The automatic choice takes the first parser that reads the data, and
says so in one note when that is not the one the symbol asks for. Nothing of a failed attempt but
its message is kept: what is returned is the record of one parser for the bytes and the hints.
-/
namespace ChainDecode.Rom

theorem ofSymbol_normal (hints : Hints) :
    Parser.ofSymbol hints.normal.symbol = Parser.ofSymbol hints.symbol := by
  have blank : Text.upper (Text.strip "") = "" := by decide +kernel
  unfold Parser.ofSymbol Hints.normal
  cases symbol : hints.symbol with
  | none => rfl
  | some s =>
    cases empty : s.strip.isEmpty with
    | true =>
      have none : s.strip = "" := congrArg Text.mk (List.isEmpty_iff.mp empty)
      simp [Option.filter, none, blank, Text.isEmpty]
      decide +kernel
    | false => simp [Option.filter, empty, Text.upper_strip_upper_strip]

theorem field?_member_same (key : Text) (value : Json) (rest : List (Text × Json)) :
    Json.field? (Json.member key value ++ rest) key = some value := by
  simp [Json.field?, Json.member]

theorem field?_member_other {key other : Text} (h : key ≠ other) (value : Json)
    (rest : List (Text × Json)) :
    Json.field? (Json.member other value ++ rest) key = Json.field? rest key := by
  simp [Json.field?, Json.member, List.lookup_cons, beq_eq_false_iff_ne.mpr h]

theorem field?_member?_other {key other : Text} (h : key ≠ other) (value : Option Json)
    (rest : List (Text × Json)) :
    Json.field? (Json.member? other value ++ rest) key = Json.field? rest key := by
  cases value with
  | none => rfl
  | some v => exact field?_member_other h v rest

theorem field?_member?_same {key : Text} {rest : List (Text × Json)}
    (absent : Json.field? rest key = none) (value : Option Json) :
    Json.field? (Json.member? key value ++ rest) key = value := by
  cases value with
  | none => exact absent
  | some v => exact field?_member_same key v rest

theorem shown_created (d : Decoded) :
    d.toJson.get? "created_unix" = d.created.map (fun time => .nat time.1) ∧
      d.toJson.get? "created_iso" = d.created.map fun time => .str time.2 := by
  have behind : ∀ key ∈ (["created_unix", "created_iso"] : List Text),
      Json.field? (d.content.fieldMembers ++ d.content.members) key = none := by
    intro key member
    have other : key ≠ "fields" ∧ key ≠ "vm" ∧ key ≠ "crown" := by
      revert key
      decide
    cases d.content with
    | tree root =>
      rw [Content.fieldMembers, field?_member?_other other.1]
      exact field?_member_other other.2.1 _ []
    | crown record => exact field?_member_other other.2.2 record.toJson []
  have unix := behind "created_unix" (by decide)
  have iso := behind "created_iso" (by decide)
  constructor
  · simp (disch := decide) only [Decoded.toJson, Json.get?, List.append_assoc, field?_member_other,
      field?_member?_other]
    exact field?_member?_same (by rw [field?_member?_other (by decide), unix]) _
  · simp (disch := decide) only [Decoded.toJson, Json.get?, List.append_assoc, field?_member_other,
      field?_member?_other]
    exact field?_member?_same iso _

/-- The name of a parser in the records that it makes. -/
def Parser.tag : Parser → String
  | .tree => "legacy-vm-dictionary"
  | .crown => "crown"

/-- A record that one parser alone has made of the bytes and of the hints. -/
structure RecordOf (parser : Parser) (data : List UInt8) (hints : Hints) (d : Decoded) : Prop where
  own : ∃ notes, parser.decode data hints = .ok (d, notes)
  raw : d.toJson.get? "raw_hex" = some (.str (Text.Hex.encode data))
  tagged : d.toJson.get? "parser" = some (.str parser.tag)
  tree : (d.toJson.get? "vm").isSome ↔ parser = .tree
  crown : (d.toJson.get? "crown").isSome ↔ parser = .crown
  fields : parser = .crown → d.toJson.get? "fields" = none

theorem decodeTree_made {data : List UInt8} {hints : Hints} {d : Decoded} {notes : List Text}
    (read : decodeTree data hints = .ok (d, notes)) :
    d.data = data ∧ ∃ root, d.content = .tree root := by
  unfold decodeTree at read
  obtain ⟨⟨root, cursor⟩, -, read⟩ := except_bind_ok.mp read
  dsimp only at read
  split at read
  · cases read
  obtain ⟨time, -, read⟩ := except_bind_ok.mp read
  cases time with
  | none =>
    cases read
    exact ⟨rfl, root, rfl⟩
  | some unix =>
    obtain ⟨iso, -, read⟩ := except_bind_ok.mp read
    cases read
    exact ⟨rfl, root, rfl⟩

theorem decodeCrown_made {data : List UInt8} {hints : Hints} {d : Decoded} {notes : List Text}
    (read : decodeCrown data hints = .ok (d, notes)) :
    d.data = data ∧ ∃ record, d.content = .crown record := by
  unfold decodeCrown at read
  obtain ⟨⟨⟨staker, seconds⟩, cursor⟩, -, read⟩ := except_bind_ok.mp read
  obtain ⟨iso, -, read⟩ := except_bind_ok.mp read
  cases read
  exact ⟨rfl, _, rfl⟩

theorem recordOf_made {parser : Parser} {data : List UInt8} {hints : Hints} {d : Decoded}
    {notes : List Text} (read : parser.decode data hints = .ok (d, notes)) :
    RecordOf parser data hints d := by
  have raw : d.toJson.get? "raw_hex" = some (.str (Text.Hex.encode d.data)) := by
    simp (disch := decide) only [Decoded.toJson, Json.get?, List.append_assoc, field?_member_same,
      field?_member_other]
  have tag : d.toJson.get? "parser" = some (.str d.content.parserName) := by
    simp only [Decoded.toJson, Json.get?, List.append_assoc, field?_member_same]
  -- What stands behind the hints and the names is the content's own.
  have own : ∀ key : Text, key ∉ (["parser", "raw_hex", "symbol", "token_id", "name",
      "description", "created_unix", "created_iso"] : List Text) →
      d.toJson.get? key = Json.field? (d.content.fieldMembers ++ d.content.members) key := by
    intro key other
    simp only [List.mem_cons, List.not_mem_nil, or_false, not_or] at other
    obtain ⟨h1, h2, h3, h4, h5, h6, h7, h8⟩ := other
    simp only [Decoded.toJson, Json.get?, List.append_assoc, field?_member_other h1,
      field?_member_other h2, field?_member?_other h3, field?_member?_other h4,
      field?_member?_other h5, field?_member?_other h6, field?_member?_other h7,
      field?_member?_other h8]
  have vm := own "vm" (by decide)
  have crown := own "crown" (by decide)
  have fields := own "fields" (by decide)
  cases parser with
  | tree =>
    obtain ⟨same, root, content⟩ := decodeTree_made read
    rw [content] at vm crown tag
    have present : (d.toJson.get? "vm").isSome = true := by
      rw [vm, Content.fieldMembers, field?_member?_other (by decide)]
      rfl
    have absent : d.toJson.get? "crown" = none := by
      rw [crown, Content.fieldMembers, field?_member?_other (by decide)]
      exact field?_member_other (by decide) (.obj [("root", root.toJson)]) []
    refine ⟨⟨notes, read⟩, same ▸ raw, tag, ?_, ?_, fun other => ?_⟩
    · simp [present]
    · simp [absent]
    · cases other
  | crown =>
    obtain ⟨same, record, content⟩ := decodeCrown_made read
    rw [content] at vm crown fields tag
    have absent : d.toJson.get? "vm" = none :=
      vm.trans (field?_member_other (by decide) record.toJson [])
    have present : d.toJson.get? "crown" = some record.toJson :=
      crown.trans (field?_member_same "crown" record.toJson [])
    have alone : d.toJson.get? "fields" = none :=
      fields.trans (field?_member_other (by decide) record.toJson [])
    refine ⟨⟨notes, read⟩, same ▸ raw, tag, ?_, ?_, fun _ => alone⟩
    · simp [absent]
    · simp [present]

inductive Forced (parser : Parser) (data : List UInt8) (hints : Hints) :
    Except Fault (Decoded × List Text) → Prop
  | read {found} (own : parser.decode data hints = .ok found) :
      Forced parser data hints (.ok found)
  | refused {f g} (own : parser.decode data hints = .error f) (kind : g.kind = .format)
      (message : g.message = (parser.name : Text) ++ " ROM decode failed: " ++ f.message) :
      Forced parser data hints (.error g)

def fallbackNote (first : Parser) (cause : Fault) : Text :=
  "auto parser fallback: " ++ (first.name : Text) ++ " failed (" ++ cause.message ++ "); " ++
    (first.other.name : Text) ++ " succeeded"

/-- What the automatic choice makes of data: the result of the first parser, or else that of the
other one behind a note, or else the other one's cause. -/
inductive Automatic (first : Parser) (data : List UInt8) (hints : Hints) :
    Except Fault (Decoded × List Text) → Prop
  | first {found} (own : first.decode data hints = .ok found) :
      Automatic first data hints (.ok found)
  | other {f d notes} (failed : first.decode data hints = .error f)
      (own : first.other.decode data hints = .ok (d, notes)) :
      Automatic first data hints (.ok (d, fallbackNote first f :: notes))
  | neither {f g} (failed : first.decode data hints = .error f)
      (own : first.other.decode data hints = .error g) : Automatic first data hints (.error g)

/-- How a text names a mode. -/
structure Spells (text : Text) (mode : Mode) : Prop where
  auto : mode = .auto ↔ Text.lower text.strip = "auto"
  tree : mode = .forced .tree ↔ Text.lower text.strip = "legacy" ∨ Text.lower text.strip = "common"
  crown : mode = .forced .crown ↔ Text.lower text.strip = "crown"

theorem ofText_spells {text : Text} {mode : Mode} (accepted : Mode.ofText text = .ok mode) :
    Spells text mode := by
  unfold Mode.ofText at accepted
  dsimp only at accepted
  split at accepted
  · rename_i word
    cases accepted
    constructor <;> simp [word] <;> decide
  split at accepted
  · rename_i word
    cases accepted
    simp only [Bool.or_eq_true, decide_eq_true_eq] at word
    constructor
    · rcases word with word | word <;> simp [word] <;> decide
    · simpa using word
    · rcases word with word | word <;> simp [word] <;> decide
  split at accepted
  · rename_i word
    cases accepted
    constructor <;> simp [word] <;> decide
  · cases accepted

section Decode

variable {data : List UInt8} {mode : Mode} {hints : Hints}

theorem inBytes_of_tame {parser : Parser} {f : Fault}
    (tame : ¬ Escapes (parser.decode data hints)) (stop : parser.decode data hints = .error f) :
    f.isDecode = true := by
  by_contra outside
  exact tame ⟨f, stop, outside⟩

theorem decodeFallback_eq (first : Parser) (cause : Fault) (data : List UInt8) (hints : Hints) :
    decodeFallback first cause data hints =
      (first.other.decode data hints).map fun found =>
        (found.1, fallbackNote first cause :: found.2) := by
  have front : Text.ofString (s!"auto parser fallback: {first.name} failed (") =
      Text.ofString "auto parser fallback: " ++ Text.ofString first.name ++ " failed (" := by
    rw [← Text.ofString_append, ← Text.ofString_append]
    rfl
  have back : Text.ofString (s!"{first.other.name} succeeded") =
      Text.ofString first.other.name ++ " succeeded" := by
    rw [← Text.ofString_append]
    rfl
  unfold decodeFallback fallbackNote
  rw [front, back, ← Text.append_assoc]
  cases first.other.decode data hints <;> rfl

theorem decode_forced {parser : Parser} (tame : ¬ Escapes (parser.decode data hints.normal)) :
    Forced parser data hints.normal (decode data (.forced parser) hints) := by
  unfold decode
  dsimp only [Mode.primary]
  cases own : parser.decode data hints.normal with
  | ok found => exact .read own
  | error f =>
    have inside := inBytes_of_tame tame own
    simp only [inside, Bool.not_true, Bool.false_eq_true, if_false]
    exact .refused own rfl (by cases parser <;> rfl)

theorem decode_auto (tame : ∀ parser : Parser, ¬ Escapes (parser.decode data hints.normal)) :
    Automatic (.ofSymbol hints.symbol) data hints.normal (decode data .auto hints) := by
  unfold decode
  dsimp only [Mode.primary]
  rw [ofSymbol_normal]
  generalize Parser.ofSymbol hints.symbol = first
  cases failed : first.decode data hints.normal with
  | ok found => exact .first failed
  | error f =>
    have inside := inBytes_of_tame (tame first) failed
    simp only [inside, Bool.not_true, Bool.false_eq_true, if_false, decodeFallback_eq]
    cases own : first.other.decode data hints.normal with
    | ok found => exact .other failed own
    | error g => exact .neither failed own

theorem decode_record {d : Decoded} {notes : List Text}
    (returned : decode data mode hints = .ok (d, notes)) :
    ∃ parser, RecordOf parser data hints.normal d := by
  unfold decode at returned
  dsimp only at returned
  split at returned
  · rename_i found own
    cases returned
    exact ⟨_, recordOf_made own⟩
  split at returned
  · cases returned
  split at returned
  · cases returned
  · obtain ⟨⟨d, notes⟩, own, returned⟩ := except_bind_ok.mp returned
    cases returned
    exact ⟨_, recordOf_made own⟩

end Decode

/-- What the decode of token data does in the mode that a text names. -/
structure Selection (text : Text) (mode : Mode) (data : List UInt8) (hints : Hints) : Prop where
  spelled : Spells text mode
  forced : ∀ parser, mode = .forced parser →
    Forced parser data hints.normal (decode data mode hints)
  -- The parser of CROWN tokens comes first exactly if that is the symbol.
  auto : mode = .auto → ∃ first : Parser,
    (first = .crown ↔ Text.upper (Text.strip (hints.symbol.getD "")) = "CROWN") ∧
      Automatic first data hints.normal (decode data mode hints)
  record : ∀ d notes, decode data mode hints = .ok (d, notes) →
    ∃ parser, RecordOf parser data hints.normal d

/-- Modes select a parser, and at most one other parser is tried, for all data and hints by which
no parser is stopped with a cause outside the bytes. -/
theorem parser_is_selected_by_mode (text : Text) (mode : Mode) (data : List UInt8) (hints : Hints)
    (accepted : Mode.ofText text = .ok mode)
    (tame : ∀ parser : Parser, ¬ Escapes (parser.decode data hints.normal)) :
    Selection text mode data hints := by
  refine ⟨ofText_spells accepted, ?_, ?_, fun d notes returned => decode_record returned⟩
  · rintro parser rfl
    exact decode_forced (tame parser)
  · rintro rfl
    refine ⟨_, ?_, decode_auto tame⟩
    unfold Parser.ofSymbol
    split <;> simp [*]

/-- Data that is no tree is read as the data of a CROWN token, although the symbol is another. -/
theorem auto_reads_what_is_no_tree :
    Mode.ofText " Auto\n" = .ok .auto ∧
      (∀ parser : Parser, ¬ Escapes (parser.decode [0, 0, 0, 0, 0] ⟨none, none⟩)) ∧
      decodeTree [0, 0, 0, 0, 0] ⟨none, none⟩ = .error (.rootType "None") ∧
      Selection " Auto\n" .auto [0, 0, 0, 0, 0] ⟨none, none⟩ := by
  have accepted : Mode.ofText " Auto\n" = .ok .auto := by decide +kernel
  have refused : decodeTree [0, 0, 0, 0, 0] ⟨none, none⟩ = .error (.rootType "None") := rfl
  have tame : ∀ parser : Parser, ¬ Escapes (parser.decode [0, 0, 0, 0, 0] ⟨none, none⟩) := by
    rintro (_ | _)
    · rw [Parser.decode, refused]
      exact not_escapes_error rfl
    · exact decodeCrown_returns
  exact ⟨accepted, tame, refused, parser_is_selected_by_mode _ _ _ _ accepted tame⟩

end ChainDecode.Rom
