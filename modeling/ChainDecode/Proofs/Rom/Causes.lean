import ChainDecode.Proofs.Number.Numeral
import ChainDecode.Proofs.Rom.Folding
import ChainDecode.Proofs.Rom.RoundTrip
import ChainDecode.Rom.Decode

/-! # Causes with which token data is refused

Whatever the bytes, both parsers stop with causes in the bytes. The one exception is a time of
creation that is a text of digits and no numeral, and it is told here exactly when one is met.
-/
namespace ChainDecode.Rom

variable {α : Type}

/-- A decode stops with a cause that does not lie in the bytes, so that nothing catches it. -/
def Escapes (x : Except Fault α) : Prop := ∃ f, x = .error f ∧ ¬ InBytes f

theorem struct_stops {label : Text} {inner : Read Node} (h : StopsOnly InBytes inner) :
    StopsOnly InBytes (Node.readStruct label inner) := by
  have entry : StopsOnly InBytes (Node.readEntry inner) :=
    .bind h fun _ => .bind h fun _ => .pure _
  exact .bind (.varint _ StopsOnly.varintMax_short) fun _ => .bind .remaining fun _ =>
    .ite (.throw rfl) (.bind (.times entry _) fun _ => .pure _)

theorem typed_stops {label : Text} {inner : Read Node} (h : StopsOnly InBytes inner)
    (offset type : Nat) : StopsOnly InBytes (Node.readOfType label inner offset type) := by
  unfold Node.readOfType
  split
  · exact .pure _
  · exact struct_stops h
  · exact .bind (.bufferArray _ StopsOnly.varintMax_short) fun _ => .pure _
  · exact .bind (.bigInteger _) fun _ => .pure _
  · exact .bind (.bufferText _) fun _ => .pure _
  · exact .bind (.bufferWord _ 4) fun _ => .pure _
  · exact .bind (.bufferWord _ 1) fun _ => .pure _
  · exact .bind (.varint _ StopsOnly.varintMax_short) fun _ => .pure _
  · exact .bind (.bufferArray _ StopsOnly.varintMax_short) fun _ => .pure _
  · exact .throw rfl

theorem node_stops (label : Text) (levels : Nat) :
    StopsOnly InBytes (Node.read label levels) := by
  induction levels with
  | zero => exact .throw rfl
  | succ levels ih =>
    exact .bind .position fun offset => .bind (.bufferWord _ 1) fun type =>
      typed_stops ih offset type

theorem crown_stops : StopsOnly InBytes readCrown :=
  .bind (.varint _ (Number.word_short (by decide))) fun n => .bind (.buffer_take _ n) fun _ =>
    .bind (.bufferWord _ 4) fun _ => .pure _

theorem crown_time : Yields (fun found => found.2 < Number.wordSpan 4) readCrown :=
  .after fun _ => .after fun _ => .bind (.bufferWord _ 4) fun _ small => .pure small

theorem objectJson_ne_int (data : List UInt8) (n : Int) : Node.objectJson data ≠ .int n := by
  unfold Node.objectJson
  dsimp only
  split
  · split
    · split <;> nofun
    · nofun
  · nofun

def Node.Short (node : Node) : Prop := ∀ n, node.valueJson = .int n → ¬ Number.IsLong n

theorem word_node_short {n : Nat} {node : Node} (shown : node.valueJson = .nat n)
    (small : n < Number.wordSpan 8) : node.Short := by
  intro m same
  rw [shown] at same
  cases same
  exact Number.word_short small

/-- Only times and members of enumerations are shown as numbers, and both fit into eight bytes. -/
theorem node_short (label : Text) (levels : Nat) : Yields Node.Short (Node.read label levels) := by
  cases levels with
  | zero => exact .throw _
  | succ levels =>
    refine .after fun offset => .after fun type => ?_
    unfold Node.readOfType
    split
    · exact .pure nofun
    · refine .after fun n => .after fun remaining => .ite (.throw _) (.after fun entries => ?_)
      refine .pure fun n shown => ?_
      rw [Node.shown_inside] at shown
      split at shown <;> cases shown
    · exact .after fun _ => .pure nofun
    · exact .after fun _ => .pure nofun
    · exact .after fun _ => .pure nofun
    · exact .bind (.bufferWord _ 4) fun n small =>
        .pure (word_node_short rfl (Nat.lt_trans small (by decide)))
    · exact .after fun _ => .pure nofun
    · exact .bind (.varint _ _) fun n small => .pure (word_node_short rfl small)
    · exact .after fun data => .pure fun n shown => absurd shown (objectJson_ne_int data n)
    · exact .throw _

theorem isoTime_cause {seconds : Int} {f : Fault} (h : Number.isoTime seconds = .error f) :
    InBytesOrLong seconds f := by
  unfold Number.isoTime at h
  cases text : Number.isoText? seconds with
  | some s =>
    rw [text] at h
    cases h
  | none =>
    rw [text] at h
    exact Except.error.inj h ▸ naming_inBytesOrLong rfl

theorem isoTime_word {n : Nat} (h : n < Number.wordSpan 4) : ∃ s, Number.isoTime n = .ok s := by
  change n < 0x100000000 at h
  have inside : ¬ ((n : Int) < Number.firstSecond ∨ Number.lastSecond < (n : Int)) := by
    simp only [Number.firstSecond, Number.lastSecond]
    omega
  simp only [Number.isoTime, Number.isoText?, Bool.or_eq_true, decide_eq_true_eq, if_neg inside]
  exact ⟨_, rfl⟩

theorem createdOf_error {fields : List (Text × Json)} {f : Fault} :
    createdOf fields = .error f ↔ ∃ s, Json.field? fields "created" = some (.str s) ∧
      Text.isDigits s = true ∧ Number.ofNumeral s = .error f := by
  unfold createdOf
  cases found : Json.field? fields "created" with
  | none => simp
  | some v =>
    cases v with
    | str s =>
      by_cases digits : Text.isDigits s = true
      · simp [digits, except_map_error]
      · simp [digits]
    | _ => simp

theorem field_short {root : Node} {label : Text} {levels : Nat} {name : Text} {n : Int}
    (read : Node.ReadAt label levels root)
    (field : Json.field? (root.fields?.getD []) name = some (.int n)) : ¬ Number.IsLong n := by
  cases root with
  | struct entries =>
    cases record : (Node.struct entries).fields? with
    | none =>
      rw [record] at field
      cases field
    | some fields =>
      rw [record] at field
      obtain ⟨e, member, -, shown⟩ := (Node.fields_eq_some.mp record).of_field? field
      obtain ⟨fewer, -, c, d, inner⟩ :=
        Node.readAt_down read ⟨entries, rfl, e, member, Or.inr rfl⟩
      exact node_short label fewer c e.2 d inner n shown
  | _ => cases field

theorem createdOf_short {root : Node} {label : Text} {levels : Nat} {unix : Nat}
    (read : Node.ReadAt label levels root)
    (found : createdOf (root.fields?.getD []) = .ok (some unix)) : ¬ Number.IsLong unix := by
  unfold createdOf at found
  cases field : Json.field? (root.fields?.getD []) "created" with
  | none =>
    rw [field] at found
    cases found
  | some v =>
    rw [field] at found
    cases v with
    | int m =>
      dsimp only at found
      split at found
      · cases found
        rw [Int.toNat_of_nonneg ‹_›]
        exact field_short read field
      · cases found
    | str s =>
      dsimp only at found
      split at found
      · rename_i digits
        obtain ⟨m, numeral, same⟩ := except_map_ok.mp found
        have short := Number.ofNumeral_short digits numeral
        obtain ⟨k, rfl, -⟩ := Number.decimal_of_ofNumeral digits numeral
        cases same
        exact short
      · cases found
    | _ => cases found

/-- The record of the root shows a text as the time of creation. -/
def CreatedText (data : List UInt8) (s : Text) : Prop :=
  ∃ root cursor fields,
    (Node.read treeLabel (Node.levelsFrom 0)).onBytes data = .ok (root, cursor) ∧
      root.fields? = some fields ∧ Json.field? fields "created" = some (.str s)

theorem fields_struct {root : Node} {fields : List (Text × Json)}
    (h : root.fields? = some fields) : root.type = .struct := by
  cases root with
  | struct entries => rfl
  | _ => cases h

theorem decodeTree_read {data : List UInt8} {root : Node} {cursor : Cursor} {f : Fault}
    (hints : Hints)
    (read : (Node.read treeLabel (Node.levelsFrom 0)).onBytes data = .ok (root, cursor)) :
    decodeTree data hints = .error f ↔
      if root.type = .struct then
        createdOf (root.fields?.getD []) = .error f ∨
          ∃ unix, createdOf (root.fields?.getD []) = .ok (some unix) ∧
            Number.isoTime unix = .error f
      else f = .rootType root.type.name := by
  unfold decodeTree
  rw [read]
  by_cases struct : root.type = .struct
  · rw [if_pos struct]
    cases created : createdOf (root.fields?.getD []) with
    | error g => simp [bind, Except.bind, struct, created]
    | ok time =>
      cases time with
      | none => simp [bind, Except.bind, struct, created, pure, Except.pure]
      | some unix =>
        cases iso : Number.isoTime unix with
        | ok s => simp [bind, Except.bind, struct, created, iso, pure, Except.pure]
        | error g => simp [bind, Except.bind, struct, created, iso]
  · rw [if_neg struct]
    simp [bind, Except.bind, struct, throw, throwThe, MonadExceptOf.throw, eq_comm]

theorem decodeTree_escapes {data : List UInt8} (hints : Hints) :
    Escapes (decodeTree data hints) ↔ ∃ s, CreatedText data s ∧ Number.Unreadable s := by
  constructor
  · rintro ⟨f, stop, outside⟩
    cases read : (Node.read treeLabel (Node.levelsFrom 0)).onBytes data with
    | error g =>
      unfold decodeTree at stop
      rw [read] at stop
      cases stop
      exact absurd ((node_stops _ _).onBytes read) outside
    | ok found =>
      obtain ⟨root, cursor⟩ := found
      rw [decodeTree_read hints read] at stop
      by_cases struct : root.type = .struct
      · rw [if_pos struct] at stop
        rcases stop with created | ⟨_, time, late⟩
        · obtain ⟨s, field, digits, numeral⟩ := createdOf_error.mp created
          cases fields : root.fields? with
          | none =>
            rw [fields] at field
            cases field
          | some members =>
            rw [fields] at field
            exact ⟨s, ⟨root, cursor, members, read, fields, field⟩,
              (Number.ofNumeral_error_iff digits).mp ⟨f, numeral⟩⟩
        · rcases isoTime_cause late with inside | ⟨-, long⟩
          · exact absurd inside outside
          · exact absurd long (createdOf_short ⟨_, _, of_onBytes_ok read⟩ time)
      · rw [if_neg struct] at stop
        subst stop
        exact absurd rfl outside
  · rintro ⟨s, ⟨root, cursor, fields, read, record, field⟩, unreadable⟩
    obtain ⟨f, numeral⟩ := (Number.ofNumeral_error_iff unreadable.1).mpr unreadable
    refine ⟨f, ?_, ?_⟩
    · rw [decodeTree_read hints read, if_pos (fields_struct record), record]
      exact Or.inl (createdOf_error.mpr ⟨s, field, unreadable.1, numeral⟩)
    · have value := Number.ofNumeral_cause numeral
      simp [InBytes, Fault.isDecode, value]

theorem decodeCrown_error {data : List UInt8} {hints : Hints} {f : Fault} :
    decodeCrown data hints = .error f ↔ readCrown.onBytes data = .error f := by
  unfold decodeCrown
  cases read : readCrown.onBytes data with
  | error g => simp [bind, Except.bind]
  | ok found =>
    obtain ⟨⟨staker, seconds⟩, cursor⟩ := found
    have small : seconds < Number.wordSpan 4 := crown_time.onBytes read
    obtain ⟨iso, written⟩ := isoTime_word small
    simp [bind, Except.bind, written, pure, Except.pure]

theorem decodeCrown_cause {data : List UInt8} {hints : Hints} {f : Fault}
    (h : decodeCrown data hints = .error f) : InBytes f :=
  crown_stops.onBytes (decodeCrown_error.mp h)

theorem decodeCrown_returns {data : List UInt8} {hints : Hints} :
    ¬ Escapes (decodeCrown data hints) := by
  rintro ⟨f, stop, outside⟩
  exact outside (decodeCrown_cause stop)

/-- The parser of trees has its turn: it is the first, or the second when the other one fails. -/
def TreeTried (data : List UInt8) (mode : Mode) (symbol : Option Text) : Prop :=
  mode.primary symbol = .tree ∨ mode = .auto ∧ ∃ f, readCrown.onBytes data = .error f

theorem decodeFallback_escapes {first : Parser} {cause : Fault} {data : List UInt8}
    {hints : Hints} : Escapes (decodeFallback first cause data hints) ↔
      Escapes (first.other.decode data hints) := by
  unfold decodeFallback
  cases first.other.decode data hints with
  | ok found => simp [Escapes, bind, Except.bind, pure, Except.pure]
  | error f => simp [Escapes, bind, Except.bind]

theorem not_escapes_ok (a : α) : ¬ Escapes (.ok a : Except Fault α) := by
  rintro ⟨f, stop, _⟩
  cases stop

theorem not_escapes_error {f : Fault} (h : InBytes f) :
    ¬ Escapes (.error f : Except Fault α) := by
  rintro ⟨_, stop, outside⟩
  cases stop
  exact outside h

/-- A first parser that is not stopped by the bytes decides; otherwise the mode does. -/
theorem decode_first {data : List UInt8} {mode : Mode} {hints : Hints} {first : Parser}
    {result : Except Fault (Decoded × List Text)}
    (chosen : mode.primary hints.normal.symbol = first)
    (decoded : first.decode data hints.normal = result) :
    Escapes (decode data mode hints) ↔
      Escapes result ∨ mode = .auto ∧ (∃ f, result = .error f ∧ InBytes f) ∧
        Escapes (first.other.decode data hints.normal) := by
  unfold decode
  dsimp only
  rw [chosen, decoded]
  cases result with
  | ok found => simp [not_escapes_ok]
  | error f =>
    by_cases inside : InBytes f
    · have reported : (!f.isDecode) = false := by simpa [InBytes] using inside
      dsimp only
      rw [reported]
      cases mode with
      | auto => simp [decodeFallback_escapes, not_escapes_error inside, inside]
      | forced parser =>
        have named : InBytes (.romParser first.name f) := rfl
        simp [not_escapes_error inside, not_escapes_error named]
    · have unreported : (!f.isDecode) = true := by simpa [InBytes] using inside
      dsimp only
      rw [unreported]
      simp [Escapes, inside]

/-- Decoding stops with a cause in the bytes or not at all, but where the parser of trees has its
turn and the root shows a time of creation that is a text of digits and no numeral. -/
theorem decode_escapes_iff (data : List UInt8) (mode : Mode) (hints : Hints) :
    Escapes (decode data mode hints) ↔
      TreeTried data mode hints.normal.symbol ∧ ∃ s, CreatedText data s ∧ Number.Unreadable s := by
  rw [← decodeTree_escapes hints.normal, TreeTried]
  cases chosen : mode.primary hints.normal.symbol with
  | tree =>
    rw [decode_first chosen rfl]
    simp [Parser.decode, Parser.other, decodeCrown_returns]
  | crown =>
    rw [decode_first chosen rfl]
    have refused : (∃ f, decodeCrown data hints.normal = .error f ∧ InBytes f) ↔
        ∃ f, readCrown.onBytes data = .error f := by
      constructor
      · rintro ⟨f, stop, _⟩
        exact ⟨f, decodeCrown_error.mp stop⟩
      · rintro ⟨f, stop⟩
        exact ⟨f, decodeCrown_error.mpr stop, crown_stops.onBytes stop⟩
    simp [Parser.decode, Parser.other, decodeCrown_returns, refused, and_assoc]

def singleRecord (key value : SizedText) : Tree :=
  .struct (.byte 1 one_unmarked) (fun _ => .text key) fun _ => .text value

def superscriptTwo : Tree :=
  singleRecord ⟨.byte 7 (by decide), "created", by decide +kernel⟩
    ⟨.byte 2 (by decide), "²", by decide +kernel⟩

/-- A superscript is a digit, but it has no decimal value. -/
theorem decode_superscriptTwo :
    decode superscriptTwo.wire .auto ⟨none, none⟩ = .error (.badNumeral "²") ∧
      ¬ InBytes (.badNumeral "²") := by
  have shallow : superscriptTwo.height < 129 := by decide
  have read := (superscriptTwo.reads treeLabel shallow).onBytes []
  rw [List.append_nil] at read
  have field : Json.field? (superscriptTwo.node.fields?.getD []) "created" = some (.str "²") := rfl
  have numeral : Number.ofNumeral "²" = .error (.badNumeral "²") := rfl
  have stop : decodeTree superscriptTwo.wire ⟨none, none⟩ = .error (.badNumeral "²") := by
    rw [decodeTree_read _ read, if_pos (fields_struct rfl)]
    exact Or.inl (createdOf_error.mpr ⟨"²", field, by decide +kernel, numeral⟩)
  have chosen : Mode.primary .auto (Hints.normal ⟨none, none⟩).symbol = .tree := by decide +kernel
  have first : Parser.tree.decode superscriptTwo.wire (Hints.normal ⟨none, none⟩) =
      .error (.badNumeral "²") := stop
  refine ⟨?_, by decide⟩
  unfold decode
  dsimp only
  rw [chosen, first]
  rfl

end ChainDecode.Rom
