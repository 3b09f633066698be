import ChainDecode.Proofs.Carbon.Advancing
import ChainDecode.Proofs.Carbon.ArgumentPrefix

/-! # Arguments that are cut off

An optional argument is missing when its stream ends inside it. What was read of it before is not
given back and what its calls warned of is not taken back, so the list is quiet about it only if
neither bytes nor warnings are left.
-/
namespace ChainDecode.Carbon

section Cut

variable {read : ArgType → ArgRead Value} (adds : ∀ type, AddsWarnings (read type))
  {c place stop : Cursor}
include adds

theorem ReadInOrder.decode_rest {kept : List ArgDef} {arguments : List CallArgument}
    {early : List Text} (order : ReadInOrder read c kept arguments early place) (method : String)
    (rest : List ArgDef) (before : List Text) :
    decodeArgsFrom read method (kept ++ rest) ⟨c, before⟩ =
      (arguments ++ (decodeArgsFrom read method rest ⟨place, before ++ early⟩).1,
        (decodeArgsFrom read method rest ⟨place, before ++ early⟩).2) := by
  induction order generalizing before with
  | none c => simp
  | @next c d e arg args v arguments early late first _ ih =>
    have here := adds arg.type c before
    rw [first] at here
    simp only [List.cons_append, decodeArgsFrom, here, warnedBefore, ih, List.append_assoc]

theorem decodeArgsFrom_cut {arg : ArgDef} {f : Fault} {own : List Text}
    (cut : read arg.type ⟨place, []⟩ = .error f ⟨stop, own⟩) (missing : arg.isOptional = true)
    (ends : EndsStream f) (method : String) (left : List ArgDef) (before : List Text) :
    decodeArgsFrom read method (arg :: left) ⟨place, before⟩ =
      ([], before ++ (own ++ trailingWarning stop.remaining)) := by
  have here := adds arg.type place before
  have quiet : (arg.isOptional && f.isEndOfStream) = true := by
    rw [missing, ends]
    rfl
  rw [cut] at here
  simp only [decodeArgsFrom, here, warnedBefore, quiet, if_true, List.append_assoc]

end Cut

def Silent {α : Type} (r : ArgRead α) : Prop := ∀ s, (finalState r s).warnings = s.warnings

namespace Silent

variable {α β : Type}

theorem pure (a : α) : Silent (pure a) := fun _ => rfl

theorem throw (f : Fault) : Silent (throw f : ArgRead α) := fun _ => rfl

theorem bind {r : ArgRead α} {k : α → ArgRead β} (h : Silent r) (next : ∀ a, Silent (k a)) :
    Silent (r >>= k) := by
  intro s
  have first := h s
  cases result : r s with
  | ok a t =>
    rw [finalState_ok result] at first
    rw [finalState_bind result]
    exact (next a t).trans first
  | error f t =>
    rw [finalState_error result] at first
    rwa [finalState_error (bind_error result)]

theorem lift (r : Read α) : Silent (ArgRead.lift r) := by
  intro s
  cases read : r s.cursor with
  | ok a c => rw [finalState_ok (lift_ok read)]
  | error f c => rw [finalState_error (lift_error read)]

theorem times {r : ArgRead α} (h : Silent r) (n : Nat) : Silent (times r n) := by
  induction n with
  | zero => exact pure []
  | succ n ih => exact bind h fun a => bind ih fun rest => pure (a :: rest)

theorem of_error {r : ArgRead α} (h : Silent r) {s t : ArgState} {f : Fault}
    (stop : r s = .error f t) : t.warnings = s.warnings := by
  have same := h s
  rwa [finalState_error stop] at same

end Silent

def ArgType.hasCalls : ArgType → Bool
  | .calls => true
  | .array item => item.hasCalls
  | _ => false

theorem argument_silent (levels : Nat) (type : ArgType) (none : type.hasCalls = false) :
    Silent (readArg levels type) := by
  -- Every type is read one level further down, so the levels carry the induction.
  induction levels generalizing type with
  | zero => exact .throw _
  | succ levels ih =>
    unfold readArg
    split
    · exact .lift _
    · exact .lift _
    · exact .lift _
    · exact .bind (.lift _) fun _ => .bind (.lift _) fun _ => .bind (.lift _) fun _ =>
        .bind (ih _ rfl) fun _ => .pure _
    · exact .bind (.lift _) fun _ => .bind (.lift _) fun _ => .bind (ih _ rfl) fun _ => .pure _
    · cases none
    · exact .lift _
    · rename_i item _
      have items : Silent (readArg levels item) := ih item none
      exact .bind (.lift _) fun n => .bind (.times items n) fun _ => .pure _
    · exact .throw _

theorem calls_stop_silently (levels : Nat) {s t : ArgState} {f : Fault}
    (stop : readArg levels .calls s = .error f t) : t.warnings = s.warnings := by
  cases levels with
  | zero =>
    cases stop
    rfl
  | succ levels =>
    rw [readArg] at stop
    rcases of_bind_error stop with bytes | ⟨raws, u, _, decode⟩
    · exact (of_lift_error bytes).2
    · have never : StopsOnly (fun _ => False)
          (readAllEmbedded (readArg levels) raws >>= fun vs => pure (Value.list vs)) :=
        .bind (embedded_stops _ raws) fun _ => .pure _
      exact (never u f t decode).elim

/-- Unless calls stand in the items of an array, an argument stops before any of its calls is
decoded. -/
theorem argument_stops_silently (levels : Nat) {type : ArgType}
    (alone : ∀ item, type = .array item → item.hasCalls = false) {s t : ArgState} {f : Fault}
    (stop : readArg levels type s = .error f t) : t.warnings = s.warnings := by
  by_cases calls : type = .calls
  · subst calls
    exact calls_stop_silently levels stop
  · have none : type.hasCalls = false := by
      cases type with
      | array item => exact alone item rfl
      | calls => exact absurd rfl calls
      | _ => rfl
    exact (argument_silent levels type none).of_error stop

theorem argument_stops_at_end (levels : Nat) (type : ArgType) {s t : ArgState} {f : Fault}
    (nothing : s.cursor.remaining = 0) (stop : readArg levels type s = .error f t) :
    t.warnings = s.warnings ∧ t.cursor.remaining = 0 := by
  constructor
  · cases type with
    | array item =>
      cases levels with
      | zero =>
        cases stop
        rfl
      | succ levels =>
        by_cases bytes : item = .plain .bytes
        · subst bytes
          exact (of_lift_error stop).2
        rw [readArg] at stop
        · rcases of_bind_error stop with first | ⟨n, u, first, _⟩
          · exact (of_lift_error first).2
          · have count : Takes 4 (readListCount .negativeArray) :=
              .before (.signed 4) fun _ => .ite (.throw _ 0) (.pure _)
            have taken := count _ _ _ (of_lift_ok first).1
            omega
        · exact bytes
    | _ =>
      refine argument_stops_silently levels (fun item same => ?_) stop
      cases same
  · obtain ⟨k, _, same⟩ := (argument_forward levels type).of_error stop
    rw [same, Cursor.remaining_advance]
    omega

theorem trailingWarning_eq_nil {remaining : Nat} :
    trailingWarning remaining = [] ↔ remaining = 0 := by
  unfold trailingWarning
  split <;> simp [*]

/-- A list that ends inside an optional argument keeps the arguments before it. Behind their
warnings stand those of the calls that were decoded inside the argument, and one of the bytes that
its reader left. So the list is quiet about it exactly if there are neither. Calls are decoded
before the end only if they stand in an array, and where the stream ends in front of the argument
there are neither. -/
theorem cut_tail_is_quiet_iff (depth : Int) (s : CallSignature) (blob : List UInt8)
    {kept left : List ArgDef} {arg : ArgDef} {arguments : List CallArgument}
    {early own : List Text} {place stop : Cursor} {f : Fault}
    (listed : s.args = kept ++ arg :: left)
    (order : ReadInOrder (readArg (levelsFrom depth)) (.start blob) kept arguments early place)
    (cut : readArg (levelsFrom depth) arg.type ⟨place, []⟩ = .error f ⟨stop, own⟩)
    (missing : arg.isOptional = true) (ends : f.TellsOfEnd) :
    decodeArgs (readArg (levelsFrom depth)) (some s) blob =
        (some arguments, early ++ (own ++ trailingWarning stop.remaining)) ∧
      ((decodeArgs (readArg (levelsFrom depth)) (some s) blob).2 = early ↔
        own = [] ∧ stop.remaining = 0) ∧
      ((∀ item, arg.type = .array item → item.hasCalls = false) → own = []) ∧
      (place.remaining = 0 → own = [] ∧ stop.remaining = 0) := by
  have ended : EndsStream f := (argument_tells _ _ _ _ _ cut).mpr ends
  have decoded : decodeArgs (readArg (levelsFrom depth)) (some s) blob =
      (some arguments, early ++ (own ++ trailingWarning stop.remaining)) := by
    rw [decodeArgs, listed, order.decode_rest (readArg_adds _),
      decodeArgsFrom_cut (readArg_adds _) cut missing ended]
    simp
  refine ⟨decoded, ?_, fun alone => argument_stops_silently _ alone cut,
    fun nothing => argument_stops_at_end _ _ nothing cut⟩
  rw [decoded]
  simp [trailingWarning_eq_nil]

/-- Two batches of calls, which may be missing, behind a number. -/
def settlement : CallSignature :=
  ⟨"Settle", [⟨"to", .plain .u8, false⟩, ⟨"batches", .array .calls, true⟩]⟩

/-- The first batch holds a call without argument bytes, and the second ends inside its count. -/
def cutBatches : List UInt8 :=
  [2, 0, 0, 0] ++ ([1, 0, 0, 0] ++ [0, 0, 0, 0, 1, 0, 0, 0, 0, 0, 0, 0]) ++ [0, 0]

/-- A call that was decoded before the end and the bytes of a count are both told of. -/
theorem cut_batches_are_told :
    ∃ f own,
      ReadInOrder (readArg (levelsFrom 0)) (.start (5 :: cutBatches)) [⟨"to", .plain .u8, false⟩]
        [⟨"to", "u8", .number 5⟩] [] ⟨1, cutBatches⟩ ∧
      readArg (levelsFrom 0) (.array .calls) ⟨⟨1, cutBatches⟩, []⟩ = .error f ⟨⟨21, [0, 0]⟩, own⟩ ∧
      f.TellsOfEnd ∧ own.length = 1 ∧
      decodeArgs (readArg (levelsFrom 0)) (some settlement) (5 :: cutBatches) =
        (some [⟨"to", "u8", .number 5⟩],
          own ++ [Text.ofString "Call args left 2 trailing bytes"]) := by
  have first : readArg (levelsFrom 0) (.plain .u8) ⟨.start (5 :: cutBatches), []⟩ =
      .ok (.number 5) ⟨⟨1, cutBatches⟩, []⟩ := rfl
  have order : ReadInOrder (readArg (levelsFrom 0)) (.start (5 :: cutBatches))
      [⟨"to", .plain .u8, false⟩] [⟨"to", "u8", .number 5⟩] ([] ++ []) ⟨1, cutBatches⟩ :=
    .next first (.none _)
  have cut : readArg (levelsFrom 0) (.array .calls) ⟨⟨1, cutBatches⟩, []⟩ =
      .error (.streamShort 4 21 2) ⟨⟨21, [0, 0]⟩,
        (decodeCallWith (readArg 127) ⟨0, 1, [], none⟩).2⟩ := rfl
  have ends : (Fault.streamShort 4 21 2).TellsOfEnd := EndsStream.tells rfl
  have decoded := (cut_tail_is_quiet_iff 0 settlement (5 :: cutBatches) rfl order cut rfl ends).1
  exact ⟨_, _, order, cut, ends, by decide +kernel, decoded⟩

def placeBehind (type : ArgType) (c : Cursor) : Option Cursor :=
  match readArg (levelsFrom 0) type ⟨c, []⟩ with
  | .ok _ ⟨d, []⟩ => some d
  | _ => none

theorem of_placeBehind {type : ArgType} {c d : Cursor} (h : placeBehind type c = some d) :
    ∃ v, readArg (levelsFrom 0) type ⟨c, []⟩ = .ok v ⟨d, []⟩ := by
  unfold placeBehind at h
  split at h
  · cases h
    exact ⟨_, by assumption⟩
  · cases h

/-- The arguments of a genesis up to the nodes, and the first byte of the count behind them. -/
def cutGenesis : List UInt8 := List.replicate 134 0

/-- The optional metadata of a genesis ends inside its count, and the list is not quiet about it. -/
theorem genesis_is_told_of :
    ∃ s kept arg left arguments place f, Catalog.lookup 0 0 = some s ∧
      s.args = kept ++ arg :: left ∧ arg.isOptional = true ∧
      ReadInOrder (readArg (levelsFrom 0)) (.start cutGenesis) kept arguments [] place ∧
      readArg (levelsFrom 0) arg.type ⟨place, []⟩ = .error f ⟨place, []⟩ ∧ f.TellsOfEnd ∧
      (decodeArgs (readArg (levelsFrom 0)) (some s) cutGenesis).2 =
        [Text.ofString "Call args left 1 trailing bytes"] := by
  have chain : placeBehind (.plain .chainConfig) (.start cutGenesis) =
      some ⟨16, List.replicate 118 0⟩ := by decide +kernel
  have gas : placeBehind (.plain .gasConfig) ⟨16, List.replicate 118 0⟩ =
      some ⟨129, List.replicate 5 0⟩ := by decide +kernel
  have nodes : placeBehind (.array (.plain .nodeInfo)) ⟨129, List.replicate 5 0⟩ =
      some ⟨133, [0]⟩ := by decide +kernel
  obtain ⟨v, chain⟩ := of_placeBehind chain
  obtain ⟨w, gas⟩ := of_placeBehind gas
  obtain ⟨x, nodes⟩ := of_placeBehind nodes
  have third : ReadInOrder (readArg (levelsFrom 0)) ⟨129, List.replicate 5 0⟩
      [Catalog.arg "nodes" (.array (.plain .nodeInfo))] [⟨"nodes", "node_info[]", x⟩] ([] ++ [])
      ⟨133, [0]⟩ := .next nodes (.none _)
  have second : ReadInOrder (readArg (levelsFrom 0)) ⟨16, List.replicate 118 0⟩
      (Catalog.arg "gas_config" (.plain .gasConfig) :: [_]) (_ :: [_]) ([] ++ []) ⟨133, [0]⟩ :=
    .next gas third
  have first : ReadInOrder (readArg (levelsFrom 0)) (.start cutGenesis)
      (Catalog.arg "chain_config" (.plain .chainConfig) :: [_, _]) (_ :: [_, _]) ([] ++ [])
      ⟨133, [0]⟩ := .next chain second
  exact ⟨_, _, Catalog.optional "metadata" .dynamicStruct, _, _, _, .streamShort 4 133 1, rfl, rfl,
    rfl, first, rfl, EndsStream.tells rfl, by decide +kernel⟩

end ChainDecode.Carbon
