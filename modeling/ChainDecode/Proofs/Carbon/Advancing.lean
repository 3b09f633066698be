import ChainDecode.Carbon.Transaction
import ChainDecode.Proofs.Advancing

/-! # How far the parts of a message move

Layouts, dynamic values, calls, messages and arguments are made of the readers of a stream, so none
of them moves its cursor back or past the end.
-/
namespace ChainDecode

variable {α : Type}

abbrev Carbon.ArgForward (r : Carbon.ArgRead α) : Prop := Advances Carbon.ArgState.cursor r

theorem Advances.lift {r : Read α} (h : Forward r) :
    Carbon.ArgForward (Carbon.ArgRead.lift r) := by
  intro s
  unfold finalState Carbon.ArgRead.lift
  cases result : r s.cursor with
  | ok a c => exact h.of_ok result
  | error f c => exact h.of_error result

namespace Carbon

theorem listCount_forward (negative : Fault) : Forward (readListCount negative) :=
  .bind (.signed 4) fun _ => .ite (.throw _) (.pure _)

mutual

theorem layout_forward : (l : Layout) → Forward l.read
  | .u8 => by
    rw [Layout.read]
    exact .bind (.word 1) fun _ => .pure _
  | .u32 => by
    rw [Layout.read]
    exact .bind (.word 4) fun _ => .pure _
  | .u64 => by
    rw [Layout.read]
    exact .bind (.word 8) fun _ => .pure _
  | .i64 => by
    rw [Layout.read]
    exact .bind (.signed 8) fun _ => .pure _
  | .intx => by
    rw [Layout.read]
    exact .bind .intx fun _ => .pure _
  | .fixed size => by
    rw [Layout.read]
    exact .bind (.stream_take size) fun _ => .pure _
  | .bytes => by
    rw [Layout.read]
    exact .bind .byteArray fun _ => .pure _
  | .smallText => by
    rw [Layout.read]
    exact .bind .smallText fun _ => .pure _
  | .typeName => by
    rw [Layout.read]
    exact .bind (.word 1) fun _ => .pure _
  | .counted item => by
    rw [Layout.read]
    exact .bind .count fun n => .bind (.times (layout_forward item) n) fun _ => .pure _
  | .listed negative item => by
    rw [Layout.read]
    exact .bind (listCount_forward negative) fun n =>
      .bind (.times (layout_forward item) n) fun _ => .pure _
  | .record fields => by
    rw [Layout.read]
    exact .bind (fields_forward fields) fun _ => .pure _

theorem fields_forward : (fields : List (String × Layout)) → Forward (Layout.readFields fields)
  | [] => by
    rw [Layout.readFields]
    exact .pure _
  | (name, layout) :: rest => by
    rw [Layout.readFields]
    exact .bind (layout_forward layout) fun _ => .bind (fields_forward rest) fun _ => .pure _

end

section Struct

variable {struct : Read Value}

theorem element_forward (h : Forward struct) (base : Nat) : Forward (readElement struct base) := by
  unfold readElement
  split
  · exact .pure _
  · exact .bind (.signed 1) fun _ => .pure _
  · exact .bind (.signed 2) fun _ => .pure _
  · exact .bind (.signed 4) fun _ => .pure _
  · exact .bind (.signed 8) fun _ => .pure _
  · exact .bind (.signed 32) fun _ => .pure _
  · exact .bind .byteArray fun _ => .pure _
  · exact .bind .byteArray fun _ => .pure _
  · exact .bind (.stream_take 16) fun _ => .pure _
  · exact .bind (.stream_take 32) fun _ => .pure _
  · exact .bind (.stream_take 64) fun _ => .pure _
  · exact h
  · exact .throw _

theorem typed_forward (h : Forward struct) (code : UInt8) : Forward (readTyped struct code) :=
  .ite (.bind .count fun n => .bind (.times (element_forward h _) n) fun _ => .pure _)
    (element_forward h _)

theorem variableFields_forward (h : Forward struct) : Forward (readVariableFields struct) :=
  .bind (.word 1) fun _ => .bind (typed_forward h _) fun _ => .pure _

theorem named_forward {readFields : Read (List (String × Value))} (h : Forward readFields) :
    Forward (readNamed readFields) :=
  .bind .smallText fun _ => .bind h fun _ => .pure _

end Struct

theorem dynamic_forward (levels : Nat) :
    Forward (readStruct levels) ∧ Forward (readVariable levels) := by
  induction levels with
  | zero => exact ⟨Advances.throw _, Advances.throw _⟩
  | succ levels ih =>
    obtain ⟨struct, fields⟩ := ih
    constructor
    · unfold readStruct
      exact .bind .count fun n => .bind (.times (named_forward fields) n) fun _ => .pure _
    · unfold readVariable
      exact variableFields_forward struct

theorem variableRecord_forward (levels : Nat) : Forward (readVariableRecord levels) :=
  .map _ (dynamic_forward levels).2

theorem section_forward : Forward RawCall.readSection :=
  .bind (.signed 4) fun _ =>
    .ite (.bind .byteArray fun _ => .pure _) (.bind (.pure _) fun _ => .pure _)

theorem call_forward : Forward RawCall.read :=
  .bind (.word 4) fun _ => .bind (.word 4) fun _ => .bind (.signed 4) fun _ =>
    .ite (.bind (.stream_take _) fun _ => .pure _)
      (.bind (.times section_forward _) fun _ => .pure _)

theorem calls_forward : Forward RawCall.readMany := .bind .count (.times call_forward)

theorem message_forward (type : TxType) : Forward (Message.read type) := by
  unfold Message.read
  split
  · exact .bind (layout_forward _) fun _ => .pure _
  · exact .ite (.bind call_forward fun _ => .pure _) (.bind calls_forward fun _ => .pure _)

theorem readOf_forward (code : Json) : Forward (Message.readOf code) := by
  unfold Message.readOf
  split
  · exact message_forward _
  · exact .throw _

theorem embedded_forward (read : ArgType → ArgRead Value) (raws : List RawCall) :
    ArgForward (readAllEmbedded read raws) := by
  induction raws with
  | nil => exact .pure _
  | cons c rest ih =>
    have warn : ∀ warnings, ArgForward (ArgRead.warn warnings) := fun _ s => .refl s.cursor
    exact .bind (.bind (warn _) fun _ => .pure _) fun _ => .bind ih fun _ => .pure _

theorem array_forward {item : ArgRead Value} (h : ArgForward item) : ArgForward (readArray item) :=
  .bind (.lift (listCount_forward _)) fun n => .bind (.times h n) fun _ => .pure _

theorem argument_forward (levels : Nat) (type : ArgType) : ArgForward (readArg levels type) := by
  induction levels generalizing type with
  | zero => exact .throw _
  | succ levels ih =>
    have layout : ∀ l : Layout, ArgForward (ArgRead.lift l.read) := fun l =>
      .lift (layout_forward l)
    unfold readArg
    split
    · exact layout _
    · exact .lift (dynamic_forward levels).1
    · exact .lift (variableRecord_forward levels)
    · exact .bind (layout _) fun _ => .bind (layout _) fun _ =>
        .bind (.lift (dynamic_forward levels).1) fun _ => .bind (ih _) fun _ => .pure _
    · exact .bind (layout _) fun _ => .bind (layout _) fun _ => .bind (ih _) fun _ => .pure _
    · exact .bind (.lift calls_forward) fun raws =>
        .bind (embedded_forward _ raws) fun _ => .pure _
    · exact layout _
    · exact array_forward (ih _)
    · exact .throw _

theorem argumentAt_forward (depth : Int) (type : ArgType) : Forward (readArgAt depth type) := by
  intro c
  have forward := argument_forward (levelsFrom depth) type
  unfold finalState readArgAt
  cases result : readArg (levelsFrom depth) type ⟨c, []⟩ with
  | ok v s => exact forward.of_ok result
  | error f s => exact forward.of_error result

end Carbon

end ChainDecode
