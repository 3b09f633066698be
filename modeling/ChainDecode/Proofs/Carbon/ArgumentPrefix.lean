import ChainDecode.Proofs.Carbon.Containment
import ChainDecode.Proofs.Delimiting

/-! # The arguments that are kept

A call keeps the arguments up to the first that cannot be read. Each is read from where the one
before it ended, and what embedded calls were warned of before has no part in it, so the warnings
of the arguments come one after another. The list ends in one of three ways, and the cause of the
end tells which: its family and its words are all that is asked of it.
-/
namespace ChainDecode

/-- The cause is that the bytes ran out, and its words say that a stream did. -/
def Fault.TellsOfEnd (f : Fault) : Prop :=
  f.kind = .bounds ∧ f.message.contains "end of stream" = true

theorem Text.contains_of_startsWith {t part : Text} (h : t.startsWith part = true) :
    t.contains part = true := by
  obtain ⟨letters⟩ := t
  cases letters with
  | nil =>
    have empty : part.letters = [] := List.prefix_nil.mp (List.isPrefixOf_iff_prefix.mp h)
    simp [contains, occursIn, empty]
  | cons l rest =>
    have front : part.letters.isPrefixOf (l :: rest) = true := h
    simp [contains, occursIn, front]

theorem EndsStream.tells {f : Fault} (h : EndsStream f) : f.TellsOfEnd :=
  ⟨h.kind, Text.contains_of_startsWith h.message⟩

namespace Carbon

def OnlyStreamsEnd (f : Fault) : Prop := f.kind = .bounds → EndsStream f

instance : CoversArguments OnlyStreamsEnd where
  short _ _ _ _ := rfl
  tooMany _ _ _ := rfl
  negative _ _ := nofun
  valueDepth := nofun
  valueType _ := nofun
  argumentDepth := nofun
  nodes := nofun
  array := nofun

theorem argument_tells (levels : Nat) (type : ArgType) :
    StopsOnly (fun f => EndsStream f ↔ f.TellsOfEnd) (readArg levels type) := by
  have ends : StopsOnly OnlyStreamsEnd (readArg levels type) :=
    argument_stops levels type fun _ _ => nofun
  intro s f t stop
  exact ⟨EndsStream.tells, fun tells => ends s f t stop tells.1⟩

section Steps

variable {α β : Type}

def warnedBefore (before : List Text) :
    EStateM.Result Fault ArgState α → EStateM.Result Fault ArgState α
  | .ok a s => .ok a ⟨s.cursor, before ++ s.warnings⟩
  | .error f s => .error f ⟨s.cursor, before ++ s.warnings⟩

theorem warnedBefore_append (first second : List Text) (outcome : EStateM.Result Fault ArgState α) :
    warnedBefore (first ++ second) outcome = warnedBefore first (warnedBefore second outcome) := by
  cases outcome <;> simp only [warnedBefore, List.append_assoc]

def AddsWarnings (r : ArgRead α) : Prop :=
  ∀ c before, r ⟨c, before⟩ = warnedBefore before (r ⟨c, []⟩)

namespace AddsWarnings

theorem pure (a : α) : AddsWarnings (pure a) := fun c before =>
  congrArg (fun ws => EStateM.Result.ok a (ArgState.mk c ws)) (List.append_nil before).symm

theorem throw (f : Fault) : AddsWarnings (throw f : ArgRead α) := fun c before =>
  congrArg (fun ws => EStateM.Result.error f (ArgState.mk c ws)) (List.append_nil before).symm

theorem bind {r : ArgRead α} {k : α → ArgRead β} (h : AddsWarnings r)
    (next : ∀ a, AddsWarnings (k a)) : AddsWarnings (r >>= k) := by
  intro c before
  have first := h c before
  cases result : r ⟨c, []⟩ with
  | ok a s =>
    rw [result] at first
    rw [bind_ok first, bind_ok result, next a s.cursor (before ++ s.warnings), warnedBefore_append,
      ← next a s.cursor s.warnings]
  | error f s =>
    rw [result] at first
    rw [bind_error first, bind_error result]
    rfl

theorem lift (r : Read α) : AddsWarnings (ArgRead.lift r) := by
  intro c before
  cases read : r c with
  | ok a d => rw [lift_ok read, lift_ok read, warnedBefore, List.append_nil]
  | error f d => rw [lift_error read, lift_error read, warnedBefore, List.append_nil]

theorem warn (warnings : List Text) : AddsWarnings (ArgRead.warn warnings) := fun _ _ => rfl

theorem times {r : ArgRead α} (h : AddsWarnings r) (n : Nat) : AddsWarnings (times r n) := by
  induction n with
  | zero => exact pure []
  | succ n ih => exact bind h fun a => bind ih fun rest => pure (a :: rest)

end AddsWarnings

end Steps

theorem readAllEmbedded_adds (read : ArgType → ArgRead Value) (raws : List RawCall) :
    AddsWarnings (readAllEmbedded read raws) := by
  induction raws with
  | nil => exact .pure []
  | cons c rest ih =>
    have call : AddsWarnings (readEmbedded read c) := .bind (.warn _) fun _ => .pure _
    exact .bind call fun v => .bind ih fun values => .pure (v :: values)

theorem readArg_adds (levels : Nat) (type : ArgType) : AddsWarnings (readArg levels type) := by
  -- Every type is read one level further down, so the levels carry the induction.
  induction levels generalizing type with
  | zero => exact .throw _
  | succ levels ih =>
    unfold readArg
    split
    · exact .lift _
    · exact .lift _
    · exact .lift _
    · exact .bind (.lift _) fun _ => .bind (.lift _) fun _ => .bind (.lift _) fun _ =>
        .bind (ih _) fun _ => .pure _
    · exact .bind (.lift _) fun _ => .bind (.lift _) fun _ => .bind (ih _) fun _ => .pure _
    · exact .bind (.lift _) fun raws => .bind (readAllEmbedded_adds _ raws) fun _ => .pure _
    · exact .lift _
    · exact .bind (.lift _) fun n => .bind (.times (ih _) n) fun _ => .pure _
    · exact .throw _

/-- Arguments that are read one after another, from a place on, each from where the one before it
ended, with the warnings of the calls inside them, up to the place where the last one ends. -/
inductive ReadInOrder (read : ArgType → ArgRead Value) :
    Cursor → List ArgDef → List CallArgument → List Text → Cursor → Prop where
  | none (c : Cursor) : ReadInOrder read c [] [] [] c
  | next {c d e : Cursor} {arg : ArgDef} {args : List ArgDef} {v : Value}
    {arguments : List CallArgument} {early late : List Text}
    (first : read arg.type ⟨c, []⟩ = .ok v ⟨d, early⟩)
    (rest : ReadInOrder read d args arguments late e) :
    ReadInOrder read c (arg :: args) (⟨arg.name, arg.type.name, v⟩ :: arguments) (early ++ late) e

/-- How a list of arguments ends at a place, given those that are not kept, and with which warnings
at last: all were kept, or the next one stops. If it is optional and its stream has ended that is
no failure. Any other is named with its cause in the last warning. -/
inductive EndsWith (read : ArgType → ArgRead Value) (method : String) :
    Cursor → List ArgDef → List Text → Prop where
  | complete (c : Cursor) : EndsWith read method c [] (trailingWarning c.remaining)
  | cut {c d : Cursor} {arg : ArgDef} {args : List ArgDef} {f : Fault} {inner : List Text}
    (stop : read arg.type ⟨c, []⟩ = .error f ⟨d, inner⟩) (missing : arg.isOptional = true)
    (ends : f.TellsOfEnd) :
    EndsWith read method c (arg :: args) (inner ++ trailingWarning d.remaining)
  | failed {c d : Cursor} {arg : ArgDef} {args : List ArgDef} {f : Fault} {inner : List Text}
    (stop : read arg.type ⟨c, []⟩ = .error f ⟨d, inner⟩)
    (other : ¬ (arg.isOptional = true ∧ f.TellsOfEnd)) :
    EndsWith read method c (arg :: args)
      (inner ++ [s!"Call arg decode failed ({method}.{arg.name}: " ++ arg.type.name ++ "): " ++
        f.message])

theorem ReadInOrder.names {read : ArgType → ArgRead Value} {c d : Cursor} {args : List ArgDef}
    {arguments : List CallArgument} {warnings : List Text}
    (h : ReadInOrder read c args arguments warnings d) :
    arguments.map (fun a => (a.name, a.type)) = args.map fun arg => (arg.name, arg.type.name) := by
  induction h with
  | none c => rfl
  | next first rest ih => rw [List.map_cons, List.map_cons, ih]

section List

variable {read : ArgType → ArgRead Value} (adds : ∀ type, AddsWarnings (read type))
  (tells : ∀ type, StopsOnly (fun f => EndsStream f ↔ f.TellsOfEnd) (read type))
include adds tells

theorem decodeArgsFrom_keeps (method : String) (args : List ArgDef) (c : Cursor)
    (before : List Text) :
    ∃ kept left arguments inner place ending, args = kept ++ left ∧
      decodeArgsFrom read method args ⟨c, before⟩ = (arguments, before ++ (inner ++ ending)) ∧
      ReadInOrder read c kept arguments inner place ∧ EndsWith read method place left ending := by
  induction args generalizing c before with
  | nil => exact ⟨[], [], [], [], c, _, rfl, rfl, .none c, .complete c⟩
  | cons arg args ih =>
    have here := adds arg.type c before
    cases result : read arg.type ⟨c, []⟩ with
    | ok v s =>
      obtain ⟨d, early⟩ := s
      obtain ⟨kept, left, arguments, inner, place, ending, same, decoded, order, ends⟩ :=
        ih d (before ++ early)
      refine ⟨arg :: kept, left, ⟨arg.name, arg.type.name, v⟩ :: arguments, early ++ inner, place,
        ending, congrArg (arg :: ·) same, ?_, .next result order, ends⟩
      rw [result] at here
      simp only [decodeArgsFrom, here, warnedBefore, decoded, List.append_assoc]
    | error f s =>
      obtain ⟨d, inner⟩ := s
      have told := tells arg.type _ _ _ result
      rw [result] at here
      by_cases quiet : arg.isOptional = true ∧ f.TellsOfEnd
      · have ends : f.isEndOfStream = true := told.mpr quiet.2
        refine ⟨[], arg :: args, [], [], c, _, rfl, ?_, .none c, .cut result quiet.1 quiet.2⟩
        simp [decodeArgsFrom, here, warnedBefore, quiet.1, ends]
      · have other : ¬ (arg.isOptional && f.isEndOfStream) = true := by
          rw [Bool.and_eq_true]
          exact fun both => quiet ⟨both.1, told.mp both.2⟩
        refine ⟨[], arg :: args, [], [], c, _, rfl, ?_, .none c, .failed result quiet⟩
        simp [decodeArgsFrom, here, warnedBefore, other, failureWarning]

end List

/-- Decoding arguments never fails. Without a signature there are none. With one, those up to some
argument of the signature are kept, each under its name and type and with the value that its type
is read as where the one before it ended. If that is not all of them, the next one stops there:
either it is optional and the cause is that the stream has ended, or the last warning names it and
the cause. -/
theorem decodable_arguments_are_kept (depth : Int) (blob : List UInt8) :
    (∀ signature, Strict.decodeArgs (Strict.readArg (levelsFrom depth)) signature blob =
      .ok (decodeArgs (readArg (levelsFrom depth)) signature blob)) ∧
    decodeArgs (readArg (levelsFrom depth)) none blob = (none, []) ∧
    ∀ s : CallSignature, ∃ kept left arguments inner place ending,
      s.args = kept ++ left ∧
      decodeArgs (readArg (levelsFrom depth)) (some s) blob = (some arguments, inner ++ ending) ∧
      arguments.map (fun a => (a.name, a.type)) =
        kept.map (fun arg => (arg.name, arg.type.name)) ∧
      ReadInOrder (readArg (levelsFrom depth)) (.start blob) kept arguments inner place ∧
      EndsWith (readArg (levelsFrom depth)) s.name place left ending := by
  refine ⟨fun signature => ?_, rfl, fun s => ?_⟩
  · rw [Strict.readArg_eq]
    exact Strict.decodeArgs_eq (argument_inBytes _) signature blob
  · obtain ⟨kept, left, arguments, inner, place, ending, same, decoded, order, ends⟩ :=
      decodeArgsFrom_keeps (readArg_adds _) (argument_tells _) s.name s.args (.start blob) []
    refine ⟨kept, left, arguments, inner, place, ending, same, ?_, order.names, order, ends⟩
    rw [decodeArgs, decoded]
    rfl

/-- A stream that ends inside an optional number leaves the bytes of the number behind. -/
example : decodeArgs (readArg (levelsFrom 0))
    (some ⟨"Pay", [⟨"to", .plain .u8, false⟩, ⟨"amount", .plain .u32, true⟩]⟩) [5, 1] =
      (some [CallArgument.mk "to" "u8" (.number 5)],
        [Text.ofString "Call args left 1 trailing bytes"]) := rfl

end Carbon

end ChainDecode
