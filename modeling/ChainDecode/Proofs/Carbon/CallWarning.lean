import ChainDecode.Carbon.Call
import ChainDecode.Proofs.Reading

/-! # Warnings about calls

Whatever a call's arguments hold, and wherever reading them stops, every warning says that it is
about the arguments of a call. A step is judged by the state it leaves, also when it stops, because
the warnings up to there are kept.
-/
namespace ChainDecode.Carbon

def TellsOfCall (w : Text) : Prop := (Text.ofString "Call arg").letters <+: w.letters

def AllTellOfCalls (warnings : List Text) : Prop := ∀ w ∈ warnings, TellsOfCall w

theorem all_tell_nil : AllTellOfCalls [] := by
  intro w h
  cases h

theorem all_tell_append {front back : List Text} (h : AllTellOfCalls front)
    (k : AllTellOfCalls back) : AllTellOfCalls (front ++ back) := by
  intro w member
  rcases List.mem_append.mp member with member | member
  · exact h w member
  · exact k w member

theorem all_tell_flatMap {α : Type} {items : List α} {warnings : α → List Text}
    (h : ∀ x, AllTellOfCalls (warnings x)) : AllTellOfCalls (items.flatMap warnings) := by
  intro w member
  obtain ⟨x, _, inside⟩ := List.mem_flatMap.mp member
  exact h x w inside

theorem tells_of_front {front : String} (h : "Call arg".toList <+: front.toList) (back : Text) :
    TellsOfCall (front ++ back) := by
  have first : (Text.ofString "Call arg").letters <+: (Text.ofString front).letters := by
    rw [Text.letters_ofString, Text.letters_ofString]
    exact h.map Letter.char
  exact first.trans (List.prefix_append _ _)

theorem trailing_tells (remaining : Nat) : AllTellOfCalls (trailingWarning remaining) := by
  intro w member
  unfold trailingWarning at member
  split at member
  · cases member
  · rw [List.mem_singleton] at member
    subst member
    rw [Text.ofString_append, Text.ofString_append, Text.append_assoc]
    exact tells_of_front (by decide) _

theorem failure_tells (method : String) (arg : ArgDef) (f : Fault) :
    TellsOfCall (failureWarning method arg f) := by
  unfold failureWarning
  simp only [Text.ofString_append, Text.append_assoc]
  exact tells_of_front (by decide) _

section Lift

variable {α : Type} {r : Read α} {s t : ArgState} {a : α} {f : Fault}

/-- A reader of bytes moves the cursor and leaves the warnings alone. -/
theorem lift_ok {c : Cursor} (h : r s.cursor = .ok a c) :
    ArgRead.lift r s = .ok a { s with cursor := c } := by
  unfold ArgRead.lift
  rw [h]

theorem lift_error {c : Cursor} (h : r s.cursor = .error f c) :
    ArgRead.lift r s = .error f { s with cursor := c } := by
  unfold ArgRead.lift
  rw [h]

theorem of_lift_ok (h : ArgRead.lift r s = .ok a t) :
    r s.cursor = .ok a t.cursor ∧ t.warnings = s.warnings := by
  cases read : r s.cursor with
  | ok b c =>
    rw [lift_ok read] at h
    cases h
    exact ⟨rfl, rfl⟩
  | error g c =>
    rw [lift_error read] at h
    cases h

theorem of_lift_error (h : ArgRead.lift r s = .error f t) :
    r s.cursor = .error f t.cursor ∧ t.warnings = s.warnings := by
  cases read : r s.cursor with
  | ok b c =>
    rw [lift_ok read] at h
    cases h
  | error g c =>
    rw [lift_error read] at h
    cases h
    exact ⟨rfl, rfl⟩

end Lift

def leftBy {ε σ α : Type} : EStateM.Result ε σ α → σ
  | .ok _ s => s
  | .error _ s => s

def Warns {α : Type} (r : ArgRead α) : Prop :=
  ∀ s, AllTellOfCalls s.warnings → AllTellOfCalls (leftBy (r s)).warnings

namespace Warns

variable {α β : Type}

theorem pure (a : α) : Warns (pure a) := fun _ h => h

theorem throw (f : Fault) : Warns (throw f : ArgRead α) := fun _ h => h

theorem bind {r : ArgRead α} {k : α → ArgRead β} (h : Warns r) (next : ∀ a, Warns (k a)) :
    Warns (r >>= k) := by
  intro s before
  have after := h s before
  cases result : r s with
  | ok a t =>
    rw [bind_ok result]
    rw [result] at after
    exact next a t after
  | error f t =>
    rw [bind_error result]
    rwa [result] at after

theorem lift (r : Read α) : Warns (ArgRead.lift r) := by
  intro s before
  cases read : r s.cursor with
  | ok a c => rwa [lift_ok read]
  | error f c => rwa [lift_error read]

theorem warn {warnings : List Text} (h : AllTellOfCalls warnings) :
    Warns (ArgRead.warn warnings) := fun _ before => all_tell_append before h

theorem times {r : ArgRead α} (h : Warns r) (n : Nat) : Warns (times r n) := by
  induction n with
  | zero => exact pure []
  | succ n ih => exact bind h fun a => bind ih fun rest => pure (a :: rest)

end Warns

variable {read : ArgType → ArgRead Value}

theorem decodeArgsFrom_tells (h : ∀ type, Warns (read type)) (method : String)
    (args : List ArgDef) (s : ArgState) (before : AllTellOfCalls s.warnings) :
    AllTellOfCalls (decodeArgsFrom read method args s).2 := by
  induction args generalizing s with
  | nil => exact all_tell_append before (trailing_tells _)
  | cons arg rest ih =>
    have after := h arg.type s before
    unfold decodeArgsFrom
    cases result : read arg.type s with
    | ok v t =>
      rw [result] at after
      exact ih t after
    | error f t =>
      rw [result] at after
      dsimp only
      split
      · exact all_tell_append after (trailing_tells _)
      · refine all_tell_append after ?_
        intro w member
        rw [List.mem_singleton] at member
        subst member
        exact failure_tells method arg f

theorem decodeArgs_tells (h : ∀ type, Warns (read type)) (signature : Option CallSignature)
    (args : List UInt8) : AllTellOfCalls (decodeArgs read signature args).2 := by
  cases signature with
  | none => exact all_tell_nil
  | some s => exact decodeArgsFrom_tells h s.name s.args ⟨.start args, []⟩ all_tell_nil

theorem decodeSection_tells (h : ∀ type, Warns (read type)) (signature : Option CallSignature)
    (s : RawSection) : AllTellOfCalls (decodeSection read signature s).2 := by
  unfold decodeSection
  split
  · exact decodeArgs_tells h signature s.args
  · exact all_tell_nil

theorem decodeCallWith_tells (h : ∀ type, Warns (read type)) (c : RawCall) :
    AllTellOfCalls (decodeCallWith read c).2 := by
  unfold decodeCallWith
  dsimp only
  split
  · rw [List.flatMap_map]
    exact all_tell_flatMap fun s => decodeSection_tells h _ s
  · exact decodeArgs_tells h _ c.args

theorem readAllEmbedded_warns (h : ∀ type, Warns (read type)) (raws : List RawCall) :
    Warns (readAllEmbedded read raws) := by
  induction raws with
  | nil => exact Warns.pure []
  | cons c rest ih =>
    have call : Warns (readEmbedded read c) :=
      .bind (.warn (decodeCallWith_tells h c)) fun _ => .pure _
    exact .bind call fun v => .bind ih fun values => .pure (v :: values)

theorem readArg_warns (levels : Nat) (type : ArgType) : Warns (readArg levels type) := by
  -- Every type is read one level further down, so the levels carry the induction.
  induction levels generalizing type with
  | zero => exact Warns.throw _
  | succ levels ih =>
    unfold readArg
    have embedded := readAllEmbedded_warns ih
    split
    · exact .lift _
    · exact .lift _
    · exact .lift _
    · exact .bind (.lift _) fun _ => .bind (.lift _) fun _ => .bind (.lift _) fun _ =>
        .bind (ih _) fun _ => .pure _
    · exact .bind (.lift _) fun _ => .bind (.lift _) fun _ => .bind (ih _) fun _ => .pure _
    · exact .bind (.lift _) fun raws => .bind (embedded raws) fun _ => .pure _
    · exact .lift _
    · exact .bind (.lift _) fun n => .bind (.times (ih _) n) fun _ => .pure _
    · exact .throw _

theorem decodeCall_tells (depth : Int) (c : RawCall) : AllTellOfCalls (decodeCall depth c).2 :=
  decodeCallWith_tells (readArg_warns _) c

theorem decodeCalls_tells (calls : List RawCall) : AllTellOfCalls (decodeCalls calls).2 := by
  unfold decodeCalls
  dsimp only
  rw [List.flatMap_map]
  exact all_tell_flatMap (decodeCall_tells 0)

end ChainDecode.Carbon
