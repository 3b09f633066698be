import ChainDecode.Proofs.Carbon.Delimiting
import ChainDecode.Proofs.Carbon.Nesting

/-! # What arguments look for behind their bytes

A count is compared with the bytes that are left, and the elements of a Dynamic array take none. So
such an array may need bytes behind it that it does not take. Nothing else looks behind its own
bytes, and what is needed is never more than the length of the longest such array.
-/
namespace ChainDecode.Carbon

variable {α β : Type}

/-- The step takes these bytes if so many more are behind them, which it does not take. With fewer
it stops as if its own bytes had ended. -/
structure Room (r : ArgRead α) (front : List UInt8) (ahead : Nat) (a : α) (warnings : List Text) :
    Prop where
  reads : ∀ p rest before, ahead ≤ rest.length →
    r ⟨⟨p, front ++ rest⟩, before⟩ = .ok a ⟨⟨p + front.length, rest⟩, before ++ warnings⟩
  short : ∀ p rest before, rest.length < ahead →
    ∃ f s, r ⟨⟨p, front ++ rest⟩, before⟩ = .error f s ∧ EndsStream f

namespace Room

theorem pure (a : α) : Room (pure a) [] 0 a [] where
  reads p rest before _ := by
    rw [List.append_nil]
    rfl
  short p rest before few := absurd few (Nat.not_lt_zero _)

theorem bind {r : ArgRead α} {f : α → ArgRead β} {front back : List UInt8} {n m : Nat} {a : α}
    {b : β} {early late : List Text} (h : Room r front n a early) (k : Room (f a) back m b late) :
    Room (r >>= f) (front ++ back) (max m (n - back.length)) b (early ++ late) where
  reads p rest before enough := by
    have inside : n ≤ (back ++ rest).length := by
      rw [List.length_append]
      omega
    rw [List.append_assoc, bind_ok (h.reads p (back ++ rest) before inside),
      k.reads _ rest _ (by omega), List.length_append, Nat.add_assoc, List.append_assoc]
  short p rest before few := by
    rw [List.append_assoc]
    by_cases inside : n ≤ (back ++ rest).length
    · rw [bind_ok (h.reads p (back ++ rest) before inside)]
      rw [List.length_append] at inside
      exact k.short _ rest _ (by omega)
    · obtain ⟨g, s, stop, ends⟩ := h.short p (back ++ rest) before (Nat.lt_of_not_le inside)
      exact ⟨g, s, bind_error stop, ends⟩

theorem lift {r : Read α} {front : List UInt8} {a : α} (h : Reads r front a) :
    Room (ArgRead.lift r) front 0 a [] where
  reads p rest before _ := by
    rw [lift_ok (h p rest), List.append_nil]
  short p rest before few := absurd few (Nat.not_lt_zero _)

theorem lift_count {r : Read Nat} {front : List UInt8} {n : Nat}
    (h : Announced EndsStream r front n) : Room (ArgRead.lift r) front n n [] where
  reads p rest before enough := by
    rw [lift_ok (h.accepts p rest enough), List.append_nil]
  short p rest before few := by
    obtain ⟨f, c, stop, ends⟩ := h.refuses rest few p
    exact ⟨f, ⟨c, before⟩, lift_error stop, ends⟩

end Room

/-- Wherever the step succeeds, the bytes that it needs behind its own are at most as many as its
value tells. The value also covers what earlier steps needed, so a bound is handed from step to
step. -/
def LooksAhead (sofar : Nat) (most : α → Nat) (r : ArgRead α) : Prop :=
  ∀ p bytes before a t, r ⟨⟨p, bytes⟩, before⟩ = .ok a t →
    sofar ≤ most a ∧ ∃ front ahead warnings, bytes = front ++ t.cursor.rest ∧
      ahead ≤ most a ∧ Room r front ahead a warnings

namespace LooksAhead

variable {sofar : Nat} {most : α → Nat} {next : β → Nat}

theorem pure {a : α} (le : sofar ≤ most a) : LooksAhead sofar most (pure a) := by
  intro p bytes before b t h
  cases h
  exact ⟨le, [], 0, [], rfl, Nat.zero_le _, .pure a⟩

theorem throw (f : Fault) : LooksAhead sofar most (throw f : ArgRead α) := by
  intro p bytes before a t h
  cases h

theorem bind {r : ArgRead α} {f : α → ArgRead β} (h : LooksAhead sofar most r)
    (k : ∀ a, LooksAhead (most a) next (f a)) : LooksAhead sofar next (r >>= f) := by
  intro p bytes before b t success
  obtain ⟨a, ⟨⟨q, middle⟩, between⟩, first, second⟩ := of_bind_ok success
  obtain ⟨le, front, n, early, rfl, small, room⟩ := h p bytes before a _ first
  obtain ⟨le', back, m, late, same, small', room'⟩ := k a q middle between b t second
  -- What the first step needs is partly in the bytes of the second, so the need never adds up.
  refine ⟨Nat.le_trans le le', front ++ back, max m (n - back.length), early ++ late, ?_, by omega,
    room.bind room'⟩
  rw [List.append_assoc, ← same]

theorem relax {r : ArgRead α} {wider : α → Nat} (h : LooksAhead sofar most r)
    (le : ∀ a, most a ≤ wider a) : LooksAhead sofar wider r := by
  intro p bytes before a t success
  obtain ⟨least, front, n, warnings, same, small, room⟩ := h p bytes before a t success
  exact ⟨Nat.le_trans least (le a), front, n, warnings, same, Nat.le_trans small (le a), room⟩

theorem after {r : ArgRead α} (h : LooksAhead 0 most r) (sofar : Nat) :
    LooksAhead sofar (fun a => max sofar (most a)) r := by
  intro p bytes before a t success
  obtain ⟨_, front, n, warnings, same, small, room⟩ := h p bytes before a t success
  exact ⟨Nat.le_max_left _ _, front, n, warnings, same,
    Nat.le_trans small (Nat.le_max_right _ _), room⟩

theorem times {r : ArgRead α} (h : LooksAhead 0 most r) (total : List α → Nat)
    (cons : ∀ a rest, max (most a) (total rest) ≤ total (a :: rest)) (n sofar : Nat) :
    LooksAhead sofar (fun items => max sofar (total items)) (times r n) := by
  induction n generalizing sofar with
  | zero => exact .pure (Nat.le_max_left _ _)
  | succ n ih =>
    refine .bind (h.after sofar) fun a => .bind (ih _) fun rest => .pure ?_
    have := cons a rest
    omega

theorem ofDelimits {r : Read α} (h : Delimits EndsStream r) (sofar : Nat) :
    LooksAhead sofar (fun _ => sofar) (ArgRead.lift r) := by
  intro p bytes before a t success
  obtain ⟨front, same, needed⟩ := h p bytes a _ _ (of_lift_ok success).1
  exact ⟨Nat.le_refl _, front, 0, [], same, Nat.zero_le _, .lift needed.reads⟩

theorem count (sofar : Nat) :
    LooksAhead sofar (fun n => max sofar n) (ArgRead.lift Stream.count) := by
  intro p bytes before n t success
  obtain ⟨front, same, announced⟩ := Delimits.count p bytes n _ _ (of_lift_ok success).1
  exact ⟨Nat.le_max_left _ _, front, n, [], same, Nat.le_max_right _ _, .lift_count announced⟩

end LooksAhead

theorem lift_bind (r : Read α) (f : α → Read β) :
    ArgRead.lift (r >>= f) = ArgRead.lift r >>= fun a => ArgRead.lift (f a) := by
  funext s
  cases first : r s.cursor with
  | ok a c =>
    rw [bind_ok (lift_ok first), ArgRead.lift, bind_ok first]
    rfl
  | error g c => rw [bind_error (lift_error first), ArgRead.lift, bind_error first]

theorem lift_times (r : Read α) (n : Nat) :
    ArgRead.lift (times r n) = times (ArgRead.lift r) n := by
  induction n with
  | zero => rfl
  | succ n ih =>
    rw [times, times, lift_bind]
    refine congrArg _ (funext fun a => ?_)
    rw [lift_bind, ih]
    rfl

abbrev Peeks (sofar : Nat) (most : α → Nat) (r : Read α) : Prop :=
  LooksAhead sofar most (ArgRead.lift r)

namespace Peeks

variable {sofar : Nat} {most : α → Nat} {next : β → Nat}

theorem pure {a : α} (le : sofar ≤ most a) : Peeks sofar most (pure a) := LooksAhead.pure le

theorem bind {r : Read α} {f : α → Read β} (h : Peeks sofar most r)
    (k : ∀ a, Peeks (most a) next (f a)) : Peeks sofar next (r >>= f) := by
  unfold Peeks
  rw [lift_bind]
  exact LooksAhead.bind h k

theorem counted {f : Nat → Read α} (enough : ∀ n, Takes n (f n))
    (k : ∀ n, Peeks sofar most (f n)) : Peeks sofar most (Stream.count >>= f) := by
  intro p bytes before a t success
  rw [lift_bind] at success ⊢
  obtain ⟨n, ⟨⟨q, middle⟩, between⟩, first, second⟩ := of_bind_ok success
  obtain ⟨_, front, m, early, rfl, small, room⟩ := LooksAhead.count 0 p bytes before n _ first
  replace small : m ≤ max 0 n := small
  obtain ⟨le, back, ahead, late, same, below, room'⟩ := k n q middle between a t second
  have taken : n ≤ back.length := by
    have items := enough n _ _ _ (of_lift_ok second).1
    have length := congrArg List.length same
    simp only [Cursor.remaining, List.length_append] at items length
    omega
  refine ⟨le, front ++ back, max ahead (m - back.length), early ++ late, ?_, by omega,
    room.bind room'⟩
  rw [List.append_assoc, ← same]

end Peeks

def Value.isAbsent : Value → Bool
  | .absent => true
  | _ => false

mutual

def Value.mostAbsent : Value → Nat
  | .list items => max (items.countP Value.isAbsent) (Value.mostAbsentItems items)
  | .record fields => Value.mostAbsentFields fields
  | _ => 0

def Value.mostAbsentItems : List Value → Nat
  | [] => 0
  | v :: rest => max v.mostAbsent (Value.mostAbsentItems rest)

def Value.mostAbsentFields : List (String × Value) → Nat
  | [] => 0
  | (_, v) :: rest => max v.mostAbsent (Value.mostAbsentFields rest)

end

theorem mostAbsentItems_le (items : List Value) :
    Value.mostAbsentItems items ≤ (Value.list items).mostAbsent := by
  rw [Value.mostAbsent]
  exact Nat.le_max_right _ _

theorem LooksAhead.items {item : ArgRead Value} (h : LooksAhead 0 Value.mostAbsent item) (n : Nat) :
    LooksAhead 0 (fun items => (Value.list items).mostAbsent) (ChainDecode.times item n) := by
  refine (h.times Value.mostAbsentItems ?_ n 0).relax fun items => ?_
  · exact fun v rest => Nat.le_of_eq (by rw [Value.mostAbsentItems])
  · rw [Nat.zero_max]
    exact mostAbsentItems_le items

theorem Peeks.items {item : Read Value} (h : Peeks 0 Value.mostAbsent item) (n : Nat) :
    Peeks 0 (fun items => (Value.list items).mostAbsent) (ChainDecode.times item n) := by
  unfold Peeks
  rw [lift_times]
  exact LooksAhead.items h n

theorem mostAbsent_replicate (n : Nat) :
    n ≤ (Value.list (List.replicate n .absent)).mostAbsent := by
  have all : (List.replicate n Value.absent).countP Value.isAbsent = n := by
    rw [List.countP_replicate]
    rfl
  rw [Value.mostAbsent, all]
  exact Nat.le_max_left _ _

theorem times_pure (a : α) (n : Nat) :
    times (pure a : Read α) n = pure (List.replicate n a) := by
  induction n with
  | zero => rfl
  | succ n ih =>
    rw [times, ih]
    rfl

section Struct

variable {struct : Read Value}

theorem element_takes (takes : Takes 1 struct) {base : Nat} (visible : base ≠ 0) :
    Takes 1 (readElement struct base) := by
  unfold readElement
  split
  · exact absurd rfl visible
  · exact .before ((Takes.signed 1).weaken (by omega)) fun _ => .pure _
  · exact .before ((Takes.signed 2).weaken (by omega)) fun _ => .pure _
  · exact .before ((Takes.signed 4).weaken (by omega)) fun _ => .pure _
  · exact .before ((Takes.signed 8).weaken (by omega)) fun _ => .pure _
  · exact .before ((Takes.signed 32).weaken (by omega)) fun _ => .pure _
  · exact .before (Takes.byteArray.weaken (by omega)) fun _ => .pure _
  · exact .before (Takes.byteArray.weaken (by omega)) fun _ => .pure _
  · exact .before ((Takes.stream_take 16).weaken (by omega)) fun _ => .pure _
  · exact .before ((Takes.stream_take 32).weaken (by omega)) fun _ => .pure _
  · exact .before ((Takes.stream_take 64).weaken (by omega)) fun _ => .pure _
  · exact takes
  · exact .throw _ _

theorem typed_takes (takes : Takes 1 struct) (code : UInt8) : Takes 0 (readTyped struct code) := by
  have element : Takes 0 (readElement struct (baseOf code)) := by
    by_cases dynamic : baseOf code = 0
    · rw [dynamic]
      exact .pure _
    · exact (element_takes takes dynamic).weaken (Nat.zero_le _)
  unfold readTyped
  split
  · exact .before (Takes.count.weaken (Nat.zero_le _)) fun n => .before (.times element n) fun _ =>
      .pure _
  · exact element

theorem element_peeks (peeks : Peeks 0 Value.mostAbsent struct) (base : Nat) :
    Peeks 0 Value.mostAbsent (readElement struct base) := by
  have plain : ∀ {r : Read Value}, Delimits EndsStream r → Peeks 0 Value.mostAbsent r := fun h =>
    (LooksAhead.ofDelimits h 0).relax fun _ => Nat.zero_le _
  unfold readElement
  split
  · exact .pure (Nat.zero_le _)
  · exact plain (.bind (.signed 1) fun _ => .pure _)
  · exact plain (.bind (.signed 2) fun _ => .pure _)
  · exact plain (.bind (.signed 4) fun _ => .pure _)
  · exact plain (.bind (.signed 8) fun _ => .pure _)
  · exact plain (.bind (.signed 32) fun _ => .pure _)
  · exact plain (.bind .byteArray fun _ => .pure _)
  · exact plain (.bind .byteArray fun _ => .pure _)
  · exact plain (.bind (.stream_take 16) fun _ => .pure _)
  · exact plain (.bind (.stream_take 32) fun _ => .pure _)
  · exact plain (.bind (.stream_take 64) fun _ => .pure _)
  · exact peeks
  · exact LooksAhead.throw _

/-- Only elements without bytes leave their count to what is behind them. -/
theorem typed_peeks (takes : Takes 1 struct) (peeks : Peeks 0 Value.mostAbsent struct)
    (code : UInt8) : Peeks 0 Value.mostAbsent (readTyped struct code) := by
  have element := element_peeks peeks (baseOf code)
  unfold readTyped
  split
  · by_cases dynamic : baseOf code = 0
    -- Nothing stands for the elements, so the whole count has to be found behind them.
    · rw [dynamic]
      refine .bind (LooksAhead.count 0) fun n => ?_
      have absent : readElement struct 0 = pure .absent := rfl
      rw [absent, times_pure]
      refine .pure ?_
      have := mostAbsent_replicate n
      omega
    · have each : Takes 1 (readElement struct (baseOf code)) := element_takes takes dynamic
      refine .counted (fun n => (Takes.times_each each n).before fun _ => .pure _) fun n => ?_
      exact .bind (element.items n) fun items => .pure (Nat.le_refl _)
  · exact element

theorem variableFields_peeks (takes : Takes 1 struct) (peeks : Peeks 0 Value.mostAbsent struct) :
    Peeks 0 Value.mostAbsentFields (readVariableFields struct) := by
  refine .bind (LooksAhead.ofDelimits (.word 1) 0) fun n =>
    .bind (typed_peeks takes peeks _) fun v => .pure ?_
  simp only [Value.mostAbsentFields]
  omega

end Struct

theorem named_peeks {readFields : Read (List (String × Value))}
    (h : Peeks 0 Value.mostAbsentFields readFields) :
    Peeks 0 Value.mostAbsent (readNamed readFields) := by
  refine .bind (LooksAhead.ofDelimits .smallText 0) fun name => .bind h fun fields => .pure ?_
  simp only [Value.mostAbsent, Value.mostAbsentFields]
  omega

theorem dynamic_takes (levels : Nat) :
    Takes 1 (readStruct levels) ∧ Takes 1 (readVariable levels) := by
  induction levels with
  | zero => exact ⟨.throw _ _, .throw _ _⟩
  | succ levels ih =>
    obtain ⟨struct, fields⟩ := ih
    constructor
    · have named : Takes 0 (readNamed (readVariable levels)) :=
        .before (Takes.smallText.weaken (Nat.zero_le _)) fun _ =>
          .before (fields.weaken (Nat.zero_le _)) fun _ => .pure _
      unfold readStruct
      exact .before (Takes.count.weaken (by omega)) fun n => .before (.times named n) fun _ =>
        .pure _
    · unfold readVariable
      exact .before (.word 1) fun _ => .before (typed_takes struct _) fun _ => .pure _

theorem dynamic_peeks (levels : Nat) :
    Peeks 0 Value.mostAbsent (readStruct levels) ∧
      Peeks 0 Value.mostAbsentFields (readVariable levels) := by
  induction levels with
  | zero => exact ⟨LooksAhead.throw _, LooksAhead.throw _⟩
  | succ levels ih =>
    obtain ⟨struct, fields⟩ := ih
    constructor
    · have named := named_peeks fields
      have each : Takes 1 (readNamed (readVariable levels)) :=
        .before .smallText fun _ =>
          .before ((dynamic_takes levels).2.weaken (Nat.zero_le _)) fun _ => .pure _
      unfold readStruct
      refine .counted (fun n => (Takes.times_each each n).before fun _ => .pure _) fun n => ?_
      exact .bind (named.items n) fun items => .pure (Nat.le_refl _)
    · unfold readVariable
      exact variableFields_peeks (dynamic_takes levels).1 struct

theorem variableRecord_peeks (levels : Nat) :
    Peeks 0 Value.mostAbsent (readVariableRecord levels) := by
  unfold readVariableRecord
  rw [← bind_pure_comp]
  exact .bind (dynamic_peeks levels).2 fun fields => .pure (Nat.le_of_eq (by rw [Value.mostAbsent]))

/-- Some values of the type are dynamic and stand in its own bytes. Embedded calls have bytes of
their own. -/
def ArgType.hasDynamic : ArgType → Bool
  | .dynamicStruct | .dynamicVariable | .organizationImport => true
  | .array item => item.hasDynamic
  | _ => false

/-- The most bytes that a value of the type may need behind it. -/
def ArgType.lookAhead (type : ArgType) (v : Value) : Nat :=
  if type.hasDynamic then v.mostAbsent else 0

theorem plain_solid (p : PlainType) : p.layout.solid = true := by
  cases p <;> decide

/-- Embedded calls are decoded from bytes that are read already. -/
theorem embedded_looksAhead (read : ArgType → ArgRead Value) (raws : List RawCall) (sofar : Nat) :
    LooksAhead sofar (fun _ => sofar) (readAllEmbedded read raws) := by
  intro p bytes before values t success
  have all := readAllEmbedded_all read raws
  rw [all] at success
  cases success
  refine ⟨Nat.le_refl _, [], 0, _, rfl, Nat.zero_le _, fun p rest before _ => all _, ?_⟩
  exact fun p rest before few => absurd few (Nat.not_lt_zero _)

theorem array_looksAhead {item : ArgType} {read : ArgRead Value}
    (h : LooksAhead 0 item.lookAhead read) :
    LooksAhead 0 (ArgType.array item).lookAhead (readArray read) := by
  have count : Delimits EndsStream (readListCount .negativeArray) :=
    .bind (.signed 4) fun _ => .ite (.throw _) (.pure _)
  refine .bind (LooksAhead.ofDelimits count 0) fun n => ?_
  unfold ArgType.lookAhead at h ⊢
  rw [ArgType.hasDynamic]
  generalize item.hasDynamic = dynamic at h ⊢
  cases dynamic with
  | true => exact .bind (LooksAhead.items h n) fun items => .pure (Nat.le_refl _)
  | false =>
    have quiet := LooksAhead.times h (fun _ => 0) (fun _ _ => Nat.le_refl _) n 0
    exact .bind quiet fun items => .pure (Nat.le_refl _)

theorem argument_looksAhead (levels : Nat) (type : ArgType) :
    LooksAhead 0 type.lookAhead (readArg levels type) := by
  -- Every type is read one level further down, so the levels carry the induction.
  induction levels generalizing type with
  | zero => exact .throw _
  | succ levels ih =>
    have own : ∀ {γ : Type} {r : Read γ}, Delimits EndsStream r → ∀ most : γ → Nat,
        LooksAhead 0 most (ArgRead.lift r) := fun h most =>
      (LooksAhead.ofDelimits h 0).relax fun _ => Nat.zero_le _
    have layout : ∀ {l : Layout}, l.solid = true → Delimits EndsStream l.read := fun solid =>
      layout_delimits _ solid
    unfold readArg
    split
    · exact own (layout (plain_solid _)) _
    · exact (dynamic_peeks levels).1
    · exact variableRecord_peeks levels
    · refine .bind (own (layout rfl) fun _ => 0) fun name =>
        .bind (own (layout rfl) fun _ => 0) fun owner =>
        .bind (dynamic_peeks levels).1 fun metadata =>
        .bind ((ih (.array (.plain .memberImport))).after _) fun members => .pure ?_
      simp only [ArgType.lookAhead, ArgType.hasDynamic, Value.mostAbsent, Value.mostAbsentFields,
        if_true, Bool.false_eq_true, if_false]
      omega
    · exact .bind (own (layout rfl) fun _ => 0) fun token =>
        .bind (own (layout rfl) fun _ => 0) fun info =>
        .bind (ih (.array (.plain .nftImport))) fun imports => .pure (Nat.le_refl _)
    · exact .bind (own calls_delimit fun _ => 0) fun raws =>
        .bind (embedded_looksAhead _ raws 0) fun values => .pure (Nat.zero_le _)
    · exact own (layout rfl) _
    · exact array_looksAhead (ih _)
    · exact .throw _

variable {depth : Int} {type : ArgType} {bytes : List UInt8} {v : Value} {warnings : List Text}

/-- The bytes are read as a value of the type where others are behind them, of which none is
taken. -/
def Accepts (depth : Int) (type : ArgType) (bytes : List UInt8) (v : Value) (warnings : List Text)
    (behind : List UInt8) : Prop :=
  readArgAt depth type (.start (bytes ++ behind)) = .ok (v, warnings) ⟨bytes.length, behind⟩

/-- Where others are behind them, the bytes are refused as if they had ended. -/
def RefusesAsCut (depth : Int) (type : ArgType) (bytes behind : List UInt8) : Prop :=
  ∃ f c, readArgAt depth type (.start (bytes ++ behind)) = .error f c ∧ EndsStream f

theorem RefusesAsCut.not_accepts {behind : List UInt8}
    (h : RefusesAsCut depth type bytes behind) : ¬ Accepts depth type bytes v warnings behind := by
  obtain ⟨f, c, stop, -⟩ := h
  intro accepted
  cases stop.symm.trans accepted

theorem room_decides {ahead : Nat}
    (room : Room (readArg (levelsFrom depth) type) bytes ahead v warnings) (others : List UInt8) :
    (ahead ≤ others.length → Accepts depth type bytes v warnings others) ∧
      (others.length < ahead → RefusesAsCut depth type bytes others) := by
  constructor
  · intro enough
    unfold Accepts readArgAt Cursor.start
    rw [room.reads 0 others [] enough, Nat.zero_add]
    rfl
  · intro few
    obtain ⟨f, s, stop, ends⟩ := room.short 0 others [] few
    refine ⟨f, s.cursor, ?_, ends⟩
    unfold readArgAt Cursor.start
    rw [stop]

theorem readArgAt_ok {c d : Cursor} : readArgAt depth type c = .ok (v, warnings) d ↔
    readArg (levelsFrom depth) type ⟨c, []⟩ = .ok v ⟨d, warnings⟩ := by
  unfold readArgAt
  constructor
  · intro accepted
    cases read : readArg (levelsFrom depth) type ⟨c, []⟩ with
    | ok w s =>
      obtain ⟨cursor, told⟩ := s
      rw [read] at accepted
      cases accepted
      rfl
    | error f s =>
      rw [read] at accepted
      cases accepted
  · intro read
    rw [read]

theorem accepts_iff {behind : List UInt8} :
    Accepts depth type bytes v warnings behind ↔
      readArg (levelsFrom depth) type ⟨⟨0, bytes ++ behind⟩, []⟩ =
        .ok v ⟨⟨bytes.length, behind⟩, warnings⟩ := readArgAt_ok

theorem accepts_room {behind : List UInt8} (h : Accepts depth type bytes v warnings behind) :
    ∃ ahead ≤ type.lookAhead v,
      Room (readArg (levelsFrom depth) type) bytes ahead v warnings := by
  have read := accepts_iff.mp h
  obtain ⟨-, front, ahead, found, same, small, room⟩ :=
    argument_looksAhead (levelsFrom depth) type 0 _ [] v _ read
  have front_eq : bytes = front := List.append_cancel_right same
  subst front_eq
  by_cases enough : ahead ≤ behind.length
  · have again := (room.reads 0 behind [] enough).symm.trans read
    rw [Nat.zero_add] at again
    cases again
    exact ⟨ahead, small, room⟩
  · obtain ⟨f, s, stop, -⟩ := room.short 0 behind [] (Nat.lt_of_not_le enough)
    cases stop.symm.trans read

theorem Accepts.before (h : Accepts depth type bytes v warnings []) (behind : List UInt8) :
    Accepts depth type bytes v warnings behind := by
  obtain ⟨ahead, -, room⟩ := accepts_room h
  have none : ¬ 0 < ahead := fun some => ((room_decides room []).2 some).not_accepts h
  exact (room_decides room behind).1 (by omega)

/-- An array of so many Dynamic elements. -/
def dynamicArray (n : Nat) : Value :=
  .record [("type", .typeName 128), ("value", .list (List.replicate n .absent))]

theorem count_announced {n : Nat} (small : Reads.IsCount n) :
    Announced EndsStream Stream.count (Number.toSignedBytes 4 n) n := by
  have room : n ≤ (List.replicate n (0 : UInt8)).length := Nat.le_of_eq List.length_replicate.symm
  obtain ⟨front, same, announced⟩ := Delimits.count 0 _ n 4 _ (Reads.count_accepted small room 0)
  rwa [List.append_cancel_right same]

theorem typed_dynamicArray (struct : Read Value) :
    readTyped struct 128 =
      Stream.count >>= fun n => pure (.list (List.replicate n .absent)) := by
  have absent : readElement struct (baseOf 128) = pure .absent := rfl
  have array : isArrayType 128 = true := by decide
  rw [readTyped, if_pos array, absent]
  refine congrArg _ (funext fun n => ?_)
  rw [times_pure]
  rfl

theorem dynamicElements_room (struct : Read Value) {n : Nat} (small : Reads.IsCount n) :
    Room (ArgRead.lift (readTyped struct 128)) (Number.toSignedBytes 4 n) n
      (.list (List.replicate n .absent)) [] := by
  have count : Room (ArgRead.lift Stream.count) (Number.toSignedBytes 4 n) n n [] :=
    .lift_count (count_announced small)
  have elements := count.bind (f := fun n => pure (Value.list (List.replicate n .absent))) (.pure _)
  rw [List.append_nil, List.append_nil, List.length_nil, Nat.sub_zero, Nat.zero_max] at elements
  rw [typed_dynamicArray, lift_bind]
  exact elements

theorem dynamicArray_room (deep : depth < maxDepth) {n : Nat} (small : Reads.IsCount n) :
    Room (readArg (levelsFrom depth) .dynamicVariable) (128 :: Number.toSignedBytes 4 n) n
      (dynamicArray n) [] := by
  obtain ⟨levels, down⟩ : ∃ levels, levelsFrom depth = levels + 2 := by
    refine ⟨levelsFrom depth - 2, ?_⟩
    unfold levelsFrom
    omega
  let record (code : UInt8) (v : Value) : Value := .record [("type", .typeName code), ("value", v)]
  have reader : readArg (levelsFrom depth) .dynamicVariable =
      ArgRead.lift (Stream.word 1) >>= fun code =>
        ArgRead.lift (readTyped (readStruct levels) (UInt8.ofNat code)) >>= fun v =>
          pure (record (UInt8.ofNat code) v) := by
    rw [down]
    show ArgRead.lift (readVariableRecord (levels + 1)) = _
    rw [readVariableRecord, ← bind_pure_comp, readVariable, readVariableFields]
    simp only [lift_bind, bind_assoc]
    rfl
  have code : Reads (Stream.word 1) (Number.toBytes 1 128) 128 := Reads.word (by decide)
  have elements := (dynamicElements_room (readStruct levels) small).bind
    (f := fun v => pure (record 128 v)) (.pure _)
  have whole := (Room.lift code).bind (f := fun code =>
    ArgRead.lift (readTyped (readStruct levels) (UInt8.ofNat code)) >>= fun v =>
      pure (record (UInt8.ofNat code) v)) elements
  simp only [List.append_nil, List.length_nil, Nat.sub_zero, Nat.zero_max, Nat.zero_sub,
    Nat.max_zero] at whole
  rw [reader]
  exact whole

/-- An array of Dynamic elements is read where as many bytes are behind it as it has elements. -/
theorem dynamicArray_accepts_iff (deep : depth < maxDepth) {n : Nat} (small : Reads.IsCount n)
    (behind : List UInt8) :
    Accepts depth .dynamicVariable (128 :: Number.toSignedBytes 4 n) (dynamicArray n) [] behind ↔
      n ≤ behind.length := by
  obtain ⟨enough, few⟩ := room_decides (dynamicArray_room deep small) behind
  refine ⟨fun accepted => ?_, enough⟩
  by_contra short
  exact (few (Nat.lt_of_not_le short)).not_accepts accepted

/-- Arguments find their own end, but for arrays of Dynamic elements. Bytes that are read alone are
read before any others. Bytes that are read before some others need a number of bytes behind them,
at most as many as their value's longest array of Dynamic elements has: before so many they are read
to the same value, and before fewer they are refused as if they had ended. So a value without such
arrays is read from its bytes wherever they stand. The bytes of such an array are read exactly where
as many others follow as it has elements. -/
theorem arguments_end_but_for_dynamic_arrays (depth : Int) (type : ArgType) (bytes : List UInt8)
    (v : Value) (warnings : List Text) :
    (Accepts depth type bytes v warnings [] →
      ∀ behind, Accepts depth type bytes v warnings behind) ∧
    (∀ behind, Accepts depth type bytes v warnings behind →
      ∃ ahead ≤ type.lookAhead v, ∀ others,
        (ahead ≤ others.length → Accepts depth type bytes v warnings others) ∧
        (others.length < ahead → RefusesAsCut depth type bytes others)) ∧
    (type.lookAhead v = 0 → ∀ behind,
      Accepts depth type bytes v warnings behind ↔ Accepts depth type bytes v warnings []) ∧
    (depth < maxDepth → ∀ n, Reads.IsCount n → ∀ behind,
      Accepts depth .dynamicVariable (128 :: Number.toSignedBytes 4 n) (dynamicArray n) [] behind ↔
        n ≤ behind.length) := by
  refine ⟨fun accepted => accepted.before, fun behind accepted => ?_,
    fun none behind => ⟨fun accepted => ?_, fun accepted => accepted.before behind⟩, ?_⟩
  · obtain ⟨ahead, small, room⟩ := accepts_room accepted
    exact ⟨ahead, small, room_decides room⟩
  · obtain ⟨ahead, small, room⟩ := accepts_room accepted
    rw [none] at small
    exact (room_decides room []).1 small
  · exact fun deep n small behind => dynamicArray_accepts_iff deep small behind

/-- An array of an Int8 element is read before other bytes because it is read alone, and one of a
Dynamic element because there are any. -/
theorem arrays_among_bytes :
    Accepts 0 .dynamicVariable [129, 1, 0, 0, 0, 7]
        (.record [("type", .typeName 129), ("value", .list [.number 7])]) [] [1, 2] ∧
      Accepts 0 .dynamicVariable (128 :: Number.toSignedBytes 4 1) (dynamicArray 1) [] [7] := by
  obtain ⟨before, -, -, dynamic⟩ := arguments_end_but_for_dynamic_arrays 0 .dynamicVariable
    [129, 1, 0, 0, 0, 7] (.record [("type", .typeName 129), ("value", .list [.number 7])]) []
  exact ⟨before rfl [1, 2], (dynamic (by decide) 1 (by decide) [7]).mpr (by decide)⟩

/-- The bytes of an array of one Dynamic element are read before another byte, of which nothing is
taken, but not alone. -/
theorem dynamicArray_needs_more :
    Accepts 0 .dynamicVariable [128, 1, 0, 0, 0]
        (.record [("type", .typeName 128), ("value", .list [.absent])]) [] [0] ∧
      ¬ ∃ v warnings, Accepts 0 .dynamicVariable [128, 1, 0, 0, 0] v warnings [] := by
  have room : Room (readArg (levelsFrom 0) .dynamicVariable) (128 :: Number.toSignedBytes 4 1) 1
      (dynamicArray 1) [] := dynamicArray_room (by decide) (by decide)
  refine ⟨(room_decides room [0]).1 (by decide), ?_⟩
  rintro ⟨v, warnings, accepted⟩
  exact ((room_decides room []).2 (by decide)).not_accepts accepted

end ChainDecode.Carbon
