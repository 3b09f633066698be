import ChainDecode.Proofs.Carbon.Advancing
import ChainDecode.Proofs.Carbon.LookAhead
import ChainDecode.Proofs.Rom.Delimiting

/-! # The invariant of a cursor

Whatever is read through a cursor, and whichever of it stops, the cursor stays within its bytes and
never goes back. What is read is made of the bytes that the cursor went over and of no others: only
a count that is compared with the bytes left makes a reader look ahead, and never for its value.
-/
namespace ChainDecode

structure Reading where
  Value : Type
  read : Read Value
  lookAhead : Value → Nat

def Reading.closed {α : Type} (r : Read α) : Reading := ⟨α, r, fun _ => 0⟩

def Reading.announced (r : Read Nat) : Reading := ⟨Nat, r, id⟩

inductive Buffer.Operation where
  | u8
  | u16
  | u32
  | u64
  | varint (maximum : Int)
  | length (maximum : Int)
  | bytes (size : Int)
  | byteArray (maximum : Int)
  | text
  | bigInteger
  | timestamp
  | node (depth : Int)
  deriving DecidableEq, Repr

def Buffer.Operation.reading (label : Text) : Buffer.Operation → Reading
  | u8 => .closed (Buffer.word label 1)
  | u16 => .closed (Buffer.word label 2)
  | u32 => .closed (Buffer.word label 4)
  | u64 => .closed (Buffer.word label 8)
  | varint maximum => .closed (Buffer.varint label maximum)
  | length maximum => .announced (Buffer.length label maximum)
  | bytes size => .closed (Buffer.bytes label size)
  | byteArray maximum => .closed (Buffer.byteArray label maximum)
  | text => .closed (Buffer.text label)
  | bigInteger => .closed (Buffer.bigInteger label)
  | timestamp => .closed (Buffer.timestamp label)
  | node depth => .closed (Rom.Node.read label (Rom.Node.levelsFrom depth))

inductive Stream.Operation where
  | u8
  | i32
  | u32
  | i64
  | u64
  | bytes (size : Int)
  | count
  | byteArray
  | byteArrays
  | smallText
  | bytes32
  | bytes64
  | intx
  | plain (type : Carbon.PlainType)
  | struct (depth : Int)
  | dynamic (depth : Int)
  | argument (depth : Int) (name : Text)
  | call
  | calls
  | message (code : Json)
  deriving Repr

def Stream.Operation.reading : Stream.Operation → Reading
  | u8 => .closed (Stream.word 1)
  | i32 => .closed (Stream.signed 4)
  | u32 => .closed (Stream.word 4)
  | i64 => .closed (Stream.signed 8)
  | u64 => .closed (Stream.word 8)
  | bytes size => .closed (Stream.bytes size)
  | count => .announced Stream.count
  | byteArray => .closed Stream.byteArray
  | byteArrays => .closed Stream.byteArrays
  | smallText => .closed Stream.smallText
  | bytes32 => .closed (Stream.take 32)
  | bytes64 => .closed (Stream.take 64)
  | intx => .closed Stream.intx
  | plain type => .closed type.layout.read
  | struct depth =>
    ⟨Carbon.Value, Carbon.readStruct (Carbon.levelsFrom depth), Carbon.Value.mostAbsent⟩
  | dynamic depth =>
    ⟨Carbon.Value, Carbon.readVariableRecord (Carbon.levelsFrom depth), Carbon.Value.mostAbsent⟩
  | argument depth name =>
    ⟨Carbon.Value × List Text, Carbon.readArgAt depth (.ofName name),
      fun found => (Carbon.ArgType.ofName name).lookAhead found.1⟩
  | call => .closed Carbon.RawCall.read
  | calls => .closed Carbon.RawCall.readMany
  | message code => .closed (Carbon.Message.readOf code)

inductive Operation where
  | buffer (label : Text) (o : Buffer.Operation)
  | stream (o : Stream.Operation)
  | rest
  deriving Repr

namespace Operation

def reading : Operation → Reading
  | buffer label o => o.reading label
  | stream o => o.reading
  | rest => .closed Read.rest

/-- The cursor behind operations in order, each of which may have stopped. -/
def run (operations : List Operation) (c : Cursor) : Cursor :=
  operations.foldl (fun c o => finalState o.reading.read c) c

end Operation

structure Cursor.On (bytes : List UInt8) (c : Cursor) : Prop where
  inside : c.position ≤ bytes.length
  sum : c.position + c.remaining = bytes.length
  ends : c.atEnd = true ↔ c.remaining = 0
  rest : c.rest = bytes.drop c.position

theorem on_of_reaches {bytes : List UInt8} {c : Cursor} (h : (Cursor.start bytes).Reaches c) :
    c.On bytes := by
  obtain ⟨k, small, rfl⟩ := h
  change k ≤ bytes.length at small
  have position : ((Cursor.start bytes).advance k).position = k := Nat.zero_add k
  have rest : ((Cursor.start bytes).advance k).rest = bytes.drop k := rfl
  refine ⟨by rwa [position], ?_, ?_, by rw [position, rest]⟩
  · rw [position, Cursor.remaining, rest, List.length_drop]
    omega
  · rw [Cursor.atEnd, Cursor.remaining, List.isEmpty_iff, List.length_eq_zero_iff]

namespace Operation

theorem buffer_forward (label : Text) (o : Buffer.Operation) : Forward (o.reading label).read := by
  cases o with
  | u8 => exact .bufferWord label 1
  | u16 => exact .bufferWord label 2
  | u32 => exact .bufferWord label 4
  | u64 => exact .bufferWord label 8
  | varint maximum => exact .varint label maximum
  | length maximum => exact .length label maximum
  | bytes size => exact .buffer_bytes label size
  | byteArray maximum => exact .bufferArray label maximum
  | text => exact .bufferText label
  | bigInteger => exact .bigInteger label
  | timestamp => exact .bufferWord label 4
  | node depth => exact Rom.Node.node_forward label _

theorem stream_forward (o : Stream.Operation) : Forward o.reading.read := by
  cases o with
  | u8 => exact .word 1
  | i32 => exact .signed 4
  | u32 => exact .word 4
  | i64 => exact .signed 8
  | u64 => exact .word 8
  | bytes size => exact .stream_bytes size
  | count => exact .count
  | byteArray => exact .byteArray
  | byteArrays => exact .byteArrays
  | smallText => exact .smallText
  | bytes32 => exact .stream_take 32
  | bytes64 => exact .stream_take 64
  | intx => exact .intx
  | plain type => exact Carbon.layout_forward _
  | struct depth => exact (Carbon.dynamic_forward _).1
  | dynamic depth => exact Carbon.variableRecord_forward _
  | argument depth name => exact Carbon.argumentAt_forward depth _
  | call => exact Carbon.call_forward
  | calls => exact Carbon.calls_forward
  | message code => exact Carbon.readOf_forward code

theorem read_forward (o : Operation) : Forward o.reading.read := by
  cases o with
  | buffer label o => exact buffer_forward label o
  | stream o => exact stream_forward o
  | rest => exact .rest

theorem run_reaches (operations : List Operation) (c : Cursor) : c.Reaches (run operations c) := by
  induction operations generalizing c with
  | nil => exact .refl c
  | cons o operations ih => exact (read_forward o c).trans (ih _)

theorem run_append (earlier later : List Operation) (c : Cursor) :
    run (earlier ++ later) c = run later (run earlier c) := List.foldl_append

end Operation

section Computed

variable {α : Type} {r : Read α} {most : α → Nat}

/-- The bytes that a value is made of. They are read to it wherever they stand, if so many more are
behind them, and nothing is read if fewer are, or from a shorter front of them. -/
structure ComputedFrom (r : Read α) (front : List UInt8) (ahead : Nat) (a : α) : Prop where
  reads : ∀ p behind, ahead ≤ behind.length →
    r ⟨p, front ++ behind⟩ = .ok a ⟨p + front.length, behind⟩
  refused : ∀ p behind, behind.length < ahead → ∃ f c, r ⟨p, front ++ behind⟩ = .error f c
  cut : ∀ p, ∀ j < front.length, ∃ f c, r ⟨p, front.take j⟩ = .error f c

/-- Wherever the reader succeeds, its value is made of the bytes that it took, and it has looked for
no more behind them than the value tells. -/
def Computes (most : α → Nat) (r : Read α) : Prop :=
  ∀ p bytes a q rest, r ⟨p, bytes⟩ = .ok a ⟨q, rest⟩ →
    ∃ front ahead, bytes = front ++ rest ∧ q = p + front.length ∧ ahead ≤ most a ∧
      ComputedFrom r front ahead a

/-- A reader that reads the same whatever follows is refused a shorter front, since what it took of
it would be the whole value. -/
theorem computes_of_room
    (h : ∀ p bytes a q rest, r ⟨p, bytes⟩ = .ok a ⟨q, rest⟩ → ∃ front ahead,
      bytes = front ++ rest ∧ ahead ≤ most a ∧
        (∀ p behind, ahead ≤ behind.length →
          r ⟨p, front ++ behind⟩ = .ok a ⟨p + front.length, behind⟩) ∧
        (∀ p behind, behind.length < ahead → ∃ f c, r ⟨p, front ++ behind⟩ = .error f c)) :
    Computes most r := by
  intro p bytes a q rest success
  obtain ⟨front, ahead, rfl, small, reads, refused⟩ := h p bytes a q rest success
  have room : ahead ≤ rest.length := by
    by_contra few
    obtain ⟨f, c, stop⟩ := refused p rest (Nat.lt_of_not_le few)
    cases stop.symm.trans success
  have place : q = p + front.length := by
    have same := (reads p rest room).symm.trans success
    cases same
    rfl
  refine ⟨front, ahead, rfl, place, small, reads, refused, fun p j short => ?_⟩
  cases result : r ⟨p, front.take j⟩ with
  | error f c => exact ⟨f, c, rfl⟩
  | ok b c =>
    obtain ⟨m, left⟩ := c
    obtain ⟨part, least, split, -, again, -⟩ := h p _ b m left result
    -- With enough behind it the shorter part would be read again, and it ends too early.
    let behind := List.replicate (ahead + least) (0 : UInt8)
    have enough : behind.length = ahead + least := List.length_replicate
    have whole : front ++ behind = part ++ (left ++ front.drop j ++ behind) := by
      conv => lhs; rw [← List.take_append_drop j front, split]
      simp only [List.append_assoc]
    have long := reads p behind (by omega)
    have early := again p (left ++ front.drop j ++ behind) (by
      rw [List.length_append, enough]
      omega)
    rw [whole, early] at long
    have ends : p + part.length = p + front.length := by
      injection long with _ cursors
      exact congrArg Cursor.position cursors
    have size := congrArg List.length split
    rw [List.length_append, List.length_take] at size
    omega

namespace Computes

theorem ofDelimits {short : Fault → Prop} (h : Delimits short r) : Computes (fun _ => 0) r :=
  computes_of_room fun p bytes a q rest success => by
    obtain ⟨front, same, needed⟩ := h p bytes a q rest success
    exact ⟨front, 0, same, Nat.le_refl _, fun p behind _ => needed.reads p behind,
      fun p behind few => absurd few (Nat.not_lt_zero _)⟩

theorem ofAnnounces {short : Fault → Prop} {r : Read Nat} (h : Announces short r) :
    Computes id r :=
  computes_of_room fun p bytes n q rest success => by
    obtain ⟨front, same, announced⟩ := h p bytes n q rest success
    refine ⟨front, n, same, Nat.le_refl _, announced.accepts, fun p behind few => ?_⟩
    obtain ⟨f, c, stop, -⟩ := announced.refuses behind few p
    exact ⟨f, c, stop⟩

theorem ofPeeks (h : Carbon.Peeks 0 most r) : Computes most r :=
  computes_of_room fun p bytes a q rest success => by
    obtain ⟨-, front, ahead, warnings, same, small, room⟩ :=
      h p bytes [] a ⟨⟨q, rest⟩, []⟩ (Carbon.lift_ok success)
    refine ⟨front, ahead, same, small, fun p behind enough => ?_, fun p behind few => ?_⟩
    · exact (Carbon.of_lift_ok (room.reads p behind [] enough)).1
    · obtain ⟨f, s, stop, -⟩ := room.short p behind [] few
      exact ⟨f, s.cursor, (Carbon.of_lift_error stop).1⟩

theorem argument (depth : Int) (type : Carbon.ArgType) :
    Computes (fun found => type.lookAhead found.1) (Carbon.readArgAt depth type) :=
  computes_of_room fun p bytes found q rest success => by
    obtain ⟨v, warnings⟩ := found
    have own := Carbon.readArgAt_ok.mp success
    obtain ⟨-, front, ahead, told, same, small, room⟩ :=
      Carbon.argument_looksAhead (Carbon.levelsFrom depth) type p bytes [] v _ own
    have same : bytes = front ++ rest := same
    subst same
    have enough : ahead ≤ rest.length := by
      by_contra few
      obtain ⟨f, s, stop, -⟩ := room.short p rest [] (Nat.lt_of_not_le few)
      cases stop.symm.trans own
    have warned : told = warnings := by
      have again := (room.reads p rest [] enough).symm.trans own
      cases again
      rfl
    refine ⟨front, ahead, rfl, small, fun p behind enough => ?_, fun p behind few => ?_⟩
    · exact Carbon.readArgAt_ok.mpr (warned ▸ room.reads p behind [] enough)
    · obtain ⟨f, s, stop, -⟩ := room.short p behind [] few
      refine ⟨f, s.cursor, ?_⟩
      unfold Carbon.readArgAt
      rw [stop]

end Computes

end Computed

namespace Operation

theorem buffer_computes (label : Text) (o : Buffer.Operation) :
    Computes (o.reading label).lookAhead (o.reading label).read := by
  cases o with
  | u8 => exact .ofDelimits (.bufferWord label 1)
  | u16 => exact .ofDelimits (.bufferWord label 2)
  | u32 => exact .ofDelimits (.bufferWord label 4)
  | u64 => exact .ofDelimits (.bufferWord label 8)
  | varint maximum => exact .ofDelimits (.varint label maximum)
  | length maximum => exact .ofAnnounces (Delimits.length label maximum)
  | bytes size =>
    have cut : Delimits (fun _ => True) (Buffer.bytes label size) :=
      .ite (.throw _) (.take fun _ => trivial)
    exact .ofDelimits cut
  | byteArray maximum => exact .ofDelimits (.bufferArray label maximum)
  | text => exact .ofDelimits (.bufferText label)
  | bigInteger => exact .ofDelimits (.bigInteger label)
  | timestamp => exact .ofDelimits (.bufferWord label 4)
  | node depth => exact .ofDelimits (Rom.Node.node_delimits label _)

theorem stream_computes (o : Stream.Operation) :
    Computes o.reading.lookAhead o.reading.read := by
  cases o with
  | u8 => exact .ofDelimits (.word 1)
  | i32 => exact .ofDelimits (.signed 4)
  | u32 => exact .ofDelimits (.word 4)
  | i64 => exact .ofDelimits (.signed 8)
  | u64 => exact .ofDelimits (.word 8)
  | bytes size =>
    have cut : Delimits (fun _ => True) (Stream.bytes size) :=
      .ite (.throw _) (.take fun _ => trivial)
    exact .ofDelimits cut
  | count => exact .ofAnnounces Delimits.count
  | byteArray => exact .ofDelimits .byteArray
  | byteArrays => exact .ofDelimits .byteArrays
  | smallText => exact .ofDelimits .smallText
  | bytes32 => exact .ofDelimits (.stream_take 32)
  | bytes64 => exact .ofDelimits (.stream_take 64)
  | intx => exact .ofDelimits .intx
  | plain type => exact .ofDelimits (Carbon.layout_delimits _ (Carbon.plain_solid type))
  | struct depth => exact .ofPeeks (Carbon.dynamic_peeks _).1
  | dynamic depth => exact .ofPeeks (Carbon.variableRecord_peeks _)
  | argument depth name => exact .argument depth _
  | call => exact .ofDelimits Carbon.call_delimits
  | calls => exact .ofDelimits Carbon.calls_delimit
  | message code => exact .ofDelimits (Carbon.readOf_delimits code)

theorem read_computes {o : Operation} (part : o ≠ .rest) :
    Computes o.reading.lookAhead o.reading.read := by
  cases o with
  | buffer label o => exact buffer_computes label o
  | stream o => exact stream_computes o
  | rest => exact absurd rfl part

end Operation

/-- So many bytes are read from a place if there are as many, and the cursor moves over them. If
not, none is read and the cursor stays. -/
structure TakesExactly (r : Read (List UInt8)) (size : Int) (bytes : List UInt8) (c : Cursor) :
    Prop where
  taken : 0 ≤ size → size ≤ c.remaining → ∃ d,
    r c = .ok ((bytes.drop c.position).take size.toNat) d ∧ (d.position : Int) = c.position + size
  refused : ¬ (0 ≤ size ∧ size ≤ c.remaining) → ∃ f, r c = .error f c

section On

variable {bytes : List UInt8} {c : Cursor} (on : c.On bytes)

include on

theorem take_exactly (size : Int) (negative : Fault) (short : Cursor → Fault) :
    TakesExactly (if size < 0 then throw negative else Read.take size.toNat short) size bytes
      c := by
  refine ⟨fun low fits => ?_, fun unfit => ?_⟩
  · have enough : size.toNat ≤ c.remaining := by omega
    rw [if_neg (by omega), ← on.rest]
    refine ⟨c.advance size.toNat, if_pos enough, ?_⟩
    simp only [Cursor.advance]
    omega
  · by_cases below : size < 0
    · rw [if_pos below]
      exact ⟨negative, rfl⟩
    · rw [if_neg below]
      exact ⟨short c, if_neg (by omega)⟩

theorem rest_exactly : Read.rest c = .ok (bytes.drop c.position) ⟨bytes.length, []⟩ := by
  have ends : c.advance c.remaining = ⟨bytes.length, []⟩ := by
    rw [Cursor.advance, on.sum, Cursor.remaining, List.drop_length]
  rw [Read.rest, ends, on.rest]

theorem read_between {o : Operation} (part : o ≠ .rest) {a : o.reading.Value} {d : Cursor}
    (success : o.reading.read c = .ok a d) :
    c.position ≤ d.position ∧ ∃ ahead ≤ o.reading.lookAhead a,
      ComputedFrom o.reading.read ((bytes.drop c.position).take (d.position - c.position)) ahead
        a := by
  obtain ⟨front, ahead, same, place, small, computed⟩ :=
    Operation.read_computes part c.position c.rest a d.position d.rest success
  refine ⟨by omega, ahead, small, ?_⟩
  rw [← on.rest, same, place, Nat.add_sub_cancel_left, List.take_left]
  exact computed

end On

/-- What holds of a cursor over bytes behind operations of any kind and number. -/
structure CursorLaws (bytes : List UInt8) (past : List Operation) (c : Cursor) : Prop where
  on : c.On bytes
  -- It has not been further on before.
  forward : ∀ earlier, earlier <+: past →
    (Operation.run earlier (.start bytes)).position ≤ c.position
  bufferBytes : ∀ (label : Text) (size : Int),
    TakesExactly (Buffer.bytes label size) size bytes c
  streamBytes : ∀ size : Int, TakesExactly (Stream.bytes size) size bytes c
  rest : Read.rest c = .ok (bytes.drop c.position) ⟨bytes.length, []⟩
  -- What is read next is made of exactly the bytes that the cursor goes over.
  computed : ∀ o : Operation, o ≠ .rest → ∀ a d, o.reading.read c = .ok a d →
    c.position ≤ d.position ∧ ∃ ahead ≤ o.reading.lookAhead a,
      ComputedFrom o.reading.read ((bytes.drop c.position).take (d.position - c.position)) ahead a

/-- A cursor keeps to its bytes under all operations, in any order and number, whether they succeed
or stop. -/
theorem cursor_keeps_to_its_bytes (bytes : List UInt8) (past : List Operation) :
    CursorLaws bytes past (Operation.run past (.start bytes)) := by
  have on : (Operation.run past (.start bytes)).On bytes :=
    on_of_reaches (Operation.run_reaches past _)
  refine ⟨on, ?_, ?_, ?_, rest_exactly on, ?_⟩
  · rintro earlier ⟨later, rfl⟩
    rw [Operation.run_append]
    exact (Operation.run_reaches later _).position_le
  · exact fun label size => take_exactly on size _ _
  · exact fun size => take_exactly on size _ _
  · exact fun o part a d success => read_between on part success

/-- Reads that stop keep what they took: the byte that counts a text stays taken when the text is
not there, and too many bytes take none. -/
example : Operation.run [.stream .smallText, .stream (.bytes 3), .buffer "tail" .u8]
    (.start [5, 1, 7]) = ⟨2, [7]⟩ := by decide

end ChainDecode
