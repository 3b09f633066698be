import ChainDecode.Proofs.CursorInvariant

/-! # Where a failed read leaves the cursor

A read that takes its bytes in one part takes none of them when it fails. A read of several parts
keeps the parts that came before the one that failed. So it leaves the cursor where it was exactly
if the bytes of its first part are not there.
-/
namespace ChainDecode

variable {α β : Type}

def Stays (r : Read α) : Prop := ∀ c f d, r c = .error f d → d = c

namespace Stays

theorem throw (f : Fault) : Stays (throw f : Read α) := by
  intro c g d stop
  cases stop
  rfl

theorem take (n : Nat) (short : Cursor → Fault) : Stays (Read.take n short) := by
  intro c f d stop
  unfold Read.take at stop
  split at stop
  · cases stop
  · cases stop
    rfl

theorem map {r : Read α} (f : α → β) (h : Stays r) : Stays (f <$> r) := by
  intro c g d stop
  rw [← bind_pure_comp] at stop
  rcases of_bind_error stop with first | ⟨a, e, -, second⟩
  · exact h c g d first
  · cases second

theorem ite {p : Prop} [Decidable p] {x y : Read α} (h : Stays x) (k : Stays y) :
    Stays (if p then x else y) := by
  split
  · exact h
  · exact k

theorem rest : Stays Read.rest := by
  intro c f d stop
  cases stop

end Stays

/-- A reader whose first part has so many bytes. If they are not there it stops where it stands, and
otherwise it has taken them wherever it stops. -/
structure BeginsWith (width : Nat) (r : Read α) : Prop where
  short : ∀ c, c.remaining < width → ∃ f, r c = .error f c
  taken : ∀ c, width ≤ c.remaining → c.position + width ≤ (finalState r c).position

namespace BeginsWith

theorem take (n : Nat) (short : Cursor → Fault) : BeginsWith n (Read.take n short) where
  short c few := ⟨short c, if_neg (Nat.not_le.mpr few)⟩
  taken c enough := by
    have found : Read.take n short c = .ok (c.rest.take n) (c.advance n) := if_pos enough
    rw [finalState_ok found]
    exact Nat.le_refl _

theorem bind {r : Read α} {f : α → Read β} {width : Nat} (h : BeginsWith width r)
    (k : ∀ a, Forward (f a)) : BeginsWith width (r >>= f) where
  short c few := by
    obtain ⟨cause, stop⟩ := h.short c few
    exact ⟨cause, bind_error stop⟩
  taken c enough := by
    have first := h.taken c enough
    cases result : r c with
    | ok a d =>
      rw [finalState_ok result] at first
      rw [finalState_bind result]
      exact Nat.le_trans first (k a d).position_le
    | error cause d =>
      rw [finalState_error result] at first
      rwa [finalState_error (bind_error result)]

theorem map {r : Read α} {width : Nat} (f : α → β) (h : BeginsWith width r) :
    BeginsWith width (f <$> r) := by
  rw [← bind_pure_comp]
  exact bind h fun a => .pure (f a)

theorem position_eq_iff {r : Read α} {width : Nat} (h : BeginsWith width r) (some : 0 < width)
    {c d : Cursor} {f : Fault} (stop : r c = .error f d) :
    d.position = c.position ↔ c.remaining < width := by
  constructor
  · intro same
    by_contra enough
    have taken := h.taken c (Nat.le_of_not_lt enough)
    rw [finalState_error stop] at taken
    omega
  · intro few
    obtain ⟨g, early⟩ := h.short c few
    cases early.symm.trans stop
    rfl

theorem word (width : Nat) : BeginsWith width (Stream.word width) := map _ (take width _)

theorem count : BeginsWith 4 Stream.count :=
  bind (map _ (take 4 _)) fun _ => .get_bind fun _ => .ite (.throw _) (.ite (.throw _) (.pure _))

theorem byteArray : BeginsWith 4 Stream.byteArray := bind count .stream_take

theorem byteArrays : BeginsWith 4 Stream.byteArrays := bind count fun n => .times .byteArray n

theorem smallText : BeginsWith 1 Stream.smallText :=
  bind (word 1) fun n => .map _ (.stream_take n)

theorem intx : BeginsWith 1 Stream.intx := bind (word 1) fun _ => .bind (.word _) fun _ => .pure _

variable (label : Text)

theorem bufferWord (width : Nat) : BeginsWith width (Buffer.word label width) :=
  map _ (take width _)

theorem anyVarint : BeginsWith 1 (Buffer.anyVarint label) :=
  bind (bufferWord label 1) fun first =>
    .ite (.bufferWord label 2) (.ite (.bufferWord label 4) (.ite (.bufferWord label 8)
      (.pure first)))

theorem varint (maximum : Int) : BeginsWith 1 (Buffer.varint label maximum) :=
  bind (anyVarint label) fun n => .ite (.throw _) (.pure n)

theorem length (maximum : Int) : BeginsWith 1 (Buffer.length label maximum) :=
  bind (varint label maximum) fun n => .get_bind fun _ => .ite (.throw _) (.pure n)

theorem bufferArray (maximum : Int) : BeginsWith 1 (Buffer.byteArray label maximum) :=
  bind (length label maximum) (.buffer_take label)

theorem bufferText : BeginsWith 1 (Buffer.text label) := map _ (bufferArray label _)

theorem bigInteger : BeginsWith 1 (Buffer.bigInteger label) :=
  bind (bufferWord label 1) fun n => .map _ (.buffer_take label n)

end BeginsWith

/-- The parts of a read: a single one, or a first one of so many bytes and others behind it. -/
inductive Parts where
  | one
  | several (first : Nat)
  deriving DecidableEq, Repr

namespace Parts

/-- A failed read of such parts leaves the cursor where it was. -/
def KeepPlace (c : Cursor) : Parts → Prop
  | one => True
  | several first => c.remaining < first

instance (c : Cursor) (parts : Parts) : Decidable (parts.KeepPlace c) :=
  match parts with
  | one => inferInstanceAs (Decidable True)
  | several first => inferInstanceAs (Decidable (c.remaining < first))

def Make (r : Read α) : Parts → Prop
  | one => Stays r
  | several first => 0 < first ∧ BeginsWith first r

theorem Make.position_eq_iff {r : Read α} {parts : Parts} (h : parts.Make r) {c d : Cursor}
    {f : Fault} (stop : r c = .error f d) : d.position = c.position ↔ parts.KeepPlace c := by
  cases parts with
  | one => exact iff_of_true (congrArg Cursor.position (h c f d stop)) trivial
  | several first => exact h.2.position_eq_iff h.1 stop

end Parts

/-- The parts of a read of the cursor itself; records and calls are put together from such reads. -/
def Buffer.Operation.parts? : Buffer.Operation → Option Parts
  | u8 | u16 | u32 | u64 | bytes _ | timestamp => some .one
  | varint _ | length _ | byteArray _ | text | bigInteger => some (.several 1)
  | node _ => none

def Stream.Operation.parts? : Stream.Operation → Option Parts
  | u8 | i32 | u32 | i64 | u64 | bytes _ | bytes32 | bytes64 => some .one
  | count | byteArray | byteArrays => some (.several 4)
  | smallText | intx => some (.several 1)
  | _ => none

/-- The size or maximum that a read is given, and that its messages name. -/
def Buffer.Operation.argument? : Buffer.Operation → Option Int
  | varint n | length n | bytes n | byteArray n => some n
  | _ => none

def Stream.Operation.argument? : Stream.Operation → Option Int
  | bytes n => some n
  | _ => none

namespace Operation

def parts? : Operation → Option Parts
  | buffer _ o => o.parts?
  | stream o => o.parts?
  | rest => some .one

def argument? : Operation → Option Int
  | buffer _ o => o.argument?
  | stream o => o.argument?
  | rest => none

end Operation

/-- The cause lies in the bytes that were read, or it would name an argument that is too long. -/
def ReadCause (argument : Option Int) (f : Fault) : Prop :=
  InBytes f ∨ f = .digitLimit ∧ ∃ n ∈ argument, Number.IsLong n

theorem readCause_inBytes {argument : Option Int} {r : Read α} (h : StopsOnly InBytes r) :
    StopsOnly (ReadCause argument) r := h.mono fun _ => Or.inl

theorem readCause_argument {n : Int} {r : Read α} (h : StopsOnly (InBytesOrLong n) r) :
    StopsOnly (ReadCause (some n)) r :=
  h.mono fun _ cause => cause.imp_right fun named => ⟨named.1, n, rfl, named.2⟩

theorem sized_causes {n : Int} {negative : Fault} {short : Cursor → Fault}
    (refused : InBytes negative) (missing : ∀ c, InBytes (short c)) :
    StopsOnly (InBytesOrLong n)
      (if n < 0 then throw (Number.naming n negative)
        else Read.take n.toNat fun c => Number.naming n (short c)) :=
  .ite (.throw (naming_inBytesOrLong refused)) (.take fun c => naming_inBytesOrLong (missing c))

namespace Operation

theorem buffer_parts (label : Text) {o : Buffer.Operation} {parts : Parts}
    (known : o.parts? = some parts) :
    parts.Make (o.reading label).read ∧
      StopsOnly (ReadCause o.argument?) (o.reading label).read := by
  cases o <;> cases known
  case u8 => exact ⟨.map _ (.take 1 _), readCause_inBytes (.bufferWord label 1)⟩
  case u16 => exact ⟨.map _ (.take 2 _), readCause_inBytes (.bufferWord label 2)⟩
  case u32 => exact ⟨.map _ (.take 4 _), readCause_inBytes (.bufferWord label 4)⟩
  case u64 => exact ⟨.map _ (.take 8 _), readCause_inBytes (.bufferWord label 8)⟩
  case varint maximum =>
    exact ⟨⟨Nat.one_pos, .varint label maximum⟩, readCause_argument (.varint_named label maximum)⟩
  case length maximum =>
    exact ⟨⟨Nat.one_pos, .length label maximum⟩, readCause_argument (.length_named label maximum)⟩
  case bytes size =>
    exact ⟨.ite (.throw _) (.take _ _), readCause_argument (sized_causes rfl fun _ => rfl)⟩
  case byteArray maximum =>
    exact ⟨⟨Nat.one_pos, .bufferArray label maximum⟩,
      readCause_argument (.bufferArray_named label maximum)⟩
  case text => exact ⟨⟨Nat.one_pos, .bufferText label⟩, readCause_inBytes (.bufferText label)⟩
  case bigInteger => exact ⟨⟨Nat.one_pos, .bigInteger label⟩, readCause_inBytes (.bigInteger label)⟩
  case timestamp => exact ⟨.map _ (.take 4 _), readCause_inBytes (.bufferWord label 4)⟩

theorem stream_parts {o : Stream.Operation} {parts : Parts} (known : o.parts? = some parts) :
    parts.Make o.reading.read ∧ StopsOnly (ReadCause o.argument?) o.reading.read := by
  cases o <;> cases known
  case u8 => exact ⟨.map _ (.take 1 _), readCause_inBytes (.word 1)⟩
  case i32 => exact ⟨.map _ (.take 4 _), readCause_inBytes (.signed 4)⟩
  case u32 => exact ⟨.map _ (.take 4 _), readCause_inBytes (.word 4)⟩
  case i64 => exact ⟨.map _ (.take 8 _), readCause_inBytes (.signed 8)⟩
  case u64 => exact ⟨.map _ (.take 8 _), readCause_inBytes (.word 8)⟩
  case bytes size =>
    exact ⟨.ite (.throw _) (.take _ _), readCause_argument (sized_causes rfl fun _ => rfl)⟩
  case count => exact ⟨⟨by decide, .count⟩, readCause_inBytes .count⟩
  case byteArray => exact ⟨⟨by decide, .byteArray⟩, readCause_inBytes .byteArray⟩
  case byteArrays =>
    exact ⟨⟨by decide, .byteArrays⟩, readCause_inBytes (.bind .count fun n => .times .byteArray n)⟩
  case smallText => exact ⟨⟨Nat.one_pos, .smallText⟩, readCause_inBytes .smallText⟩
  case bytes32 => exact ⟨.take 32 _, readCause_inBytes (.stream_take 32)⟩
  case bytes64 => exact ⟨.take 64 _, readCause_inBytes (.stream_take 64)⟩
  case intx => exact ⟨⟨Nat.one_pos, .intx⟩, readCause_inBytes .intx⟩

theorem read_parts {o : Operation} {parts : Parts} (known : o.parts? = some parts) :
    parts.Make o.reading.read ∧ StopsOnly (ReadCause o.argument?) o.reading.read := by
  cases o with
  | buffer label o => exact buffer_parts label known
  | stream o => exact stream_parts known
  | rest =>
    cases known
    exact ⟨.rest, .rest⟩

end Operation

theorem Cursor.Reaches.remaining_eq_iff {c d : Cursor} (h : c.Reaches d) :
    d.remaining = c.remaining ↔ d.position = c.position := by
  obtain ⟨k, fits, rfl⟩ := h
  rw [remaining_advance]
  simp only [Cursor.advance]
  omega

/-- A failed read leaves the cursor where it was, with as many bytes left, exactly if it takes all
its bytes in one part or if the bytes of its first part are not there. Its cause lies in the bytes,
unless the size or maximum that it is given has too many digits to be named. -/
theorem failed_read_keeps_place_iff {o : Operation} {parts : Parts} (known : o.parts? = some parts)
    {c d : Cursor} {f : Fault} (stop : o.reading.read c = .error f d) :
    ReadCause o.argument? f ∧ (d.position = c.position ↔ parts.KeepPlace c) ∧
      (d.remaining = c.remaining ↔ parts.KeepPlace c) := by
  obtain ⟨make, causes⟩ := Operation.read_parts known
  have place := make.position_eq_iff stop
  have reached := (Operation.read_forward o).of_error stop
  exact ⟨causes c f d stop, place, reached.remaining_eq_iff.trans place⟩

/-- A count that is cut short leaves the cursor in front of it. A text whose bytes are missing
leaves it behind their number. -/
theorem cut_count_stays_and_cut_text_moves :
    (Stream.byteArrays ⟨0, [1, 0, 0]⟩ = .error (.streamShort 4 0 3) ⟨0, [1, 0, 0]⟩ ∧
      (Parts.several 4).KeepPlace ⟨0, [1, 0, 0]⟩) ∧
    Buffer.text "tail" ⟨2, [5, 0x61]⟩ = .error (.bufferLength "tail" 5 3 1) ⟨3, [0x61]⟩ ∧
      ¬ (Parts.several 1).KeepPlace ⟨2, [5, 0x61]⟩ ∧
      Cursor.remaining ⟨3, [0x61]⟩ ≠ Cursor.remaining ⟨2, [5, 0x61]⟩ := by
  have cut : Stream.byteArrays ⟨0, [1, 0, 0]⟩ = .error (.streamShort 4 0 3) ⟨0, [1, 0, 0]⟩ := rfl
  have short : Buffer.text "tail" ⟨2, [5, 0x61]⟩ =
      .error (.bufferLength "tail" 5 3 1) ⟨3, [0x61]⟩ := rfl
  have stays := failed_read_keeps_place_iff (o := .stream .byteArrays) rfl cut
  have moves := failed_read_keeps_place_iff (o := .buffer "tail" .text) rfl short
  have taken : ¬ (Parts.several 1).KeepPlace ⟨2, [5, 0x61]⟩ := by decide
  exact ⟨⟨cut, stays.2.1.mp rfl⟩, short, taken, taken ∘ moves.2.2.mp⟩

/-- The mark of a number of two bytes stays taken when these are missing. -/
theorem mark_stays_taken :
    Buffer.varint "buffer" Buffer.varintMax (.start [0xfd]) =
        .error (.bufferShort "buffer" 2 1 0) ⟨1, []⟩ ∧
      InBytes (.bufferShort "buffer" 2 1 0) ∧
      Cursor.position ⟨1, []⟩ ≠ (Cursor.start [0xfd]).position ∧
      Cursor.remaining ⟨1, []⟩ ≠ (Cursor.start [0xfd]).remaining :=
  ⟨rfl, rfl, by decide, by decide⟩

end ChainDecode
