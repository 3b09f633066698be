import ChainDecode.Proofs.Stopping

/-! # Readers that find their own end

What a reader takes does not depend on the bytes behind it, and of any shorter front it stops with a
cause that tells of the end. Only counts look at what is left, and what they announce takes at least
as many bytes as they count.
-/
namespace ChainDecode

variable {α β : Type} {short : Fault → Prop}

def Cuts (short : Fault → Prop) (r : Read α) (bytes : List UInt8) : Prop :=
  ∀ p, ∃ f c, r ⟨p, bytes⟩ = .error f c ∧ short f

/-- The reader takes exactly these bytes whatever follows, and no shorter front of them will do. -/
structure Needs (short : Fault → Prop) (r : Read α) (bytes : List UInt8) (a : α) : Prop where
  reads : Reads r bytes a
  cut : ∀ j < bytes.length, Cuts short r (bytes.take j)

/-- Wherever the reader succeeds, it needs exactly what it took. -/
def Delimits (short : Fault → Prop) (r : Read α) : Prop :=
  ∀ p bytes a q rest, r ⟨p, bytes⟩ = .ok a ⟨q, rest⟩ →
    ∃ front, bytes = front ++ rest ∧ Needs short r front a

theorem take_append_cases {front back : List UInt8} {j : Nat} (h : j < (front ++ back).length) :
    (j < front.length ∧ (front ++ back).take j = front.take j) ∨
      ∃ i < back.length, (front ++ back).take j = front ++ back.take i := by
  rw [List.length_append] at h
  rw [List.take_append]
  by_cases first : j < front.length
  · refine Or.inl ⟨first, ?_⟩
    rw [Nat.sub_eq_zero_of_le (Nat.le_of_lt first), List.take_zero, List.append_nil]
  · refine Or.inr ⟨j - front.length, by omega, ?_⟩
    rw [List.take_of_length_le (Nat.le_of_not_lt first)]

namespace Cuts

theorem bind {r : Read α} {f : α → Read β} {bytes : List UInt8} (h : Cuts short r bytes) :
    Cuts short (r >>= f) bytes := by
  intro p
  obtain ⟨g, c, stop, kind⟩ := h p
  exact ⟨g, c, bind_error stop, kind⟩

theorem after {r : Read α} {f : α → Read β} {front back : List UInt8} {a : α}
    (h : Reads r front a) (k : Cuts short (f a) back) : Cuts short (r >>= f) (front ++ back) := by
  intro p
  obtain ⟨g, c, stop, kind⟩ := k (p + front.length)
  exact ⟨g, c, (bind_ok (h p back)).trans stop, kind⟩

theorem count_bind {n : Nat} {f : Nat → Read β} {bytes : List UInt8} (small : Reads.IsCount n)
    (room : n ≤ bytes.length) (h : Cuts short (f n) bytes) :
    Cuts short (Stream.count >>= f) (Number.toSignedBytes 4 n ++ bytes) := by
  intro p
  obtain ⟨g, c, stop, kind⟩ := h (p + 4)
  exact ⟨g, c, (bind_ok (Reads.count_accepted small room p)).trans stop, kind⟩

theorem position_bind {f : Nat → Read α} {bytes : List UInt8} (h : ∀ p, Cuts short (f p) bytes) :
    Cuts short (Read.position >>= f) bytes :=
  fun p => h p p

theorem times {ι : Type} {r : Read α} {bytes : ι → List UInt8} {items : List ι}
    (each : ∀ x ∈ items,
      (∃ a, Reads r (bytes x) a) ∨ ∀ rest, Cuts short r (bytes x ++ rest))
    (stops : ∃ x ∈ items, ∀ rest, Cuts short r (bytes x ++ rest)) (rest : List UInt8) :
    Cuts short (ChainDecode.times r items.length) (items.flatMap bytes ++ rest) := by
  induction items with
  | nil =>
    obtain ⟨x, member, _⟩ := stops
    cases member
  | cons x items ih =>
    rw [List.flatMap_cons, List.append_assoc]
    rcases each x List.mem_cons_self with ⟨a, reads⟩ | cut
    · obtain ⟨y, member, cut⟩ := stops
      rcases List.mem_cons.mp member with rfl | behind
      · exact (cut _).bind
      · have more := ih (fun z hz => each z (List.mem_cons_of_mem x hz)) ⟨y, behind, cut⟩
        exact after reads more.bind
    · exact (cut _).bind

end Cuts

namespace Needs

theorem pure (a : α) : Needs short (pure a) [] a where
  reads := Reads.pure a
  cut := by
    intro j small
    cases small

theorem bind {r : Read α} {f : α → Read β} {front back : List UInt8} {a : α} {b : β}
    (h : Needs short r front a) (k : Needs short (f a) back b) :
    Needs short (r >>= f) (front ++ back) b where
  reads := h.reads.bind k.reads
  cut := by
    intro j small
    rcases take_append_cases small with ⟨first, same⟩ | ⟨i, second, same⟩
    · rw [same]
      exact (h.cut j first).bind
    · rw [same]
      exact Cuts.after h.reads (k.cut i second)

theorem onBytes {r : Read α} {front : List UInt8} {a : α} (h : Needs short r front a) {j : Nat}
    (small : j < front.length) : ∃ f, r.onBytes (front.take j) = .error f ∧ short f := by
  obtain ⟨f, c, stop, kind⟩ := h.cut j small 0
  have run : r.run (.start (front.take j)) = .error f c := stop
  refine ⟨f, ?_, kind⟩
  rw [Read.onBytes, run]

end Needs

namespace Delimits

theorem pure (a : α) : Delimits short (pure a) := by
  intro p bytes b q rest h
  cases h
  exact ⟨[], rfl, Needs.pure a⟩

theorem throw (f : Fault) : Delimits short (throw f : Read α) := by
  intro p bytes b q rest h
  cases h

theorem bind {r : Read α} {f : α → Read β} (h : Delimits short r)
    (k : ∀ a, Delimits short (f a)) : Delimits short (r >>= f) := by
  intro p bytes b q rest success
  obtain ⟨a, ⟨m, middle⟩, first, second⟩ := of_bind_ok success
  obtain ⟨front, rfl, needed⟩ := h p bytes a m middle first
  obtain ⟨back, rfl, more⟩ := k a m middle b q rest second
  exact ⟨front ++ back, (List.append_assoc ..).symm, needed.bind more⟩

theorem map {r : Read α} (f : α → β) (h : Delimits short r) : Delimits short (f <$> r) := by
  rw [← bind_pure_comp]
  exact bind h fun a => pure (f a)

theorem ite {p : Prop} [Decidable p] {x y : Read α} (h : Delimits short x)
    (k : Delimits short y) : Delimits short (if p then x else y) := by
  split
  · exact h
  · exact k

theorem times {r : Read α} (h : Delimits short r) (n : Nat) : Delimits short (times r n) := by
  induction n with
  | zero => exact pure []
  | succ n ih => exact bind h fun a => bind ih fun rest => pure (a :: rest)

theorem take {n : Nat} {cause : Cursor → Fault} (kind : ∀ c, short (cause c)) :
    Delimits short (Read.take n cause) := by
  intro p bytes a q rest h
  unfold Read.take at h
  split at h
  · rename_i enough
    cases h
    refine ⟨bytes.take n, (List.take_append_drop n bytes).symm, ?_, ?_⟩
    · exact Reads.take (List.length_take_of_le enough)
    · intro j small p
      rw [List.length_take_of_le enough] at small
      have few : ¬ n ≤ (Cursor.mk p ((bytes.take n).take j)).remaining := by
        simp only [Cursor.remaining, List.length_take]
        omega
      exact ⟨_, _, if_neg few, kind _⟩
  · cases h

theorem onBytes {r : Read α} (h : Delimits short r) {bytes : List UInt8} {a : α} {c : Cursor}
    (success : r.onBytes bytes = .ok (a, c)) :
    ∃ k ≤ bytes.length, c = ⟨k, bytes.drop k⟩ ∧ Needs short r (bytes.take k) a := by
  obtain ⟨q, rest⟩ := c
  have result := of_onBytes_ok success
  obtain ⟨front, rfl, needed⟩ := h 0 bytes a q rest result
  have same := (needed.reads 0 rest).symm.trans result
  rw [Nat.zero_add] at same
  cases same
  refine ⟨front.length, ?_, ?_, ?_⟩
  · simp
  · rw [List.drop_left]
  · rwa [List.take_left]

theorem taken {r : Read α} (h : Delimits short r) {start stop : Cursor} {a : α}
    (success : r start = .ok a stop) :
    Reads r (start.rest.take (stop.position - start.position)) a := by
  obtain ⟨p, bytes⟩ := start
  obtain ⟨q, rest⟩ := stop
  obtain ⟨front, rfl, needed⟩ := h p bytes a q rest success
  have same := (needed.reads p rest).symm.trans success
  cases same
  have size : p + front.length - p = front.length := by omega
  simpa [size] using needed.reads

end Delimits

/-- A number is read and accepted when as many bytes are left, and only then. -/
structure Announced (short : Fault → Prop) (r : Read Nat) (front : List UInt8) (n : Nat) :
    Prop where
  accepts : ∀ p rest, n ≤ rest.length → r ⟨p, front ++ rest⟩ = .ok n ⟨p + front.length, rest⟩
  refuses : ∀ rest, rest.length < n → Cuts short r (front ++ rest)
  cut : ∀ j < front.length, Cuts short r (front.take j)

def Announces (short : Fault → Prop) (r : Read Nat) : Prop :=
  ∀ p bytes n q rest, r ⟨p, bytes⟩ = .ok n ⟨q, rest⟩ →
    ∃ front, bytes = front ++ rest ∧ Announced short r front n

/-- A check passes with a number as long as that many bytes are left. -/
structure ChecksRoom (short : Fault → Prop) (check : Cursor → Read Nat) (n : Nat) : Prop where
  passes : ∀ c, n ≤ c.remaining → check c c = .ok n c
  refuses : ∀ c, c.remaining < n → ∃ f d, check c c = .error f d ∧ short f

theorem Delimits.announces {r : Read α} {check : α → Cursor → Read Nat} (h : Delimits short r)
    (k : ∀ a c n d, check a c c = .ok n d → d = c ∧ ChecksRoom short (check a) n) :
    Announces short (r >>= fun a => get >>= check a) := by
  intro p bytes n q rest success
  obtain ⟨a, ⟨m, middle⟩, first, second⟩ := of_bind_ok success
  obtain ⟨front, rfl, needed⟩ := h p bytes a m middle first
  rw [bind_get] at second
  obtain ⟨same, room⟩ := k a _ _ _ second
  cases same
  refine ⟨front, rfl, ?_, ?_, fun j small => (needed.cut j small).bind⟩
  · intro p rest enough
    exact (bind_ok (needed.reads p rest)).trans (room.passes ⟨p + front.length, rest⟩ enough)
  · intro rest few
    exact Cuts.after needed.reads fun p => room.refuses ⟨p, rest⟩ few

/-- Items that take a byte each at least need no more bytes than they take. -/
theorem Announces.bind {r : Read Nat} {f : Nat → Read β} (h : Announces short r)
    (enough : ∀ n, Takes n (f n)) (k : ∀ n, Delimits short (f n)) : Delimits short (r >>= f) := by
  intro p bytes b q rest success
  obtain ⟨n, ⟨m, middle⟩, first, second⟩ := of_bind_ok success
  obtain ⟨front, rfl, announced⟩ := h p bytes n m middle first
  obtain ⟨back, rfl, needed⟩ := k n m middle b q rest second
  have room : n ≤ back.length := by
    have taken := enough n _ _ _ second
    simp only [Cursor.remaining, List.length_append] at taken
    omega
  refine ⟨front ++ back, (List.append_assoc ..).symm, ?_, ?_⟩
  · intro p rest
    have fits : n ≤ (back ++ rest).length := by
      rw [List.length_append]
      omega
    rw [List.append_assoc, bind_ok (announced.accepts p (back ++ rest) fits),
      needed.reads (p + front.length) rest, List.length_append, Nat.add_assoc]
  · intro j small
    rcases take_append_cases small with ⟨inside, same⟩ | ⟨i, behind, same⟩
    · rw [same]
      exact (announced.cut j inside).bind
    -- The number is refused, or the items end early.
    rw [same]
    by_cases few : (back.take i).length < n
    · exact (announced.refuses _ few).bind
    · intro p
      obtain ⟨f, c, stop, kind⟩ := needed.cut i behind (p + front.length)
      have passed := announced.accepts p _ (Nat.le_of_not_lt few)
      exact ⟨f, c, (bind_ok passed).trans stop, kind⟩

def EndsStream (f : Fault) : Prop := f.isEndOfStream = true

theorem EndsStream.kind {f : Fault} (h : EndsStream f) : f.kind = .bounds := by
  cases f with
  | streamShort => rfl
  | streamCount => rfl
  | _ => cases h

theorem EndsStream.message {f : Fault} (h : EndsStream f) :
    f.message.startsWith "end of stream" = true := by
  cases f with
  | streamShort =>
    simp only [Fault.message, Text.ofString_append, Text.append_assoc]
    exact Text.startsWith_of_front (by decide) _
  | streamCount =>
    simp only [Fault.message, Text.ofString_append, Text.append_assoc]
    exact Text.startsWith_of_front (by decide) _
  | _ => cases h

namespace Delimits

theorem stream_take (n : Nat) : Delimits EndsStream (Stream.take n) := take fun _ => rfl

theorem word (width : Nat) : Delimits EndsStream (Stream.word width) := map _ (stream_take width)

theorem signed (width : Nat) : Delimits EndsStream (Stream.signed width) :=
  map _ (stream_take width)

theorem count : Announces EndsStream Stream.count := by
  refine announces (signed 4) fun a c n d success => ?_
  by_cases negative : a < 0
  · rw [if_pos negative] at success
    cases success
  rw [if_neg negative] at success
  by_cases few : c.remaining < a.toNat
  · rw [if_pos few] at success
    cases success
  rw [if_neg few] at success
  cases success
  refine ⟨rfl, ?_, ?_⟩
  · intro c enough
    rw [if_neg negative, if_neg (by omega)]
    rfl
  · intro c few
    rw [if_neg negative, if_pos few]
    exact ⟨_, _, rfl, rfl⟩

theorem byteArray : Delimits EndsStream Stream.byteArray :=
  count.bind Takes.stream_take stream_take

theorem byteArrays : Delimits EndsStream Stream.byteArrays :=
  count.bind (Takes.times_each (Takes.byteArray.weaken (by omega))) (times byteArray)

theorem smallText : Delimits EndsStream Stream.smallText :=
  bind (word 1) fun n => map _ (stream_take n)

theorem intx : Delimits EndsStream Stream.intx :=
  bind (word 1) fun _ => bind (word _) fun _ => pure _

theorem counted {r : Read α} (h : Delimits EndsStream r) (each : Takes 1 r) (f : List α → β) :
    Delimits EndsStream
      (do let n ← Stream.count; let items ← ChainDecode.times r n; Pure.pure (f items)) :=
  count.bind (fun n => (Takes.times_each each n).before fun _ => .pure _) fun n =>
    bind (times h n) fun _ => pure _

end Delimits

def EndsBuffer (f : Fault) : Prop := f.kind = .bounds

namespace Delimits

variable (label : Text)

theorem buffer_take (n : Nat) : Delimits EndsBuffer (Buffer.take label n) := take fun _ => rfl

theorem bufferWord (width : Nat) : Delimits EndsBuffer (Buffer.word label width) :=
  map _ (buffer_take label width)

theorem anyVarint : Delimits EndsBuffer (Buffer.anyVarint label) :=
  bind (bufferWord label 1) fun first =>
    ite (bufferWord label 2) (ite (bufferWord label 4) (ite (bufferWord label 8) (pure first)))

theorem varint (maximum : Int) : Delimits EndsBuffer (Buffer.varint label maximum) :=
  bind (anyVarint label) fun n => ite (throw _) (pure n)

theorem length (maximum : Int) : Announces EndsBuffer (Buffer.length label maximum) := by
  refine announces (varint label maximum) fun a c n d success => ?_
  by_cases few : c.remaining < a
  · rw [if_pos few] at success
    cases success
  rw [if_neg few] at success
  cases success
  refine ⟨rfl, ?_, ?_⟩
  · intro c enough
    rw [if_neg (by omega)]
    rfl
  · intro c few
    rw [if_pos few]
    exact ⟨_, _, rfl, rfl⟩

theorem bufferArray (maximum : Int) : Delimits EndsBuffer (Buffer.byteArray label maximum) :=
  (length label maximum).bind (Takes.buffer_take label) (buffer_take label)

theorem bufferText : Delimits EndsBuffer (Buffer.text label) := map _ (bufferArray label _)

theorem bigInteger : Delimits EndsBuffer (Buffer.bigInteger label) :=
  bind (bufferWord label 1) fun n => map _ (buffer_take label n)

end Delimits

end ChainDecode
