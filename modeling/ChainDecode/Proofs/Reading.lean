import ChainDecode.Buffer
import ChainDecode.Proofs.Bytes
import ChainDecode.Stream

/-! # Reading what was written

A reader is tied to the bytes that it accepts wherever they stand and whatever follows them, which
is the form that composes.
-/
namespace ChainDecode

variable {σ α β : Type}

theorem bind_ok {x : EStateM Fault σ α} {f : α → EStateM Fault σ β} {s t : σ} {a : α}
    (h : x s = .ok a t) : (x >>= f) s = f a t := by
  show EStateM.bind x f s = _
  rw [EStateM.bind, h]

theorem bind_error {x : EStateM Fault σ α} {f : α → EStateM Fault σ β} {s t : σ} {e : Fault}
    (h : x s = .error e t) : (x >>= f) s = .error e t := by
  show EStateM.bind x f s = _
  rw [EStateM.bind, h]

theorem of_bind_ok {x : EStateM Fault σ α} {f : α → EStateM Fault σ β} {s t : σ} {b : β}
    (h : (x >>= f) s = .ok b t) : ∃ a u, x s = .ok a u ∧ f a u = .ok b t := by
  cases first : x s with
  | ok a u => exact ⟨a, u, rfl, by rwa [bind_ok first] at h⟩
  | error e u =>
    rw [bind_error first] at h
    cases h

theorem of_bind_error {x : EStateM Fault σ α} {f : α → EStateM Fault σ β} {s t : σ} {e : Fault}
    (h : (x >>= f) s = .error e t) :
    x s = .error e t ∨ ∃ a u, x s = .ok a u ∧ f a u = .error e t := by
  cases first : x s with
  | ok a u => exact Or.inr ⟨a, u, rfl, by rwa [bind_ok first] at h⟩
  | error g u =>
    rw [bind_error first] at h
    cases h
    exact Or.inl rfl

theorem bind_get {f : σ → EStateM Fault σ β} {s : σ} : (get >>= f) s = f s s := rfl

theorem except_bind_ok {x : Except Fault α} {f : α → Except Fault β} {b : β} :
    (x >>= f) = .ok b ↔ ∃ a, x = .ok a ∧ f a = .ok b := by
  cases x with
  | ok a => simp [Bind.bind, Except.bind]
  | error e => simp [Bind.bind, Except.bind]

theorem except_bind_error {x : Except Fault α} {f : α → Except Fault β} {e : Fault} :
    (x >>= f) = .error e ↔ x = .error e ∨ ∃ a, x = .ok a ∧ f a = .error e := by
  cases x with
  | ok a => simp [Bind.bind, Except.bind]
  | error e => simp [Bind.bind, Except.bind]

theorem except_map_ok {x : Except Fault α} {f : α → β} {b : β} :
    x.map f = .ok b ↔ ∃ a, x = .ok a ∧ f a = b := by
  cases x with
  | ok a => simp [Except.map]
  | error e => simp [Except.map]

theorem except_map_error {x : Except Fault α} {f : α → β} {e : Fault} :
    x.map f = .error e ↔ x = .error e := by
  cases x with
  | ok a => simp [Except.map]
  | error e => simp [Except.map]

theorem of_onBytes_ok {r : Read α} {bytes : List UInt8} {a : α} {c : Cursor}
    (h : r.onBytes bytes = .ok (a, c)) : r (.start bytes) = .ok a c := by
  unfold Read.onBytes at h
  cases result : r.run (.start bytes) with
  | ok b d =>
    rw [result] at h
    cases h
    exact result
  | error f d =>
    rw [result] at h
    cases h

theorem onBytes_map {r : Read α} (f : α → β) (bytes : List UInt8) :
    (f <$> r).onBytes bytes = (r.onBytes bytes).map fun found => (f found.1, found.2) := by
  have run : (f <$> r).run (.start bytes) = EStateM.map f r (.start bytes) := rfl
  rw [Read.onBytes, Read.onBytes, run, EStateM.map, EStateM.run]
  cases r (.start bytes) with
  | ok a c => rfl
  | error e c => rfl

/-- The reader takes exactly these bytes and yields this value, whatever follows. -/
def Reads (r : Read α) (bytes : List UInt8) (a : α) : Prop :=
  ∀ p rest, r ⟨p, bytes ++ rest⟩ = .ok a ⟨p + bytes.length, rest⟩

namespace Reads

theorem pure (a : α) : Reads (pure a) [] a := fun _ _ => rfl

theorem bind {r : Read α} {f : α → Read β} {front back : List UInt8} {a : α} {b : β}
    (h : Reads r front a) (k : Reads (f a) back b) : Reads (r >>= f) (front ++ back) b := by
  intro p rest
  rw [List.append_assoc, bind_ok (h p (back ++ rest)), k (p + front.length) rest,
    List.length_append, Nat.add_assoc]

theorem bind_pure {r : Read α} {bytes : List UInt8} {a : α} (f : α → β) (h : Reads r bytes a) :
    Reads (r >>= fun a => Pure.pure (f a)) bytes (f a) := by
  have whole := bind (f := fun a => Pure.pure (f a)) h (pure (f a))
  rwa [List.append_nil] at whole

theorem map {r : Read α} {bytes : List UInt8} {a : α} (f : α → β) (h : Reads r bytes a) :
    Reads (f <$> r) bytes (f a) := by
  intro p rest
  show EStateM.map f r _ = _
  rw [EStateM.map, h]

theorem take {n : Nat} {short : Cursor → Fault} {bytes : List UInt8} (h : bytes.length = n) :
    Reads (Read.take n short) bytes bytes := by
  intro p rest
  subst h
  simp [Read.take, Cursor.remaining, Cursor.advance]

theorem times {ι : Type} {r : Read α} {items : List ι} {bytes : ι → List UInt8} {value : ι → α}
    (h : ∀ x ∈ items, Reads r (bytes x) (value x)) :
    Reads (times r items.length) (items.flatMap bytes) (items.map value) := by
  induction items with
  | nil => exact pure []
  | cons x items ih =>
    have rest := ih fun y hy => h y (List.mem_cons_of_mem x hy)
    exact bind (h x List.mem_cons_self) (bind_pure (value x :: ·) rest)

theorem once {r : Read α} {bytes : List UInt8} {a : α} (h : Reads r bytes a) :
    Reads (ChainDecode.times r 1) bytes [a] := by
  have none : Reads (ChainDecode.times r 0) [] [] := pure []
  have one : Reads (ChainDecode.times r 1) (bytes ++ []) [a] := bind h (bind_pure (a :: ·) none)
  rwa [List.append_nil] at one

theorem position_bind {f : Nat → Read α} {bytes : List UInt8} {a : α}
    (h : ∀ p, Reads (f p) bytes a) : Reads (Read.position >>= f) bytes a :=
  fun p rest => h p p rest

theorem onBytes {r : Read α} {bytes : List UInt8} {a : α} (h : Reads r bytes a)
    (rest : List UInt8) : r.onBytes (bytes ++ rest) = .ok (a, ⟨bytes.length, rest⟩) := by
  have run : r.run (.start (bytes ++ rest)) = .ok a ⟨0 + bytes.length, rest⟩ := h 0 rest
  rw [Read.onBytes, run, Nat.zero_add]

end Reads

namespace Reads

theorem word {width n : Nat} (h : n < Number.wordSpan width) :
    Reads (Stream.word width) (Number.toBytes width n) n := by
  have value := Number.ofBytes_toBytes h
  conv => rhs; rw [← value]
  exact map Number.ofBytes (take (Number.length_toBytes ..))

theorem signed {width : Nat} {n : Int} (even : Number.wordSpan width % 2 = 0)
    (low : -(Number.wordSpan width : Int) ≤ 2 * n) (high : 2 * n < Number.wordSpan width) :
    Reads (Stream.signed width) (Number.toSignedBytes width n) n := by
  have value := Number.ofSignedBytes_toSignedBytes even low high
  conv => rhs; rw [← value]
  exact map Number.ofSignedBytes (take (Number.length_toSignedBytes ..))

/-- A number that fits the four bytes of a count. -/
def IsCount (n : Nat) : Prop := n < 0x80000000

instance (n : Nat) : Decidable (IsCount n) := inferInstanceAs (Decidable (n < 0x80000000))

theorem signedCount {n : Nat} (small : IsCount n) :
    Reads (Stream.signed 4) (Number.toSignedBytes 4 n) n := by
  have span : Number.wordSpan 4 = 0x100000000 := rfl
  unfold IsCount at small
  exact signed (by rw [span]) (by omega) (by omega)

theorem count_accepted {n : Nat} {rest : List UInt8} (small : IsCount n) (room : n ≤ rest.length)
    (p : Nat) : Stream.count ⟨p, Number.toSignedBytes 4 n ++ rest⟩ = .ok n ⟨p + 4, rest⟩ := by
  have fits : ¬ rest.length < (n : Int).toNat := by
    rw [Int.toNat_natCast]
    omega
  rw [Stream.count, bind_ok (signedCount small p rest), bind_get, if_neg (by omega)]
  rw [Cursor.remaining, if_neg fits]
  rfl

theorem count_bind {n : Nat} {f : Nat → Read β} {bytes : List UInt8} {b : β} (small : IsCount n)
    (room : n ≤ bytes.length) (h : Reads (f n) bytes b) :
    Reads (Stream.count >>= f) (Number.toSignedBytes 4 n ++ bytes) b := by
  intro p rest
  have fits : n ≤ (bytes ++ rest).length := by
    rw [List.length_append]
    omega
  rw [List.append_assoc, bind_ok (count_accepted small fits p), h (p + 4) rest,
    List.length_append, Number.length_toSignedBytes, Nat.add_assoc]

theorem byteArray {bytes : List UInt8} (h : IsCount bytes.length) :
    Reads Stream.byteArray (Number.toSignedBytes 4 bytes.length ++ bytes) bytes :=
  count_bind h (Nat.le_refl _) (take rfl)

theorem length_le_flatMap {ι : Type} {items : List ι} {bytes : ι → List UInt8}
    (h : ∀ x ∈ items, bytes x ≠ []) : items.length ≤ (items.flatMap bytes).length := by
  induction items with
  | nil => exact Nat.le_refl _
  | cons x items ih =>
    have rest := ih fun y hy => h y (List.mem_cons_of_mem x hy)
    have first := List.length_pos_iff.mpr (h x List.mem_cons_self)
    simp only [List.flatMap_cons, List.length_append, List.length_cons]
    omega

theorem counted {ι : Type} {r : Read α} {items : List ι} {bytes : ι → List UInt8} {value : ι → α}
    (small : IsCount items.length) (h : ∀ x ∈ items, Reads r (bytes x) (value x))
    (nonempty : ∀ x ∈ items, bytes x ≠ []) :
    Reads (do let n ← Stream.count; ChainDecode.times r n)
      (Number.toSignedBytes 4 items.length ++ items.flatMap bytes) (items.map value) :=
  count_bind small (length_le_flatMap nonempty) (times h)

theorem smallText {s : String} (h : (Text.Utf8.encode s).length < 256) :
    Reads Stream.smallText
      (Number.toBytes 1 (Text.Utf8.encode s).length ++ Text.Utf8.encode s) s := by
  have value := Text.Utf8.decode_encode s
  have text : Reads (Text.Utf8.decode <$> Stream.take (Text.Utf8.encode s).length)
      (Text.Utf8.encode s) s := by
    conv => rhs; rw [← value]
    exact map Text.Utf8.decode (take rfl)
  exact bind (word h) text

theorem noText : Reads Stream.smallText [0] "" := by
  have empty : Text.Utf8.encode "" = [] := by decide +kernel
  have text := smallText (s := "") (by rw [empty]; decide)
  rwa [empty] at text

theorem intx {negative : Bool} {magnitude : List UInt8} (h : magnitude.length < 128) :
    Reads Stream.intx
      (Number.toBytes 1 (magnitude.length + if negative then 128 else 0) ++ magnitude)
      (if negative then -(Number.ofBytes magnitude : Int) else Number.ofBytes magnitude) := by
  have small : magnitude.length + (if negative then 128 else 0) < Number.wordSpan 1 := by
    change _ < 256
    split <;> omega
  refine bind (word small) ?_
  have length : (magnitude.length + if negative then 128 else 0) % 128 = magnitude.length := by
    split <;> omega
  have number : Reads (Stream.word magnitude.length) magnitude (Number.ofBytes magnitude) :=
    map Number.ofBytes (take rfl)
  rw [length]
  cases negative with
  | false => simpa [h] using bind_pure (fun n : Nat => (n : Int)) number
  | true =>
    have above : ¬ magnitude.length + 128 < 128 := by omega
    simpa [above] using bind_pure (fun n : Nat => -(n : Int)) number

end Reads

def Buffer.shortest (n : Nat) : List UInt8 :=
  if n < 0xfd then Number.toBytes 1 n
  else if n < 0x10000 then 0xfd :: Number.toBytes 2 n
  else if n < 0x100000000 then 0xfe :: Number.toBytes 4 n
  else 0xff :: Number.toBytes 8 n

/-- A number of variable width in any form that holds it. -/
inductive Buffer.Varint where
  | byte (n : UInt8) (unmarked : n.toNat < 0xfd)
  | two (n : UInt16)
  | four (n : UInt32)
  | eight (n : UInt64)

namespace Buffer.Varint

def value : Varint → Nat
  | byte n _ => n.toNat
  | two n => n.toNat
  | four n => n.toNat
  | eight n => n.toNat

def wire : Varint → List UInt8
  | byte n _ => Number.toBytes 1 n.toNat
  | two n => 0xfd :: Number.toBytes 2 n.toNat
  | four n => 0xfe :: Number.toBytes 4 n.toNat
  | eight n => 0xff :: Number.toBytes 8 n.toNat

theorem value_lt (v : Varint) : v.value < Number.wordSpan 8 := by
  change v.value < 0x10000000000000000
  cases v with
  | byte n unmarked => exact Nat.lt_trans n.toNat_lt (by decide)
  | two n => exact Nat.lt_trans n.toNat_lt (by decide)
  | four n => exact Nat.lt_trans n.toNat_lt (by decide)
  | eight n => exact n.toNat_lt

end Buffer.Varint

theorem Buffer.shortest_cons (n : Nat) :
    ∃ b rest, Buffer.shortest n = b :: rest ∧ (b.toNat = n ∨ 0xfd ≤ b.toNat ∧ 0xfd ≤ n) := by
  unfold Buffer.shortest
  by_cases one : n < 0xfd
  · rw [if_pos one]
    refine ⟨UInt8.ofNat (n % 256), [], rfl, Or.inl ?_⟩
    rw [UInt8.toNat_ofNat']
    omega
  rw [if_neg one]
  have long : 0xfd ≤ n := by omega
  split
  · exact ⟨0xfd, _, rfl, Or.inr ⟨by decide, long⟩⟩
  split
  · exact ⟨0xfe, _, rfl, Or.inr ⟨by decide, long⟩⟩
  · exact ⟨0xff, _, rfl, Or.inr ⟨by decide, long⟩⟩

namespace Reads

theorem bufferWord {label : Text} {width n : Nat} (h : n < Number.wordSpan width) :
    Reads (Buffer.word label width) (Number.toBytes width n) n := by
  have value := Number.ofBytes_toBytes h
  conv => rhs; rw [← value]
  exact map Number.ofBytes (take (Number.length_toBytes ..))

theorem timestamp (label : Text) (seconds : UInt32) :
    Reads (Buffer.timestamp label) (Number.toBytes 4 seconds.toNat) seconds.toNat :=
  bufferWord seconds.toNat_lt

theorem bufferByte (label : Text) (b : UInt8) : Reads (Buffer.word label 1) [b] b.toNat := by
  have byte : Reads (Buffer.take label 1) [b] [b] := take rfl
  exact map Number.ofBytes byte

section Marks

variable {label : Text} {n : Nat}

theorem anyVarint_byte (h : n < 0xfd) : Reads (Buffer.anyVarint label) (Number.toBytes 1 n) n := by
  have byte : Reads (Buffer.word label 1) (Number.toBytes 1 n) n :=
    bufferWord (by change _ < 256; omega)
  intro p rest
  rw [Buffer.anyVarint, bind_ok (byte p rest), if_neg (by omega), if_neg (by omega),
    if_neg (by omega)]
  rfl

theorem anyVarint_two (h : n < 0x10000) :
    Reads (Buffer.anyVarint label) (0xfd :: Number.toBytes 2 n) n :=
  bind (bufferByte label 0xfd) (bufferWord (by change _ < 0x10000; omega))

theorem anyVarint_four (h : n < 0x100000000) :
    Reads (Buffer.anyVarint label) (0xfe :: Number.toBytes 4 n) n :=
  bind (bufferByte label 0xfe) (bufferWord (by change _ < 0x100000000; omega))

theorem anyVarint_eight (h : n < Number.wordSpan 8) :
    Reads (Buffer.anyVarint label) (0xff :: Number.toBytes 8 n) n :=
  bind (bufferByte label 0xff) (bufferWord h)

end Marks

theorem anyVarint {label : Text} {n : Nat} (h : n < Number.wordSpan 8) :
    Reads (Buffer.anyVarint label) (Buffer.shortest n) n := by
  unfold Buffer.shortest
  split
  · exact anyVarint_byte ‹_›
  split
  · exact anyVarint_two ‹_›
  split
  · exact anyVarint_four ‹_›
  · exact anyVarint_eight h

theorem varint_of_any {label : Text} {bytes : List UInt8} {n : Nat} {maximum : Int}
    (h : Reads (Buffer.anyVarint label) bytes n) (allowed : (n : Int) ≤ maximum) :
    Reads (Buffer.varint label maximum) bytes n := by
  intro p rest
  rw [Buffer.varint, bind_ok (h p rest), if_neg (by omega)]
  rfl

theorem allowed_of_lt {n : Nat} (small : n < Number.wordSpan 8) : (n : Int) ≤ Buffer.varintMax := by
  change n < 0x10000000000000000 at small
  simp only [Buffer.varintMax]
  omega

theorem length_bind_of_any {label : Text} {n : Nat} {f : Nat → Read β} {front bytes : List UInt8}
    {b : β} (any : Reads (Buffer.anyVarint label) front n) (small : n < Number.wordSpan 8)
    (room : n ≤ bytes.length) (h : Reads (f n) bytes b) :
    Reads (Buffer.length label Buffer.varintMax >>= f) (front ++ bytes) b := by
  intro p rest
  have fits : ¬ (bytes ++ rest).length < n := by
    simp only [List.length_append]
    omega
  have counted : Buffer.length label Buffer.varintMax ⟨p, front ++ (bytes ++ rest)⟩ =
      .ok n ⟨p + front.length, bytes ++ rest⟩ := by
    rw [Buffer.length, bind_ok (varint_of_any any (allowed_of_lt small) p (bytes ++ rest)),
      bind_get]
    rw [Cursor.remaining, if_neg fits]
    rfl
  rw [List.append_assoc, bind_ok counted, h _ rest, List.length_append, Nat.add_assoc]

theorem length_bind {label : Text} {n : Nat} {f : Nat → Read β} {bytes : List UInt8} {b : β}
    (small : n < Number.wordSpan 8) (room : n ≤ bytes.length) (h : Reads (f n) bytes b) :
    Reads (Buffer.length label Buffer.varintMax >>= f) (Buffer.shortest n ++ bytes) b :=
  length_bind_of_any (anyVarint small) small room h

theorem bufferArray {label : Text} {bytes : List UInt8} (h : bytes.length < Number.wordSpan 8) :
    Reads (Buffer.byteArray label Buffer.varintMax) (Buffer.shortest bytes.length ++ bytes)
      bytes :=
  length_bind h (Nat.le_refl _) (take rfl)

theorem bufferText {label : Text} {s : String}
    (h : (Text.Utf8.encode s).length < Number.wordSpan 8) :
    Reads (Buffer.text label)
      (Buffer.shortest (Text.Utf8.encode s).length ++ Text.Utf8.encode s) s := by
  have value := Text.Utf8.decode_encode s
  conv => rhs; rw [← value]
  exact map Text.Utf8.decode (bufferArray h)

section Forms

variable {label : Text} (v : Buffer.Varint)

theorem anyVarint_form : Reads (Buffer.anyVarint label) v.wire v.value := by
  cases v with
  | byte n unmarked => exact anyVarint_byte unmarked
  | two n => exact anyVarint_two n.toNat_lt
  | four n => exact anyVarint_four n.toNat_lt
  | eight n => exact anyVarint_eight n.toNat_lt

theorem varint_form : Reads (Buffer.varint label Buffer.varintMax) v.wire v.value :=
  varint_of_any (anyVarint_form v) (allowed_of_lt v.value_lt)

theorem bufferArray_form {bytes : List UInt8} (exact : bytes.length = v.value) :
    Reads (Buffer.byteArray label Buffer.varintMax) (v.wire ++ bytes) bytes :=
  length_bind_of_any (anyVarint_form v) v.value_lt (Nat.le_of_eq exact.symm) (take exact)

theorem bufferText_form {s : String} (exact : (Text.Utf8.encode s).length = v.value) :
    Reads (Buffer.text label) (v.wire ++ Text.Utf8.encode s) s := by
  have value := Text.Utf8.decode_encode s
  conv => rhs; rw [← value]
  exact map Text.Utf8.decode (bufferArray_form v exact)

end Forms

theorem bigInteger {label : Text} {width : UInt8} {n : Int}
    (low : -(Number.wordSpan width.toNat : Int) ≤ 2 * n)
    (high : 2 * n < Number.wordSpan width.toNat) :
    Reads (Buffer.bigInteger label) (width :: Number.toSignedBytes width.toNat n) n := by
  have value := Number.ofSignedBytes_of_fits low high
  have bytes : Reads (Buffer.take label width.toNat) (Number.toSignedBytes width.toNat n)
      (Number.toSignedBytes width.toNat n) := take (Number.length_toSignedBytes ..)
  conv => rhs; rw [← value]
  exact bind (bufferByte label width) (map Number.ofSignedBytes bytes)

end Reads

end ChainDecode
