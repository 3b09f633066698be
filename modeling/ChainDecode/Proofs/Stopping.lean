import ChainDecode.Proofs.Number.Numeral
import ChainDecode.Proofs.Reading

/-! # What every run of a step has in common

Whatever state a step starts from: of which kind its values are, how many bytes it takes at least,
and with which causes it can stop. Each is carried from the parts of a step to the whole.
-/
namespace ChainDecode

variable {σ α β : Type}

/-- Every value that a step yields is of a kind. -/
def Yields (kind : α → Prop) (x : EStateM Fault σ α) : Prop := ∀ s a t, x s = .ok a t → kind a

namespace Yields

theorem pure {kind : α → Prop} {a : α} (h : kind a) :
    Yields kind (pure a : EStateM Fault σ α) := by
  intro s b t e
  cases e
  exact h

theorem bind {kind : α → Prop} {next : β → Prop} {x : EStateM Fault σ α}
    {f : α → EStateM Fault σ β} (h : Yields kind x) (k : ∀ a, kind a → Yields next (f a)) :
    Yields next (x >>= f) := by
  intro s b t e
  obtain ⟨a, u, first, second⟩ := of_bind_ok e
  exact k a (h s a u first) u b t second

theorem after {next : β → Prop} {x : EStateM Fault σ α} {f : α → EStateM Fault σ β}
    (k : ∀ a, Yields next (f a)) : Yields next (x >>= f) := by
  intro s b t e
  obtain ⟨a, u, _, second⟩ := of_bind_ok e
  exact k a u b t second

theorem times {kind : α → Prop} {step : EStateM Fault σ α} (h : Yields kind step) (n : Nat) :
    Yields (fun as => ∀ a ∈ as, kind a) (ChainDecode.times step n) := by
  induction n with
  | zero => exact pure (List.forall_mem_nil _)
  | succ n ih =>
    exact bind h fun a one => bind ih fun rest others =>
      pure (List.forall_mem_cons.mpr ⟨one, others⟩)

theorem take (n : Nat) (short : Cursor → Fault) :
    Yields (fun bytes => bytes.length = n) (Read.take n short) := by
  intro c bytes d e
  unfold Read.take at e
  split at e
  · rename_i enough
    cases e
    exact List.length_take_of_le enough
  · cases e

theorem map {kind : α → Prop} {next : β → Prop} {x : EStateM Fault σ α} {f : α → β}
    (h : Yields kind x) (k : ∀ a, kind a → next (f a)) : Yields next (f <$> x) := by
  rw [← bind_pure_comp]
  exact bind h fun a one => pure (k a one)

theorem ofBytes {width : Nat} {r : Read (List UInt8)} (h : Yields (·.length = width) r) :
    Yields (· < Number.wordSpan width) (Number.ofBytes <$> r) :=
  map h fun bytes length => length ▸ Number.ofBytes_lt bytes

theorem word (width : Nat) : Yields (· < Number.wordSpan width) (Stream.word width) :=
  ofBytes (take width _)

theorem bufferWord (label : Text) (width : Nat) :
    Yields (· < Number.wordSpan width) (Buffer.word label width) := ofBytes (take width _)

theorem signed_short (width : Nat) (few : width ≤ 8) :
    Yields (fun n => ¬ Number.IsLong n) (Stream.signed width) :=
  map (take width _) fun bytes length => by
    have small := Number.ofBytes_lt bytes
    have span : Number.wordSpan width ≤ Number.wordSpan 8 :=
      Nat.pow_le_pow_right (by decide) few
    have eight : Number.wordSpan 8 = 0x10000000000000000 := rfl
    refine Number.word_short ?_
    unfold Number.ofSignedBytes
    rw [length] at small ⊢
    dsimp only
    split <;> omega

theorem throw {kind : α → Prop} (f : Fault) :
    Yields kind (throw f : EStateM Fault σ α) := by
  intro s a t e
  cases e

theorem ite {kind : α → Prop} {c : Prop} [Decidable c] {x y : EStateM Fault σ α}
    (h : Yields kind x) (k : Yields kind y) : Yields kind (if c then x else y) := by
  split
  · exact h
  · exact k

theorem mono {kind other : α → Prop} {x : EStateM Fault σ α} (h : Yields kind x)
    (k : ∀ a, kind a → other a) : Yields other x := fun s a t e => k a (h s a t e)

/-- Every form of a number of variable width fits into eight bytes. -/
theorem varint (label : Text) (maximum : Int) :
    Yields (· < Number.wordSpan 8) (Buffer.varint label maximum) := by
  have word (width : Nat) (small : Number.wordSpan width ≤ Number.wordSpan 8) :
      Yields (· < Number.wordSpan 8) (Buffer.word label width) :=
    (bufferWord label width).mono fun _ below => Nat.lt_of_lt_of_le below small
  have one := word 1 (by decide)
  have any : Yields (· < Number.wordSpan 8) (Buffer.anyVarint label) :=
    .bind one fun first below =>
      .ite (word 2 (by decide)) (.ite (word 4 (by decide)) (.ite (word 8 (by decide))
        (.pure below)))
  exact .bind any fun n below => .ite (.throw _) (.pure below)

theorem onBytes {kind : α → Prop} {r : Read α} (h : Yields kind r) {bytes : List UInt8} {a : α}
    {c : Cursor} (e : r.onBytes bytes = .ok (a, c)) : kind a := h _ _ _ (of_onBytes_ok e)

end Yields

def Takes (least : Nat) (r : Read α) : Prop :=
  ∀ c a d, r c = .ok a d → d.remaining + least ≤ c.remaining

namespace Takes

theorem pure (a : α) : Takes 0 (pure a) := by
  intro c b d e
  cases e
  exact Nat.le_refl _

theorem weaken {r : Read α} {least fewer : Nat} (h : Takes least r) (le : fewer ≤ least) :
    Takes fewer r := by
  intro c a d e
  have taken := h c a d e
  omega

theorem bind {r : Read α} {f : α → Read β} {first second : Nat} (h : Takes first r)
    (k : ∀ a, Takes second (f a)) : Takes (first + second) (r >>= f) := by
  intro c b d e
  obtain ⟨a, u, here, there⟩ := of_bind_ok e
  have taken := h c a u here
  have more := k a u b d there
  omega

theorem map {r : Read α} {least : Nat} (f : α → β) (h : Takes least r) : Takes least (f <$> r) := by
  rw [← bind_pure_comp]
  exact bind h fun a => pure (f a)

theorem before {r : Read α} {f : α → Read β} {least : Nat} (h : Takes least r)
    (k : ∀ a, Takes 0 (f a)) : Takes least (r >>= f) := bind h k

theorem times {r : Read α} (h : Takes 0 r) (n : Nat) : Takes 0 (times r n) := by
  induction n with
  | zero => exact pure []
  | succ n ih => exact bind h fun a => bind ih fun rest => pure (a :: rest)

theorem times_many {r : Read α} {least : Nat} (h : Takes least r) (n : Nat) :
    Takes (n * least) (ChainDecode.times r n) := by
  induction n with
  | zero => exact (pure []).weaken (Nat.le_of_eq (Nat.zero_mul _))
  | succ n ih =>
    have steps := bind h fun a => before ih fun rest => pure (a :: rest)
    exact weaken steps (Nat.le_of_eq (by rw [Nat.succ_mul, Nat.add_comm]))

theorem times_each {r : Read α} (h : Takes 1 r) (n : Nat) : Takes n (ChainDecode.times r n) :=
  (times_many h n).weaken (Nat.le_of_eq (Nat.mul_one n).symm)

theorem take (n : Nat) (short : Cursor → Fault) : Takes n (Read.take n short) := by
  intro c a d e
  unfold Read.take at e
  split at e
  · cases e
    simp only [Cursor.remaining, Cursor.advance, List.length_drop] at *
    omega
  · cases e

theorem stream_take (n : Nat) : Takes n (Stream.take n) := take n _

theorem word (width : Nat) : Takes width (Stream.word width) := map _ (stream_take width)

theorem signed (width : Nat) : Takes width (Stream.signed width) := map _ (stream_take width)

theorem get_bind {f : Cursor → Read β} {least : Nat} (k : ∀ c, Takes least (f c)) :
    Takes least (get >>= f) := fun c a d e => k c c a d e

theorem throw (f : Fault) (least : Nat) : Takes least (throw f : Read α) := by
  intro c a d e
  cases e

theorem ite {p : Prop} [Decidable p] {x y : Read α} {least : Nat} (h : Takes least x)
    (k : Takes least y) : Takes least (if p then x else y) := by
  split
  · exact h
  · exact k

theorem count : Takes 4 Stream.count :=
  before (signed 4) fun _ => get_bind fun _ => ite (throw _ 0) (ite (throw _ 0) (pure _))

theorem byteArray : Takes 4 Stream.byteArray :=
  before count fun n => weaken (stream_take n) (Nat.zero_le n)

theorem smallText : Takes 1 Stream.smallText :=
  before (word 1) fun n => map _ (weaken (stream_take n) (Nat.zero_le n))

theorem intx : Takes 1 Stream.intx :=
  before (word 1) fun header =>
    before (weaken (word (header % 128)) (Nat.zero_le _)) fun _ => pure _

variable (label : Text)

theorem buffer_take (n : Nat) : Takes n (Buffer.take label n) := take n _

theorem bufferWord (width : Nat) : Takes width (Buffer.word label width) :=
  map _ (buffer_take label width)

theorem anyVarint : Takes 1 (Buffer.anyVarint label) := by
  have word : ∀ width, Takes 0 (Buffer.word label width) := fun width =>
    weaken (bufferWord label width) (Nat.zero_le _)
  exact before (bufferWord label 1) fun first =>
    ite (word 2) (ite (word 4) (ite (word 8) (pure first)))

theorem varint (maximum : Int) : Takes 1 (Buffer.varint label maximum) :=
  before (anyVarint label) fun n => ite (throw _ 0) (pure n)

theorem length (maximum : Int) : Takes 1 (Buffer.length label maximum) :=
  before (varint label maximum) fun n => get_bind fun _ => ite (throw _ 0) (pure n)

theorem bufferArray (maximum : Int) : Takes 1 (Buffer.byteArray label maximum) :=
  before (length label maximum) fun n => weaken (buffer_take label n) (Nat.zero_le n)

end Takes

/-- Every cause with which a step stops is of a kind. -/
def StopsOnly (kind : Fault → Prop) (x : EStateM Fault σ α) : Prop :=
  ∀ s f t, x s = .error f t → kind f

namespace StopsOnly

variable {kind : Fault → Prop}

theorem pure (a : α) : StopsOnly kind (pure a : EStateM Fault σ α) := by
  intro s f t h
  cases h

theorem throw {f : Fault} (h : kind f) : StopsOnly kind (throw f : EStateM Fault σ α) := by
  intro s g t e
  cases e
  exact h

theorem bind {x : EStateM Fault σ α} {f : α → EStateM Fault σ β} (h : StopsOnly kind x)
    (k : ∀ a, StopsOnly kind (f a)) : StopsOnly kind (x >>= f) := by
  intro s g t e
  rcases of_bind_error e with first | ⟨a, u, _, second⟩
  · exact h s g t first
  · exact k a u g t second

theorem bind_of {expected : α → Prop} {x : EStateM Fault σ α} {f : α → EStateM Fault σ β}
    (h : StopsOnly kind x) (yields : Yields expected x)
    (k : ∀ a, expected a → StopsOnly kind (f a)) : StopsOnly kind (x >>= f) := by
  intro s g t e
  rcases of_bind_error e with first | ⟨a, u, here, second⟩
  · exact h s g t first
  · exact k a (yields s a u here) u g t second

theorem map {x : EStateM Fault σ α} (f : α → β) (h : StopsOnly kind x) :
    StopsOnly kind (f <$> x) := by
  rw [← bind_pure_comp]
  exact bind h fun a => pure (f a)

theorem get_bind {f : σ → EStateM Fault σ β} (k : ∀ s, StopsOnly kind (f s)) :
    StopsOnly kind (get >>= f) := fun s g t e => k s s g t e

theorem times {step : EStateM Fault σ α} (h : StopsOnly kind step) (n : Nat) :
    StopsOnly kind (times step n) := by
  induction n with
  | zero => exact pure []
  | succ n ih => exact bind h fun a => bind ih fun rest => pure (a :: rest)

theorem ite {c : Prop} [Decidable c] {x y : EStateM Fault σ α} (h : StopsOnly kind x)
    (k : StopsOnly kind y) : StopsOnly kind (if c then x else y) := by
  split
  · exact h
  · exact k

theorem mono {other : Fault → Prop} {x : EStateM Fault σ α} (h : StopsOnly kind x)
    (k : ∀ f, kind f → other f) : StopsOnly other x := fun s f t e => k f (h s f t e)

theorem onBytes {r : Read α} (h : StopsOnly kind r) {bytes : List UInt8} {f : Fault}
    (e : r.onBytes bytes = .error f) : kind f := by
  unfold Read.onBytes at e
  cases hr : r.run (.start bytes) with
  | ok a c => rw [hr] at e; cases e
  | error g c =>
    rw [hr] at e
    cases e
    exact h _ _ _ hr

end StopsOnly

/-- The cause lies in the bytes that were read. -/
def InBytes (f : Fault) : Prop := f.isDecode = true

instance : DecidablePred InBytes := fun f => inferInstanceAs (Decidable (f.isDecode = true))

/-- The cause lies in the bytes that were read, or it would name a number that is too long. -/
def InBytesOrLong (n : Int) (f : Fault) : Prop := InBytes f ∨ f = .digitLimit ∧ Number.IsLong n

theorem naming_inBytesOrLong {n : Int} {f : Fault} (h : InBytes f) :
    InBytesOrLong n (Number.naming n f) := by
  by_cases long : Number.IsLong n
  · exact Or.inr ⟨Number.naming_long long, long⟩
  · rw [Number.naming_short long]
    exact Or.inl h

class CoversStreams (kind : Fault → Prop) : Prop where
  short : ∀ count offset remaining, kind (.streamShort count offset remaining)
  tooMany : ∀ count remaining, kind (.streamCount count remaining)
  negative : ∀ count offset, kind (.streamNegativeCount count offset)

instance : CoversStreams InBytes := ⟨fun _ _ _ => rfl, fun _ _ => rfl, fun _ _ => rfl⟩

namespace StopsOnly

variable {kind : Fault → Prop}

theorem take {n : Nat} {short : Cursor → Fault} (h : ∀ c, kind (short c)) :
    StopsOnly kind (Read.take n short) := by
  intro c f t e
  unfold Read.take at e
  split at e
  · cases e
  · cases e
    exact h c

theorem position : StopsOnly kind Read.position := get_bind fun _ => pure _

theorem remaining : StopsOnly kind Read.remaining := get_bind fun _ => pure _

theorem rest : StopsOnly kind Read.rest := by
  intro c f d stop
  cases stop

section Streams

variable [CoversStreams kind]

theorem stream_take (n : Nat) : StopsOnly kind (Stream.take n) :=
  take fun _ => CoversStreams.short _ _ _

theorem word (width : Nat) : StopsOnly kind (Stream.word width) := map _ (stream_take width)

theorem signed (width : Nat) : StopsOnly kind (Stream.signed width) :=
  map _ (stream_take width)

theorem count : StopsOnly kind Stream.count :=
  bind (signed 4) fun _ => get_bind fun _ =>
    ite (throw (CoversStreams.negative _ _)) (ite (throw (CoversStreams.tooMany _ _)) (pure _))

theorem byteArray : StopsOnly kind Stream.byteArray := bind count stream_take

theorem smallText : StopsOnly kind Stream.smallText :=
  bind (word 1) fun n => map _ (stream_take n)

theorem intx : StopsOnly kind Stream.intx :=
  bind (word 1) fun _ => bind (word _) fun _ => pure _

end Streams

variable (label : Text)

theorem buffer_take (n : Nat) : StopsOnly InBytes (Buffer.take label n) := take fun _ => rfl

theorem bufferWord (width : Nat) : StopsOnly InBytes (Buffer.word label width) :=
  map _ (buffer_take label width)

theorem bigInteger : StopsOnly InBytes (Buffer.bigInteger label) :=
  bind (bufferWord label 1) fun n => map _ (buffer_take label n)

theorem anyVarint : StopsOnly InBytes (Buffer.anyVarint label) :=
  bind (bufferWord label 1) fun first =>
    ite (bufferWord label 2) (ite (bufferWord label 4) (ite (bufferWord label 8) (pure first)))

theorem varint_named (maximum : Int) :
    StopsOnly (InBytesOrLong maximum) (Buffer.varint label maximum) :=
  bind ((anyVarint label).mono fun _ => Or.inl) fun n =>
    ite (throw (naming_inBytesOrLong rfl)) (pure n)

theorem length_named (maximum : Int) :
    StopsOnly (InBytesOrLong maximum) (Buffer.length label maximum) :=
  bind (varint_named label maximum) fun n => get_bind fun _ => ite (throw (Or.inl rfl)) (pure n)

theorem bufferArray_named (maximum : Int) :
    StopsOnly (InBytesOrLong maximum) (Buffer.byteArray label maximum) :=
  bind (length_named label maximum) fun n => (buffer_take label n).mono fun _ => Or.inl

theorem inBytes {r : Read α} {n : Int} (h : StopsOnly (InBytesOrLong n) r)
    (short : ¬ Number.IsLong n) : StopsOnly InBytes r :=
  h.mono fun _ cause => cause.resolve_right fun named => short named.2

variable {maximum : Int} (short : ¬ Number.IsLong maximum)

include short

theorem varint : StopsOnly InBytes (Buffer.varint label maximum) :=
  (varint_named label maximum).inBytes short

theorem length : StopsOnly InBytes (Buffer.length label maximum) :=
  (length_named label maximum).inBytes short

theorem bufferArray : StopsOnly InBytes (Buffer.byteArray label maximum) :=
  (bufferArray_named label maximum).inBytes short

omit short

theorem varintMax_short : ¬ Number.IsLong Buffer.varintMax := Number.word_short (by decide)

theorem bufferText : StopsOnly InBytes (Buffer.text label) :=
  map _ (bufferArray label varintMax_short)

end StopsOnly

end ChainDecode
