import ChainDecode.Proofs.Reading

/-! # How far a cursor moves

A step moves its cursor over some of the bytes that are left, and over no others, whether it yields
a value or stops. Bytes that it took before it stopped stay taken.
-/
namespace ChainDecode

variable {σ α β : Type} {place : σ → Cursor}

theorem Cursor.advance_advance (c : Cursor) (j k : Nat) :
    (c.advance j).advance k = c.advance (j + k) := by
  simp [Cursor.advance, Nat.add_assoc]

theorem Cursor.remaining_advance (c : Cursor) (k : Nat) :
    (c.advance k).remaining = c.remaining - k := by
  simp [Cursor.advance, Cursor.remaining]

def Cursor.Reaches (c d : Cursor) : Prop := ∃ k ≤ c.remaining, d = c.advance k

namespace Cursor.Reaches

theorem refl (c : Cursor) : c.Reaches c := ⟨0, Nat.zero_le _, rfl⟩

theorem trans {c d e : Cursor} (h : c.Reaches d) (k : d.Reaches e) : c.Reaches e := by
  obtain ⟨i, small, rfl⟩ := h
  obtain ⟨j, fits, rfl⟩ := k
  rw [remaining_advance] at fits
  exact ⟨i + j, by omega, advance_advance c i j⟩

theorem position_le {c d : Cursor} (h : c.Reaches d) : c.position ≤ d.position := by
  obtain ⟨k, _, rfl⟩ := h
  exact Nat.le_add_right _ _

end Cursor.Reaches

def finalState (x : EStateM Fault σ α) (s : σ) : σ :=
  match x s with
  | .ok _ t => t
  | .error _ t => t

theorem finalState_ok {x : EStateM Fault σ α} {a : α} {s t : σ} (found : x s = .ok a t) :
    finalState x s = t := by
  rw [finalState, found]

theorem finalState_error {x : EStateM Fault σ α} {f : Fault} {s t : σ} (stop : x s = .error f t) :
    finalState x s = t := by
  rw [finalState, stop]

theorem finalState_bind {x : EStateM Fault σ α} {a : α} {s t : σ} (found : x s = .ok a t)
    (f : α → EStateM Fault σ β) : finalState (x >>= f) s = finalState (f a) t := by
  rw [finalState, bind_ok found, finalState]

/-- Wherever a step starts, it ends at the same place or at a later one. -/
def Advances (place : σ → Cursor) (x : EStateM Fault σ α) : Prop :=
  ∀ s, (place s).Reaches (place (finalState x s))

namespace Advances

theorem pure (a : α) : Advances place (pure a) := fun s => .refl (place s)

theorem throw (f : Fault) : Advances place (throw f : EStateM Fault σ α) :=
  fun s => .refl (place s)

theorem bind {x : EStateM Fault σ α} {f : α → EStateM Fault σ β} (h : Advances place x)
    (k : ∀ a, Advances place (f a)) : Advances place (x >>= f) := by
  intro s
  have first := h s
  cases result : x s with
  | ok a t =>
    rw [finalState_ok result] at first
    rw [finalState_bind result]
    exact first.trans (k a t)
  | error g t =>
    rw [finalState_error result] at first
    rwa [finalState_error (bind_error result)]

theorem of_ok {x : EStateM Fault σ α} (h : Advances place x) {s t : σ} {a : α}
    (found : x s = .ok a t) : (place s).Reaches (place t) := by
  have reached := h s
  rwa [finalState_ok found] at reached

theorem of_error {x : EStateM Fault σ α} (h : Advances place x) {s t : σ} {f : Fault}
    (stop : x s = .error f t) : (place s).Reaches (place t) := by
  have reached := h s
  rwa [finalState_error stop] at reached

theorem map {x : EStateM Fault σ α} (f : α → β) (h : Advances place x) :
    Advances place (f <$> x) := by
  rw [← bind_pure_comp]
  exact bind h fun a => pure (f a)

theorem ite {p : Prop} [Decidable p] {x y : EStateM Fault σ α} (h : Advances place x)
    (k : Advances place y) : Advances place (if p then x else y) := by
  split
  · exact h
  · exact k

theorem get_bind {f : σ → EStateM Fault σ β} (k : ∀ s, Advances place (f s)) :
    Advances place (get >>= f) := fun s => k s s

theorem times {x : EStateM Fault σ α} (h : Advances place x) (n : Nat) :
    Advances place (times x n) := by
  induction n with
  | zero => exact pure []
  | succ n ih => exact bind h fun a => bind ih fun rest => pure (a :: rest)

end Advances

abbrev Forward (r : Read α) : Prop := Advances id r

namespace Advances

theorem take (n : Nat) (short : Cursor → Fault) : Forward (Read.take n short) := by
  intro c
  unfold finalState Read.take
  by_cases enough : n ≤ c.remaining
  · rw [if_pos enough]
    exact ⟨n, enough, rfl⟩
  · rw [if_neg enough]
    exact .refl c

theorem rest : Forward Read.rest := fun c => ⟨c.remaining, Nat.le_refl _, rfl⟩

theorem position : Forward Read.position := .get_bind fun _ => .pure _

theorem remaining : Forward Read.remaining := .get_bind fun _ => .pure _

theorem stream_take (n : Nat) : Forward (Stream.take n) := take n _

theorem stream_bytes (n : Int) : Forward (Stream.bytes n) := .ite (.throw _) (take _ _)

theorem word (width : Nat) : Forward (Stream.word width) := .map _ (stream_take width)

theorem signed (width : Nat) : Forward (Stream.signed width) := .map _ (stream_take width)

theorem count : Forward Stream.count :=
  .bind (signed 4) fun _ => .get_bind fun _ => .ite (.throw _) (.ite (.throw _) (.pure _))

theorem byteArray : Forward Stream.byteArray := .bind count stream_take

theorem byteArrays : Forward Stream.byteArrays := .bind count fun n => .times byteArray n

theorem smallText : Forward Stream.smallText := .bind (word 1) fun n => .map _ (stream_take n)

theorem intx : Forward Stream.intx := .bind (word 1) fun _ => .bind (word _) fun _ => .pure _

variable (label : Text)

theorem buffer_take (n : Nat) : Forward (Buffer.take label n) := take n _

theorem buffer_bytes (n : Int) : Forward (Buffer.bytes label n) :=
  .ite (.throw _) (take _ _)

theorem bufferWord (width : Nat) : Forward (Buffer.word label width) :=
  .map _ (buffer_take label width)

theorem anyVarint : Forward (Buffer.anyVarint label) :=
  .bind (bufferWord label 1) fun first =>
    .ite (bufferWord label 2) (.ite (bufferWord label 4) (.ite (bufferWord label 8) (.pure first)))

theorem varint (maximum : Int) : Forward (Buffer.varint label maximum) :=
  .bind (anyVarint label) fun n => .ite (.throw _) (.pure n)

theorem length (maximum : Int) : Forward (Buffer.length label maximum) :=
  .bind (varint label maximum) fun n => .get_bind fun _ => .ite (.throw _) (.pure n)

theorem bufferArray (maximum : Int) : Forward (Buffer.byteArray label maximum) :=
  .bind (length label maximum) (buffer_take label)

theorem bufferText : Forward (Buffer.text label) := .map _ (bufferArray label _)

theorem bigInteger : Forward (Buffer.bigInteger label) :=
  .bind (bufferWord label 1) fun n => .map _ (buffer_take label n)

end Advances

end ChainDecode
