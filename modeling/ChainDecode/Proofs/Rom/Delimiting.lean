import ChainDecode.Proofs.Advancing
import ChainDecode.Proofs.Delimiting
import ChainDecode.Rom.Node

/-! # Nodes that find their own end

A struct is refused when fewer bytes are left than two for every entry, and entries take no fewer.
So nothing behind a node tells whether it is read.
-/
namespace ChainDecode.Rom.Node

variable (label : Text) {inner : Read Node}

theorem struct_forward (h : Forward inner) : Forward (readStruct label inner) := by
  have entry : Forward (readEntry inner) := .bind h fun _ => .bind h fun _ => .pure _
  exact .bind (.varint label _) fun _ => .bind .remaining fun _ =>
    .ite (.throw _) (.bind (.times entry _) fun _ => .pure _)

theorem typed_forward (h : Forward inner) (offset type : Nat) :
    Forward (readOfType label inner offset type) := by
  unfold readOfType
  split
  · exact .pure _
  · exact struct_forward label h
  · exact .bind (.bufferArray label _) fun _ => .pure _
  · exact .bind (.bigInteger label) fun _ => .pure _
  · exact .bind (.bufferText label) fun _ => .pure _
  · exact .bind (.bufferWord label 4) fun _ => .pure _
  · exact .bind (.bufferWord label 1) fun _ => .pure _
  · exact .bind (.varint label _) fun _ => .pure _
  · exact .bind (.bufferArray label _) fun _ => .pure _
  · exact .throw _

theorem node_forward (levels : Nat) : Forward (read label levels) := by
  induction levels with
  | zero => exact .throw _
  | succ levels ih =>
    exact .bind .position fun offset => .bind (.bufferWord label 1) fun type =>
      typed_forward label ih offset type

def readRoom : Read Nat :=
  Buffer.varint label Buffer.varintMax >>= fun count => get >>= fun c =>
    if c.remaining < 2 * count then throw (.structCount count c.remaining) else pure (2 * count)

theorem readStruct_eq_room : readStruct label inner =
    readRoom label >>= fun room => Node.struct <$> times (readEntry inner) ((room + 1) / 2) := by
  unfold readStruct readRoom Read.remaining
  simp only [bind_assoc, pure_bind]
  refine congrArg _ (funext fun count => congrArg _ (funext fun c => ?_))
  by_cases few : c.remaining < 2 * count
  · rw [if_pos few, if_pos few]
    rfl
  · have entries : (2 * count + 1) / 2 = count := by omega
    rw [if_neg few, if_neg few, pure_bind, entries, ← bind_pure_comp]

theorem room_announces : Announces EndsBuffer (readRoom label) := by
  refine Delimits.announces (.varint label _) fun count c n d success => ?_
  by_cases few : c.remaining < 2 * count
  · rw [if_pos few] at success
    cases success
  rw [if_neg few] at success
  cases success
  refine ⟨rfl, fun c enough => ?_, fun c few => ?_⟩
  · rw [if_neg (by omega)]
    rfl
  · rw [if_pos few]
    exact ⟨_, _, rfl, rfl⟩

theorem struct_delimits (takes : Takes 1 inner) (h : Delimits EndsBuffer inner) :
    Delimits EndsBuffer (readStruct label inner) := by
  have entry : Delimits EndsBuffer (readEntry inner) := .bind h fun _ => .bind h fun _ => .pure _
  have two : Takes 2 (readEntry inner) := .bind takes fun _ => .before takes fun _ => .pure _
  rw [readStruct_eq_room]
  refine (room_announces label).bind (fun room => ?_) fun room => .map _ (.times entry _)
  exact .map _ ((Takes.times_many two _).weaken (by omega))

theorem struct_takes (takes : Takes 1 inner) : Takes 0 (readStruct label inner) := by
  have entry : Takes 0 (readEntry inner) :=
    .before (takes.weaken (by omega)) fun _ => .before (takes.weaken (by omega)) fun _ => .pure _
  exact .before ((Takes.varint label _).weaken (by omega)) fun _ => .get_bind fun _ =>
    .ite (.throw _ 0) (.before (.times entry _) fun _ => .pure _)

theorem typed_cases (inner : Read Node) (offset type : Nat) :
    (∀ p, readOfType label inner p type = readOfType label inner 0 type) ∨
      readOfType label inner offset type = throw (.nodeType type offset) := by
  unfold readOfType
  split
  case h_10 => exact Or.inr rfl
  all_goals exact Or.inl fun _ => rfl

theorem typed_takes (takes : Takes 1 inner) (offset type : Nat) :
    Takes 0 (readOfType label inner offset type) := by
  have array := (Takes.bufferArray label Buffer.varintMax).weaken (Nat.zero_le 1)
  have word : ∀ width, Takes 0 (Buffer.word label width) := fun width =>
    (Takes.bufferWord label width).weaken (Nat.zero_le _)
  unfold readOfType
  split
  · exact .pure _
  · exact struct_takes label takes
  · exact .before array fun _ => .pure _
  · exact .before (.before (word 1) fun n =>
      .map _ ((Takes.buffer_take label n).weaken (Nat.zero_le _))) fun _ => .pure _
  · exact .before (.map _ array) fun _ => .pure _
  · exact .before (word 4) fun _ => .pure _
  · exact .before (word 1) fun _ => .pure _
  · exact .before ((Takes.varint label _).weaken (Nat.zero_le 1)) fun _ => .pure _
  · exact .before array fun _ => .pure _
  · exact .throw _ 0

theorem typed_delimits (takes : Takes 1 inner) (h : Delimits EndsBuffer inner)
    (offset type : Nat) : Delimits EndsBuffer (readOfType label inner offset type) := by
  unfold readOfType
  split
  · exact .pure _
  · exact struct_delimits label takes h
  · exact .bind (.bufferArray label _) fun _ => .pure _
  · exact .bind (.bigInteger label) fun _ => .pure _
  · exact .bind (.bufferText label) fun _ => .pure _
  · exact .bind (.bufferWord label 4) fun _ => .pure _
  · exact .bind (.bufferWord label 1) fun _ => .pure _
  · exact .bind (.varint label _) fun _ => .pure _
  · exact .bind (.bufferArray label _) fun _ => .pure _
  · exact .throw _

theorem node_takes (levels : Nat) : Takes 1 (read label levels) := by
  induction levels with
  | zero => exact .throw _ _
  | succ levels ih =>
    exact .get_bind fun c => .before (.bufferWord label 1) fun type =>
      typed_takes label ih c.position type

theorem node_delimits (levels : Nat) : Delimits EndsBuffer (read label levels) := by
  induction levels with
  | zero => exact .throw _
  | succ levels ih =>
    intro p bytes node q rest success
    obtain ⟨type, ⟨m, middle⟩, first, second⟩ := of_bind_ok
      (show (Buffer.word label 1 >>= readOfType label (read label levels) p) ⟨p, bytes⟩ =
        .ok node ⟨q, rest⟩ from success)
    obtain ⟨front, rfl, typed⟩ := Delimits.bufferWord label 1 p bytes type m middle first
    rcases typed_cases label (read label levels) p type with known | unknown
    · obtain ⟨back, rfl, needed⟩ :=
        typed_delimits label (node_takes label levels) ih p type m middle node q rest second
      -- The type is known, so the node is read in the same way from any place.
      have anywhere : ∀ place, Needs EndsBuffer
          (Buffer.word label 1 >>= readOfType label (read label levels) place)
          (front ++ back) node := fun place =>
        typed.bind (by rwa [known place, ← known p])
      exact ⟨front ++ back, (List.append_assoc ..).symm,
        Reads.position_bind fun place => (anywhere place).reads,
        fun j small => Cuts.position_bind fun place => (anywhere place).cut j small⟩
    · rw [unknown] at second
      cases second

end ChainDecode.Rom.Node
