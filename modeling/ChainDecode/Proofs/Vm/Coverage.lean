import ChainDecode.Proofs.Delimiting
import ChainDecode.Proofs.Vm.Assembly

/-! # What the bytes of a script are

Any bytes are a program up to its first return, or they end inside an operand, or an operand in
them is a number above its limit. Disassembly tells the three apart, and of a program it finds
every byte in exactly one instruction.
-/
namespace ChainDecode.Vm.Assembly

def markedWidth (mark : UInt8) : Nat :=
  if mark = 0xfd then 2 else if mark = 0xfe then 4 else if mark = 0xff then 8 else 0

def SizeCut (bytes : List UInt8) : Prop :=
  ∀ mark word, bytes = mark :: word → word.length < markedWidth mark

def SizeAbove (bytes : List UInt8) : Prop :=
  ∃ mark word rest, bytes = mark :: (word ++ rest) ∧ word.length = markedWidth mark ∧
    0xffff < Number.ofBytes word

/-- The bytes end inside an operand. -/
def CutShort : OperandShape → List UInt8 → Prop
  | .byte, bytes | .typeName, bytes => bytes.length < 1
  | .target, bytes => bytes.length < 2
  | .size, bytes => SizeCut bytes
  | .payload, bytes => SizeCut bytes ∨
      ∃ (size : Size) (data : List UInt8), bytes = size.wire ++ data ∧
        data.length < size.value.toNat

/-- The bytes begin with a number above the limit of operands. -/
def TooLarge : OperandShape → List UInt8 → Prop
  | .size, bytes | .payload, bytes => SizeAbove bytes
  | .byte, _ | .typeName, _ | .target, _ => False

def Whole : OperandShape → List UInt8 → Prop
  | .byte, bytes | .typeName, bytes => ∃ b, bytes = [b]
  | .target, bytes => ∃ place, bytes = placeBytes place
  | .size, bytes => ∃ s : Size, bytes = s.wire
  | .payload, bytes => ∃ p : Payload, bytes = p.length.wire ++ p.bytes

def Row : List OperandShape → List UInt8 → Prop
  | [], bytes => bytes = []
  | shape :: shapes, bytes =>
    ∃ front back, bytes = front ++ back ∧ Whole shape front ∧ Row shapes back

def BreaksRow (fails : OperandShape → List UInt8 → Prop) :
    List OperandShape → List UInt8 → Prop
  | [], _ => False
  | shape :: shapes, bytes =>
    fails shape bytes ∨
      ∃ front back, bytes = front ++ back ∧ Whole shape front ∧ BreaksRow fails shapes back

/-- Instructions other than returns are followed by one with an operand that fails. -/
def Breaks (fails : OperandShape → List UInt8 → Prop) (bytes : List UInt8) : Prop :=
  ∃ (program : List Instruction) (code : UInt8) (operands : List UInt8),
    bytes = script program ++ code :: operands ∧ (∀ i ∈ program, ¬ i.isReturn) ∧
      BreaksRow fails (Form.of code).shapes operands

theorem markedWidth_eq_zero {mark : UInt8} (h : markedWidth mark = 0) : mark.toNat < 0xfd := by
  have small := mark.toNat_lt
  have two : mark ≠ 0xfd := by rintro rfl; exact absurd h (by decide)
  have four : mark ≠ 0xfe := by rintro rfl; exact absurd h (by decide)
  have eight : mark ≠ 0xff := by rintro rfl; exact absurd h (by decide)
  rw [ne_eq, ← UInt8.toNat_inj] at two four eight
  change ¬ mark.toNat = 0xfd at two
  change ¬ mark.toNat = 0xfe at four
  change ¬ mark.toNat = 0xff at eight
  omega

theorem mark_cases (mark : UInt8) :
    mark = 0xfd ∨ mark = 0xfe ∨ mark = 0xff ∨ markedWidth mark = 0 := by
  unfold markedWidth
  by_cases two : mark = 0xfd
  · exact Or.inl two
  by_cases four : mark = 0xfe
  · exact Or.inr (Or.inl four)
  by_cases eight : mark = 0xff
  · exact Or.inr (Or.inr (Or.inl eight))
  · exact Or.inr (Or.inr (Or.inr (by simp [two, four, eight])))

theorem size_of_word {mark : UInt8} {word : List UInt8} (length : word.length = markedWidth mark)
    (small : Number.ofBytes word ≤ 0xffff) : ∃ s : Size, s.wire = mark :: word := by
  have fits : Number.ofBytes word < UInt16.size := by
    change _ < 0x10000
    omega
  have bytes := Number.toBytes_ofBytes word
  rw [length] at bytes
  rcases mark_cases mark with rfl | rfl | rfl | alone
  · have marked : Width.two ≠ .unmarked := by decide
    exact ⟨⟨UInt16.ofNatLT _ fits, .two, fun none => absurd none marked⟩,
      congrArg (0xfd :: ·) bytes⟩
  · have marked : Width.four ≠ .unmarked := by decide
    exact ⟨⟨UInt16.ofNatLT _ fits, .four, fun none => absurd none marked⟩,
      congrArg (0xfe :: ·) bytes⟩
  · have marked : Width.eight ≠ .unmarked := by decide
    exact ⟨⟨UInt16.ofNatLT _ fits, .eight, fun none => absurd none marked⟩,
      congrArg (0xff :: ·) bytes⟩
  · rw [alone, List.length_eq_zero_iff] at length
    subst length
    have unmarked := markedWidth_eq_zero alone
    have fits : mark.toNat < UInt16.size := by
      change _ < 0x10000
      omega
    exact ⟨⟨UInt16.ofNatLT _ fits, .unmarked, fun _ => unmarked⟩, Number.toBytes_ofBytes [mark]⟩

theorem size_split (bytes : List UInt8) :
    (∃ (s : Size) (rest : List UInt8), bytes = s.wire ++ rest) ∨ SizeCut bytes ∨
      SizeAbove bytes := by
  cases bytes with
  | nil => exact Or.inr (Or.inl nofun)
  | cons mark behind =>
    by_cases short : behind.length < markedWidth mark
    · refine Or.inr (Or.inl ?_)
      intro m w same
      cases same
      exact short
    have length : (behind.take (markedWidth mark)).length = markedWidth mark :=
      List.length_take_of_le (Nat.le_of_not_lt short)
    have whole := List.take_append_drop (markedWidth mark) behind
    by_cases small : Number.ofBytes (behind.take (markedWidth mark)) ≤ 0xffff
    · obtain ⟨s, wire⟩ := size_of_word length small
      refine Or.inl ⟨s, behind.drop (markedWidth mark), ?_⟩
      rw [wire, List.cons_append, whole]
    · have large := Nat.lt_of_not_le small
      exact Or.inr (Or.inr ⟨mark, _, _, congrArg (mark :: ·) whole.symm, length, large⟩)

theorem operand_split (shape : OperandShape) (bytes : List UInt8) :
    (∃ front rest, bytes = front ++ rest ∧ Whole shape front) ∨ CutShort shape bytes ∨
      TooLarge shape bytes := by
  cases shape with
  | byte =>
    cases bytes with
    | nil => exact Or.inr (Or.inl Nat.zero_lt_one)
    | cons b rest => exact Or.inl ⟨[b], rest, rfl, b, rfl⟩
  | typeName =>
    cases bytes with
    | nil => exact Or.inr (Or.inl Nat.zero_lt_one)
    | cons b rest => exact Or.inl ⟨[b], rest, rfl, b, rfl⟩
  | target =>
    by_cases short : bytes.length < 2
    · exact Or.inr (Or.inl short)
    have length : (bytes.take 2).length = 2 := List.length_take_of_le (Nat.le_of_not_lt short)
    have small := Number.ofBytes_lt (bytes.take 2)
    have word := Number.toBytes_ofBytes (bytes.take 2)
    rw [length] at small word
    exact Or.inl ⟨bytes.take 2, bytes.drop 2, (List.take_append_drop 2 bytes).symm,
      UInt16.ofNatLT (Number.ofBytes (bytes.take 2)) small, word.symm⟩
  | size =>
    rcases size_split bytes with ⟨s, rest, rfl⟩ | cut | above
    · exact Or.inl ⟨s.wire, rest, rfl, s, rfl⟩
    · exact Or.inr (Or.inl cut)
    · exact Or.inr (Or.inr above)
  | payload =>
    rcases size_split bytes with ⟨s, data, rfl⟩ | cut | above
    · by_cases short : data.length < s.value.toNat
      · exact Or.inr (Or.inl (Or.inr ⟨s, data, rfl, short⟩))
      have length : (data.take s.value.toNat).length = s.value.toNat :=
        List.length_take_of_le (Nat.le_of_not_lt short)
      refine Or.inl ⟨s.wire ++ data.take s.value.toNat, data.drop s.value.toNat, ?_, ?_⟩
      · rw [List.append_assoc, List.take_append_drop]
      · exact ⟨⟨_, s, length.symm⟩, rfl⟩
    · exact Or.inr (Or.inl (Or.inl cut))
    · exact Or.inr (Or.inr above)

theorem row_split (shapes : List OperandShape) (bytes : List UInt8) :
    (∃ front rest, bytes = front ++ rest ∧ Row shapes front) ∨ BreaksRow CutShort shapes bytes ∨
      BreaksRow TooLarge shapes bytes := by
  induction shapes generalizing bytes with
  | nil => exact Or.inl ⟨[], bytes, rfl, rfl⟩
  | cons shape shapes ih =>
    rcases operand_split shape bytes with ⟨front, behind, rfl, first⟩ | cut | above
    · rcases ih behind with ⟨back, rest, rfl, others⟩ | cut | above
      · exact Or.inl ⟨front ++ back, rest, (List.append_assoc ..).symm, front, back, rfl, first,
          others⟩
      · exact Or.inr (Or.inl (Or.inr ⟨front, behind, rfl, first, cut⟩))
      · exact Or.inr (Or.inr (Or.inr ⟨front, behind, rfl, first, above⟩))
    · exact Or.inr (Or.inl (Or.inl cut))
    · exact Or.inr (Or.inr (Or.inl above))

theorem operands_of_row {form : Form} {bytes : List UInt8} (h : Row form.shapes bytes) :
    ∃ operands : Operands form, operands.wire = bytes := by
  cases form with
  | none =>
    obtain rfl := h
    exact ⟨.none, rfl⟩
  | register =>
    obtain ⟨_, _, rfl, ⟨r, rfl⟩, rfl⟩ := h
    exact ⟨.register r, rfl⟩
  | pair =>
    obtain ⟨_, _, rfl, ⟨source, rfl⟩, _, _, rfl, ⟨target, rfl⟩, rfl⟩ := h
    exact ⟨.pair source target, rfl⟩
  | triple =>
    obtain ⟨_, _, rfl, ⟨first, rfl⟩, _, _, rfl, ⟨second, rfl⟩, _, _, rfl, ⟨third, rfl⟩, rfl⟩ := h
    exact ⟨.triple first second third, rfl⟩
  | load =>
    obtain ⟨_, _, rfl, ⟨target, rfl⟩, _, _, rfl, ⟨type, rfl⟩, _, _, rfl, ⟨payload, rfl⟩, rfl⟩ := h
    exact ⟨.load target type payload, by simp [Operands.wire]⟩
  | cast =>
    obtain ⟨_, _, rfl, ⟨source, rfl⟩, _, _, rfl, ⟨target, rfl⟩, _, _, rfl, ⟨type, rfl⟩, rfl⟩ := h
    exact ⟨.cast source target type, rfl⟩
  | call =>
    obtain ⟨_, _, rfl, ⟨count, rfl⟩, _, _, rfl, ⟨place, rfl⟩, rfl⟩ := h
    exact ⟨.call count place, by simp [Operands.wire]⟩
  | jump =>
    obtain ⟨_, _, rfl, ⟨place, rfl⟩, rfl⟩ := h
    exact ⟨.jump place, by simp [Operands.wire]⟩
  | branch =>
    obtain ⟨_, _, rfl, ⟨r, rfl⟩, _, _, rfl, ⟨place, rfl⟩, rfl⟩ := h
    exact ⟨.branch r place, by simp [Operands.wire]⟩
  | slice =>
    obtain ⟨_, _, rfl, ⟨source, rfl⟩, _, _, rfl, ⟨target, rfl⟩, _, _, rfl, ⟨length, rfl⟩, rfl⟩ := h
    exact ⟨.slice source target length, by simp [Operands.wire]⟩
  | range =>
    obtain ⟨_, _, rfl, ⟨source, rfl⟩, _, _, rfl, ⟨target, rfl⟩, _, _, rfl, ⟨index, rfl⟩, _, _, rfl,
      ⟨length, rfl⟩, rfl⟩ := h
    exact ⟨.range source target index length, by simp [Operands.wire]⟩

theorem Complete.cons {i : Instruction} {program : List Instruction} {tail : List UInt8}
    (more : ¬ i.isReturn) (h : Complete program tail) : Complete (i :: program) tail := by
  cases program with
  | nil =>
    rw [h.of_nil]
    exact ⟨nofun, fun nonempty => absurd rfl nonempty⟩
  | cons next program =>
    refine ⟨?_, ?_⟩
    · rw [List.dropLast_cons_cons]
      intro j member
      rcases List.mem_cons.mp member with rfl | member
      · exact more
      · exact h.returns j member
    · intro nonempty
      obtain ⟨last, found, stops⟩ := h.ends nonempty
      exact ⟨last, by rwa [List.getLast?_cons_cons], stops⟩

theorem Complete.single {i : Instruction} (last : i.isReturn) (tail : List UInt8) :
    Complete [i] tail := ⟨nofun, fun _ => ⟨i, rfl, last⟩⟩

theorem Breaks.cons {fails : OperandShape → List UInt8 → Prop} {i : Instruction}
    {bytes : List UInt8} (more : ¬ i.isReturn) (h : Breaks fails bytes) :
    Breaks fails (i.wire ++ bytes) := by
  obtain ⟨program, code, operands, rfl, plain, row⟩ := h
  refine ⟨i :: program, code, operands, ?_, ?_, row⟩
  · simp [script]
  · intro j member
    rcases List.mem_cons.mp member with rfl | member
    · exact more
    · exact plain j member

theorem Breaks.first {fails : OperandShape → List UInt8 → Prop} {code : UInt8}
    {operands : List UInt8} (h : BreaksRow fails (Form.of code).shapes operands) :
    Breaks fails (code :: operands) := ⟨[], code, operands, rfl, nofun, h⟩

theorem script_split (bytes : List UInt8) :
    (∃ program tail, bytes = script program ++ tail ∧ Complete program tail) ∨
      Breaks CutShort bytes ∨ Breaks TooLarge bytes := by
  -- What is behind an instruction has fewer bytes, and matters only if it is no return.
  induction count : bytes.length using Nat.strongRecOn generalizing bytes with
  | ind count ih =>
    subst count
    cases bytes with
    | nil => exact Or.inl ⟨[], [], rfl, nofun, nofun⟩
    | cons code behind =>
      rcases row_split (Form.of code).shapes behind with ⟨front, rest, rfl, row⟩ | cut | above
      · obtain ⟨operands, rfl⟩ := operands_of_row row
        have fewer : rest.length < (code :: (operands.wire ++ rest)).length := by
          simp only [List.length_cons, List.length_append]
          omega
        by_cases last : (Instruction.mk code operands).isReturn
        · exact Or.inl ⟨[⟨code, operands⟩], rest, by simp [script, Instruction.wire],
            .single last rest⟩
        rcases ih _ fewer rest rfl with ⟨program, tail, rfl, complete⟩ | cut | above
        · exact Or.inl ⟨⟨code, operands⟩ :: program, tail, by simp [script, Instruction.wire],
            complete.cons last⟩
        · exact Or.inr (Or.inl (cut.cons last))
        · exact Or.inr (Or.inr (above.cons last))
      · exact Or.inr (Or.inl (.first cut))
      · exact Or.inr (Or.inr (.first above))

def IsFormat (f : Fault) : Prop := f.kind = .format

theorem whole_reads {shape : OperandShape} {bytes : List UInt8} (h : Whole shape bytes) :
    ∃ operand, Reads shape.read bytes operand := by
  cases shape with
  | byte =>
    obtain ⟨b, rfl⟩ := h
    exact ⟨_, byte_reads b⟩
  | target =>
    obtain ⟨place, rfl⟩ := h
    exact ⟨_, place_reads place⟩
  | size =>
    obtain ⟨s, rfl⟩ := h
    exact ⟨_, sizeOperand_reads s⟩
  | typeName =>
    obtain ⟨type, rfl⟩ := h
    exact ⟨_, type_reads type⟩
  | payload =>
    obtain ⟨payload, rfl⟩ := h
    exact ⟨_, payload_reads payload⟩

theorem take_cut {count : Nat} {bytes : List UInt8} (few : bytes.length < count) :
    Cuts EndsBuffer (Buffer.take scriptLabel count) bytes := by
  intro p
  have short : ¬ count ≤ (Cursor.mk p bytes).remaining := Nat.not_le.mpr few
  exact ⟨_, _, if_neg short, rfl⟩

theorem word_cut {width : Nat} {bytes : List UInt8} (few : bytes.length < width) :
    Cuts EndsBuffer (Buffer.word scriptLabel width) bytes := by
  rw [Buffer.word, ← bind_pure_comp]
  exact (take_cut few).bind

theorem sizeCut_stops {bytes : List UInt8} (h : SizeCut bytes) :
    Cuts EndsBuffer (Buffer.varint scriptLabel operandMax) bytes := by
  refine Cuts.bind ?_
  cases bytes with
  | nil => exact (word_cut Nat.zero_lt_one).bind
  | cons mark word =>
    have few := h mark word rfl
    have behind : Cuts EndsBuffer (Buffer.word scriptLabel (markedWidth mark)) word := word_cut few
    refine Cuts.after (Reads.bufferByte scriptLabel mark) ?_
    rcases mark_cases mark with rfl | rfl | rfl | alone
    · exact behind
    · exact behind
    · exact behind
    · rw [alone] at few
      exact absurd few (Nat.not_lt_zero _)

theorem marked_reads {mark : UInt8} {word : List UInt8} (length : word.length = markedWidth mark)
    (marked : markedWidth mark ≠ 0) :
    Reads (Buffer.anyVarint scriptLabel) (mark :: word) (Number.ofBytes word) := by
  have behind : Reads (Buffer.word scriptLabel (markedWidth mark)) word (Number.ofBytes word) :=
    Reads.map Number.ofBytes (Reads.take length)
  refine Reads.bind (Reads.bufferByte scriptLabel mark) ?_
  rcases mark_cases mark with rfl | rfl | rfl | alone
  · exact behind
  · exact behind
  · exact behind
  · exact absurd alone marked

theorem sizeAbove_stops {bytes : List UInt8} (h : SizeAbove bytes) :
    Cuts IsFormat (Buffer.varint scriptLabel operandMax) bytes := by
  obtain ⟨mark, word, rest, rfl, length, large⟩ := h
  have marked : markedWidth mark ≠ 0 := by
    intro alone
    rw [alone, List.length_eq_zero_iff] at length
    subst length
    exact absurd large (by decide)
  have read := marked_reads length marked
  change Cuts IsFormat (Buffer.varint scriptLabel operandMax) ((mark :: word) ++ rest)
  refine Cuts.after read ?_
  intro p
  have above : operandMax < Number.ofBytes word := by
    unfold operandMax
    omega
  rw [if_pos above, Number.naming_short operandMax_short]
  exact ⟨_, _, rfl, rfl⟩

theorem cutShort_stops (shape : OperandShape) (bytes : List UInt8) (h : CutShort shape bytes) :
    Cuts EndsBuffer shape.read bytes := by
  cases shape with
  | byte => exact (word_cut h).bind
  | target => exact (word_cut h).bind
  | size => exact (sizeCut_stops h).bind
  | typeName => exact (word_cut h).bind
  | payload =>
    rcases h with cut | ⟨size, data, rfl, few⟩
    · exact (sizeCut_stops cut).bind
    · exact Cuts.after (size_reads size) (take_cut few).bind

theorem tooLarge_stops (shape : OperandShape) (bytes : List UInt8) (h : TooLarge shape bytes) :
    Cuts IsFormat shape.read bytes := by
  cases shape with
  | byte => exact h.elim
  | target => exact h.elim
  | size => exact (sizeAbove_stops h).bind
  | typeName => exact h.elim
  | payload => exact (sizeAbove_stops h).bind

section Stops

variable {fails : OperandShape → List UInt8 → Prop} {kind : Fault → Prop}
  (stops : ∀ shape bytes, fails shape bytes → Cuts kind shape.read bytes)
include stops

theorem row_stops {shapes : List OperandShape} {bytes : List UInt8}
    (h : BreaksRow fails shapes bytes) : Cuts kind (readOperands shapes) bytes := by
  induction shapes generalizing bytes with
  | nil => exact h.elim
  | cons shape shapes ih =>
    rcases h with here | ⟨front, back, rfl, first, later⟩
    · exact (stops shape bytes here).bind
    · obtain ⟨operand, read⟩ := whole_reads first
      exact Cuts.after read (ih later).bind

theorem instruction_breaks {code : UInt8} {operands : List UInt8}
    (h : BreaksRow fails (Form.of code).shapes operands) :
    Cuts kind readInstruction (code :: operands) := by
  intro p
  have place : Read.position ⟨p, code :: operands⟩ = .ok p ⟨p, code :: operands⟩ := rfl
  have byte := Reads.bufferByte scriptLabel code p operands
  rw [← table_shapes] at h
  obtain ⟨f, c, stop, cause⟩ := row_stops stops h (p + 1)
  refine ⟨f, c, ?_, cause⟩
  rw [readInstruction, bind_ok place]
  exact (bind_ok byte).trans (bind_error stop)

theorem instructions_break {program : List Instruction} {code : UInt8} {operands : List UInt8}
    (plain : ∀ i ∈ program, ¬ i.isReturn) (h : BreaksRow fails (Form.of code).shapes operands)
    {most : Nat} (enough : (script program).length < most) :
    Cuts kind (readInstructions most) (script program ++ code :: operands) := by
  induction program generalizing most with
  | nil =>
    obtain ⟨steps, rfl⟩ : ∃ steps, most = steps + 1 := ⟨most - 1, by omega⟩
    intro p
    obtain ⟨f, c, stop, cause⟩ := instruction_breaks stops h p
    have more : (Cursor.mk p (code :: operands)).atEnd = false := rfl
    refine ⟨f, c, ?_, cause⟩
    change readInstructions (steps + 1) ⟨p, code :: operands⟩ = _
    rw [readInstructions, bind_get, if_neg (by simp [more]), bind_error stop]
  | cons i program ih =>
    have bytes : script (i :: program) ++ code :: operands =
        i.wire ++ (script program ++ code :: operands) := by
      simp [script]
    have length : (script (i :: program)).length =
        i.operands.wire.length + (script program).length + 1 := by
      simp [script, Instruction.wire, Nat.add_right_comm]
    obtain ⟨steps, rfl⟩ : ∃ steps, most = steps + 1 := ⟨most - 1, by omega⟩
    have fewer : (script program).length < steps := by omega
    have more : ¬ i.isReturn := plain i List.mem_cons_self
    intro p
    obtain ⟨f, c, stop, cause⟩ :=
      ih (fun j member => plain j (List.mem_cons_of_mem i member)) fewer (p + i.wire.length)
    have some : (Cursor.mk p (i.wire ++ (script program ++ code :: operands))).atEnd = false := rfl
    refine ⟨f, c, ?_, cause⟩
    rw [bytes, readInstructions, bind_get, if_neg (by simp [some]),
      bind_ok (instruction_reads i p _), if_neg (mt (opcode_eq_ret i p).mp more), bind_error stop]

theorem disassemble_breaks {bytes : List UInt8} (h : Breaks fails bytes) :
    ∃ f, disassemble bytes = .error f ∧ kind f := by
  obtain ⟨program, code, operands, rfl, plain, row⟩ := h
  have enough : (script program).length < (script program ++ code :: operands).length := by
    simp
  obtain ⟨f, c, stop, cause⟩ := instructions_break stops plain row enough 0
  refine ⟨f, ?_, cause⟩
  unfold disassemble Read.onBytes
  rw [EStateM.run, Cursor.start, stop]
  rfl

end Stops

/-- The offset of an instruction by its number. Behind the last one it is the place where they
stop. -/
def boundary (found : List Vm.Instruction) (stop k : Nat) : Int :=
  (found[k]?.map (·.offset)).getD stop

/-- An instruction is what the bytes from one place to another decode to: the first of them is its
opcode, and its operands are written in the others and in no more. -/
structure Fills (bytes : List UInt8) (start stop : Nat) (code : UInt8)
    (operands : Operands (Form.of code)) (i : Vm.Instruction) : Prop where
  offset : i.offset = start
  inside : start < stop ∧ stop ≤ bytes.length
  opcode : bytes[start]? = some code ∧ i.opcode = code.toNat
  operands : bytes.extract (start + 1) stop = operands.wire ∧ i.operands = operands.shown

/-- Instructions take all bytes up to a place, one behind the other. That place is the end, unless
they stop at a return. -/
structure Covers (bytes : List UInt8) (found : List Vm.Instruction) (stop : Nat) : Prop where
  first : boundary found stop 0 = 0
  ascending : found.Pairwise fun i j => i.offset < j.offset
  fills : ∀ k i, found[k]? = some i →
    ∃ (start next : Nat) (code : UInt8) (operands : Operands (Form.of code)),
      boundary found stop (k + 1) = next ∧ Fills bytes start next code operands i
  returns : ∀ k i, found[k]? = some i → i.opcode = Opcode.ret → k + 1 = found.length
  ends : stop = bytes.length ∨
    stop ≤ bytes.length ∧ ∃ i, found.getLast? = some i ∧ i.opcode = Opcode.ret

theorem placed_from (offset : Nat) (program : List Instruction) :
    ∀ i ∈ placed offset program, (offset : Int) ≤ i.offset := by
  induction program generalizing offset with
  | nil => exact nofun
  | cons i program ih =>
    intro j member
    rcases List.mem_cons.mp member with rfl | member
    · exact Int.le_refl _
    · have later := ih (offset + i.wire.length) j member
      omega

theorem placed_ascending (offset : Nat) (program : List Instruction) :
    (placed offset program).Pairwise fun i j => i.offset < j.offset := by
  induction program generalizing offset with
  | nil => exact .nil
  | cons i program ih =>
    refine .cons ?_ (ih _)
    intro j member
    have later := placed_from (offset + i.wire.length) program j member
    have some : 0 < i.wire.length := Nat.zero_lt_succ _
    change (offset : Int) < j.offset
    omega

theorem placed_getElem? (program : List Instruction) (k : Nat) :
    (placed 0 program)[k]? = program[k]?.map fun i => i.at (script (program.take k)).length := by
  simp [placed_eq_mapIdx]

theorem boundary_placed {program : List Instruction} {k : Nat} (inside : k ≤ program.length) :
    boundary (placed 0 program) (script program).length k =
      (script (program.take k)).length := by
  unfold boundary
  rw [placed_getElem?]
  rcases Nat.lt_or_eq_of_le inside with before | rfl
  · rw [List.getElem?_eq_getElem before]
    rfl
  · rw [List.getElem?_eq_none (Nat.le_refl _), List.take_length]
    rfl

theorem script_at {program : List Instruction} {k : Nat} {i : Instruction}
    (there : program[k]? = some i) :
    script program = script (program.take k) ++ (i.wire ++ script (program.drop (k + 1))) ∧
      (script (program.take (k + 1))).length =
        (script (program.take k)).length + i.wire.length := by
  obtain ⟨inside, same⟩ := List.getElem?_eq_some_iff.mp there
  constructor
  · conv => lhs; rw [← List.take_append_drop k program, List.drop_eq_getElem_cons inside, same]
    simp [script]
  · rw [List.take_add_one, there]
    simp [script]

theorem program_fills {program : List Instruction} {tail : List UInt8} {k : Nat} {i : Instruction}
    (there : program[k]? = some i) :
    Fills (script program ++ tail) (script (program.take k)).length
      (script (program.take (k + 1))).length i.code i.operands
      (i.at (script (program.take k)).length) := by
  obtain ⟨bytes, next⟩ := script_at there
  have wire : i.wire = i.code :: i.operands.wire := rfl
  have length : i.wire.length = i.operands.wire.length + 1 := rfl
  constructor
  · rfl
  · constructor
    · omega
    · rw [bytes, next]
      simp only [List.length_append]
      omega
  · constructor
    · rw [bytes, wire, List.append_assoc, List.getElem?_append_right (Nat.le_refl _), Nat.sub_self]
      rfl
    · rfl
  · constructor
    · have width : (script (program.take k)).length + i.wire.length -
          ((script (program.take k)).length + 1) = i.operands.wire.length := by
        omega
      rw [List.extract_eq_take_drop, next, width, bytes, wire, List.append_assoc, ← List.drop_drop,
        List.drop_left]
      simp
    · rfl

theorem program_covers {program : List Instruction} {tail : List UInt8}
    (complete : Complete program tail) :
    Covers (script program ++ tail) (placed 0 program) (script program).length := by
  have length : (placed 0 program).length = program.length := by
    simp [placed_eq_mapIdx]
  constructor
  · exact boundary_placed (Nat.zero_le _)
  · exact placed_ascending 0 program
  · intro k found there
    rw [placed_getElem?] at there
    obtain ⟨i, member, rfl⟩ := Option.map_eq_some_iff.mp there
    obtain ⟨inside, _⟩ := List.getElem?_eq_some_iff.mp member
    exact ⟨_, _, i.code, i.operands, boundary_placed inside, program_fills member⟩
  · intro k found there stops
    rw [placed_getElem?] at there
    obtain ⟨i, member, rfl⟩ := Option.map_eq_some_iff.mp there
    obtain ⟨inside, same⟩ := List.getElem?_eq_some_iff.mp member
    rw [opcode_eq_ret] at stops
    rw [length]
    by_cases last : k + 1 = program.length
    · exact last
    have early : k < program.dropLast.length := by
      rw [List.length_dropLast]
      omega
    have kept : i ∈ program.dropLast := by
      rw [← same, ← List.getElem_dropLast early]
      exact List.getElem_mem early
    exact absurd stops (complete.returns i kept)
  · by_cases empty : tail = []
    · left
      rw [empty, List.append_nil]
    · right
      obtain ⟨i, last, stops⟩ := complete.ends empty
      refine ⟨by simp, i.at (script program.dropLast).length, ?_, (opcode_eq_ret i _).mpr stops⟩
      rw [List.getLast?_eq_getElem?] at last ⊢
      rw [length, placed_getElem?, last, List.dropLast_eq_take]
      rfl

/-- Disassembly finds every byte of a script in exactly one instruction, up to the first return or
the last byte. It stops at an operand that the script cuts off or at a number above the limit, and
the kind of the cause tells which. -/
theorem disassembly_covers_script (bytes : List UInt8) :
    (∀ found, disassemble bytes = .ok found → ∃ stop, Covers bytes found stop) ∧
    ((∃ f, disassemble bytes = .error f ∧ f.kind = .bounds) ↔ Breaks CutShort bytes) ∧
    ((∃ f, disassemble bytes = .error f ∧ f.kind = .format) ↔ Breaks TooLarge bytes) ∧
    ∀ f, disassemble bytes = .error f → f.kind = .bounds ∨ f.kind = .format := by
  have short : Breaks CutShort bytes → ∃ f, disassemble bytes = .error f ∧ f.kind = .bounds :=
    disassemble_breaks cutShort_stops
  have large : Breaks TooLarge bytes → ∃ f, disassemble bytes = .error f ∧ f.kind = .format :=
    disassemble_breaks tooLarge_stops
  rcases script_split bytes with ⟨program, tail, rfl, complete⟩ | cut | above
  · have whole := disassemble_script complete
    rw [whole] at short large ⊢
    refine ⟨?_, ⟨?_, short⟩, ⟨?_, large⟩, nofun⟩
    · rintro found ⟨⟩
      exact ⟨_, program_covers complete⟩
    · rintro ⟨f, ⟨⟩, _⟩
    · rintro ⟨f, ⟨⟩, _⟩
  · obtain ⟨f, stop, cause⟩ := short cut
    rw [stop] at large ⊢
    refine ⟨nofun, ⟨fun _ => cut, fun _ => ⟨f, rfl, cause⟩⟩, ⟨?_, large⟩, ?_⟩
    · rintro ⟨g, ⟨⟩, other⟩
      rw [cause] at other
      cases other
    · rintro g ⟨⟩
      exact Or.inl cause
  · obtain ⟨f, stop, cause⟩ := large above
    rw [stop] at short ⊢
    refine ⟨nofun, ⟨?_, short⟩, ⟨fun _ => above, fun _ => ⟨f, rfl, cause⟩⟩, ?_⟩
    · rintro ⟨g, ⟨⟩, other⟩
      rw [cause] at other
      cases other
    · rintro g ⟨⟩
      exact Or.inr cause

/-- A constant with its length in two bytes and a return with a byte behind it, the same constant
cut off, and a length of four bytes above the limit. -/
theorem constant_covered :
    (∃ stop, Covers [13, 0, 4, 0xfd, 2, 0, 0x68, 0x69, 11, 7]
      [⟨0, 13, [.number 0, .number 4, .bytes [0x68, 0x69]]⟩, ⟨8, 11, []⟩] stop) ∧
    Breaks CutShort [13, 0, 4, 0xfd, 2, 0, 0x68] ∧
    Breaks TooLarge [13, 0, 4, 0xfe, 0, 0, 1, 0, 0x68] := by
  have above : disassemble [13, 0, 4, 0xfe, 0, 0, 1, 0, 0x68] = .error (Number.naming operandMax
      (.varintAbove scriptLabel 0x10000 (toString operandMax))) := rfl
  rw [Number.naming_short operandMax_short] at above
  exact ⟨(disassembly_covers_script _).1 _ rfl, (disassembly_covers_script _).2.1.mp ⟨_, rfl, rfl⟩,
    (disassembly_covers_script _).2.2.1.mp ⟨_, above, rfl⟩⟩

end ChainDecode.Vm.Assembly
