import ChainDecode.Proofs.Number.Numeral
import ChainDecode.Proofs.Reading
import ChainDecode.Vm.Script

/-! # Assembled scripts

A program is a list of instructions whose operands stand in the layout of their opcode. Its script
is disassembled to the program again, each instruction where the ones before it end.
-/
namespace ChainDecode.Vm

theorem operandMax_short : ¬ Number.IsLong operandMax := Number.word_short (by decide)

namespace Assembly

inductive Form where
  | none
  | register
  | pair
  | triple
  | load
  | cast
  | call
  | jump
  | branch
  | slice
  | range
  deriving DecidableEq

def Form.ofNumber (n : Nat) : Form :=
  if n ∈ [3, 4, 7, 12, 30, 31, 46, 49] then .register
  else if n ∈ [1, 2, 5, 19, 20, 21, 32, 33, 34, 45, 50, 54] then .pair
  else if n ∈ [15, 22, 23, 24, 25, 26, 27, 28, 29, 35, 36, 37, 38, 39, 40, 41, 42, 43, 44, 47, 48]
  then .triple
  else if n = 13 then .load
  else if n = 14 then .cast
  else if n = 6 then .call
  else if n = 8 then .jump
  else if n ∈ [9, 10] then .branch
  else if n ∈ [17, 18] then .slice
  else if n = 16 then .range
  else .none

def Form.of (code : UInt8) : Form := .ofNumber code.toNat

/-- In how many bytes a number of variable width is written behind its mark, if it has one. -/
inductive Width where
  | unmarked
  | two
  | four
  | eight
  deriving DecidableEq

/-- A number of variable width in one of the forms that hold it. -/
structure Size where
  value : UInt16
  width : Width
  fits : width = .unmarked → value.toNat < 0xfd

structure Payload where
  bytes : List UInt8
  length : Size
  exact : length.value.toNat = bytes.length

inductive Operands : Form → Type where
  | none : Operands .none
  | register (r : UInt8) : Operands .register
  | pair (source target : UInt8) : Operands .pair
  | triple (first second third : UInt8) : Operands .triple
  | load (target type : UInt8) (payload : Payload) : Operands .load
  | cast (source target type : UInt8) : Operands .cast
  | call (count : UInt8) (place : UInt16) : Operands .call
  | jump (place : UInt16) : Operands .jump
  | branch (r : UInt8) (place : UInt16) : Operands .branch
  | slice (source target : UInt8) (length : Size) : Operands .slice
  | range (source target : UInt8) (index length : Size) : Operands .range

structure Instruction where
  code : UInt8
  operands : Operands (Form.of code)

def Instruction.isReturn (i : Instruction) : Prop := i.code = 11

def Size.wire (s : Size) : List UInt8 :=
  match s.width with
  | .unmarked => Number.toBytes 1 s.value.toNat
  | .two => 0xfd :: Number.toBytes 2 s.value.toNat
  | .four => 0xfe :: Number.toBytes 4 s.value.toNat
  | .eight => 0xff :: Number.toBytes 8 s.value.toNat

def placeBytes (place : UInt16) : List UInt8 := Number.toBytes 2 place.toNat

def Operands.wire {form : Form} : Operands form → List UInt8
  | none => []
  | register r => [r]
  | pair source target => [source, target]
  | triple first second third => [first, second, third]
  | load target type payload => target :: type :: (payload.length.wire ++ payload.bytes)
  | cast source target type => [source, target, type]
  | call count place => count :: placeBytes place
  | jump place => placeBytes place
  | branch r place => r :: placeBytes place
  | slice source target length => source :: target :: length.wire
  | range source target index length => source :: target :: (index.wire ++ length.wire)

def Instruction.wire (i : Instruction) : List UInt8 := i.code :: i.operands.wire

/-- The script of a program. -/
def script (program : List Instruction) : List UInt8 := program.flatMap Instruction.wire

def castName (type : UInt8) : Text :=
  (["None", "Struct", "Bytes", "Number", "String", "Timestamp", "Bool", "Enum",
    "Object"])[type.toNat]?.getD s!"VMType_{type.toNat}"

def Operands.shown {form : Form} : Operands form → List Operand
  | none => []
  | register r => [.number r.toNat]
  | pair source target => [.number source.toNat, .number target.toNat]
  | triple first second third => [.number first.toNat, .number second.toNat, .number third.toNat]
  | load target type payload => [.number target.toNat, .number type.toNat, .bytes payload.bytes]
  | cast source target type => [.number source.toNat, .number target.toNat, .text (castName type)]
  | call count place => [.number count.toNat, .number place.toNat]
  | jump place => [.number place.toNat]
  | branch r place => [.number r.toNat, .number place.toNat]
  | slice source target length =>
    [.number source.toNat, .number target.toNat, .number length.value.toNat]
  | range source target index length =>
    [.number source.toNat, .number target.toNat, .number index.value.toNat,
      .number length.value.toNat]

/-- The instruction as it is read at an offset. -/
def Instruction.at (i : Instruction) (offset : Nat) : Vm.Instruction :=
  ⟨offset, i.code.toNat, i.operands.shown⟩

/-- The instructions of a program, the first at an offset and each other where the last one ends. -/
def placed (offset : Nat) : List Instruction → List Vm.Instruction
  | [] => []
  | i :: rest => i.at offset :: placed (offset + i.wire.length) rest

def Form.shapes : Form → List OperandShape
  | none => []
  | register => [.byte]
  | pair => [.byte, .byte]
  | triple => [.byte, .byte, .byte]
  | load => [.byte, .byte, .payload]
  | cast => [.byte, .byte, .typeName]
  | call => [.byte, .target]
  | jump => [.target]
  | branch => [.byte, .target]
  | slice => [.byte, .byte, .size]
  | range => [.byte, .byte, .size, .size]

theorem table_shapes (code : UInt8) :
    (Opcode.ofCode code.toNat).operands = (Form.of code).shapes := by
  have all : ∀ n : Nat, n < 256 → (Opcode.ofCode n).operands = (Form.ofNumber n).shapes := by
    decide +kernel
  exact all code.toNat code.toNat_lt

theorem size_reads (s : Size) :
    Reads (Buffer.varint scriptLabel operandMax) s.wire s.value.toNat := by
  have small : s.value.toNat < 0x10000 := s.value.toNat_lt
  refine Reads.varint_of_any ?_ (by unfold operandMax; omega)
  unfold Size.wire
  cases width : s.width with
  | unmarked => exact Reads.anyVarint_byte (s.fits width)
  | two => exact Reads.anyVarint_two small
  | four => exact Reads.anyVarint_four (by omega)
  | eight => exact Reads.anyVarint_eight (by change _ < 0x10000000000000000; omega)

def Size.shortest (n : Nat) (small : n < 0x10000) : Size where
  value := UInt16.ofNatLT n small
  width := if n < 0xfd then .unmarked else .two
  fits := by
    intro width
    split at width
    · assumption
    · cases width

theorem Size.wire_shortest (n : Nat) (small : n < 0x10000) :
    (Size.shortest n small).wire = Buffer.shortest n := by
  have value : (UInt16.ofNatLT n small).toNat = n := rfl
  unfold Size.wire Buffer.shortest
  by_cases one : n < 0xfd
  · simp only [Size.shortest, one, if_true, value]
  · simp only [Size.shortest, one, if_false, value, small, if_true]

theorem castName_eq (type : UInt8) : (ValueType.ofCode type.toNat).name = castName type := by
  unfold castName
  match type.toNat with
  | 0 | 1 | 2 | 3 | 4 | 5 | 6 | 7 | 8 => rfl
  | n + 9 => exact (Text.ofString_append "VMType_" (toString (n + 9))).symm

theorem byte_reads (b : UInt8) : Reads (OperandShape.read .byte) [b] (.number b.toNat) :=
  (Reads.bufferByte scriptLabel b).bind_pure fun n : Nat => Operand.number n

theorem place_reads (place : UInt16) :
    Reads (OperandShape.read .target) (placeBytes place) (.number place.toNat) :=
  (Reads.bufferWord place.toNat_lt).bind_pure fun n : Nat => Operand.number n

theorem sizeOperand_reads (s : Size) :
    Reads (OperandShape.read .size) s.wire (.number s.value.toNat) :=
  (size_reads s).bind_pure fun n : Nat => Operand.number n

theorem type_reads (type : UInt8) :
    Reads (OperandShape.read .typeName) [type] (.text (castName type)) := by
  rw [← castName_eq]
  exact (Reads.bufferByte scriptLabel type).bind_pure fun n : Nat =>
    Operand.text (ValueType.ofCode n).name

theorem payload_reads (payload : Payload) :
    Reads (OperandShape.read .payload) (payload.length.wire ++ payload.bytes)
      (.bytes payload.bytes) := by
  have bytes : Reads (Buffer.take scriptLabel payload.length.value.toNat) payload.bytes
      payload.bytes := Reads.take payload.exact.symm
  exact (size_reads payload.length).bind (bytes.bind_pure Operand.bytes)

theorem operands_nil : Reads (readOperands []) [] [] := Reads.pure []

theorem operands_cons {shape : OperandShape} {shapes : List OperandShape} {front back : List UInt8}
    {operand : Operand} {operands : List Operand} (h : Reads shape.read front operand)
    (k : Reads (readOperands shapes) back operands) :
    Reads (readOperands (shape :: shapes)) (front ++ back) (operand :: operands) :=
  h.bind (k.bind_pure (operand :: ·))

theorem operands_one {shape : OperandShape} {bytes : List UInt8} {operand : Operand}
    (h : Reads shape.read bytes operand) : Reads (readOperands [shape]) bytes [operand] := by
  have whole := operands_cons h operands_nil
  rwa [List.append_nil] at whole

theorem operands_read {form : Form} (operands : Operands form) :
    Reads (readOperands form.shapes) operands.wire operands.shown := by
  cases operands with
  | none => exact operands_nil
  | register r => exact operands_one (byte_reads r)
  | pair source target => exact operands_cons (byte_reads source) (operands_one (byte_reads target))
  | triple first second third =>
    exact operands_cons (byte_reads first)
      (operands_cons (byte_reads second) (operands_one (byte_reads third)))
  | load target type payload =>
    exact operands_cons (byte_reads target)
      (operands_cons (byte_reads type) (operands_one (payload_reads payload)))
  | cast source target type =>
    exact operands_cons (byte_reads source)
      (operands_cons (byte_reads target) (operands_one (type_reads type)))
  | call count place => exact operands_cons (byte_reads count) (operands_one (place_reads place))
  | jump place => exact operands_one (place_reads place)
  | branch r place => exact operands_cons (byte_reads r) (operands_one (place_reads place))
  | slice source target length =>
    exact operands_cons (byte_reads source)
      (operands_cons (byte_reads target) (operands_one (sizeOperand_reads length)))
  | range source target index length =>
    exact operands_cons (byte_reads source)
      (operands_cons (byte_reads target)
        (operands_cons (sizeOperand_reads index) (operands_one (sizeOperand_reads length))))

theorem instruction_reads (i : Instruction) (p : Nat) (rest : List UInt8) :
    readInstruction ⟨p, i.wire ++ rest⟩ = .ok (i.at p) ⟨p + i.wire.length, rest⟩ := by
  have place : Read.position ⟨p, i.wire ++ rest⟩ = .ok p ⟨p, i.wire ++ rest⟩ := rfl
  have byte := Reads.bufferByte scriptLabel i.code p (i.operands.wire ++ rest)
  have operands := operands_read i.operands (p + 1) rest
  rw [← table_shapes] at operands
  have length : p + 1 + i.operands.wire.length = p + i.wire.length := by
    rw [Instruction.wire, List.length_cons]
    omega
  rw [length] at operands
  rw [readInstruction, bind_ok place]
  exact (bind_ok byte).trans (bind_ok operands)

theorem opcode_eq_ret (i : Instruction) (p : Nat) : (i.at p).opcode = Opcode.ret ↔ i.isReturn := by
  have same : i.code.toNat = 11 ↔ i.code = 11 := UInt8.toNat_inj (b := 11)
  rw [Instruction.isReturn, ← same]
  change (i.code.toNat : Int) = 11 ↔ _
  omega

/-- A program whose returns all stand at its end, and what may stand behind it: nothing, unless it
ends with a return. -/
structure Complete (program : List Instruction) (tail : List UInt8) : Prop where
  returns : ∀ i ∈ program.dropLast, ¬ i.isReturn
  ends : tail ≠ [] → ∃ i, program.getLast? = some i ∧ i.isReturn

theorem Complete.rest {i : Instruction} {program : List Instruction} {tail : List UInt8}
    (h : Complete (i :: program) tail) (more : ¬ i.isReturn) : Complete program tail := by
  cases program with
  | nil =>
    refine ⟨nofun, fun nonempty => ?_⟩
    obtain ⟨last, found, stops⟩ := h.ends nonempty
    cases found
    exact absurd stops more
  | cons next program =>
    refine ⟨fun j member => h.returns j (List.mem_cons_of_mem i member), fun nonempty => ?_⟩
    obtain ⟨last, found, stops⟩ := h.ends nonempty
    exact ⟨last, by rwa [List.getLast?_cons_cons] at found, stops⟩

theorem Complete.at_return {i : Instruction} {program : List Instruction} {tail : List UInt8}
    (h : Complete (i :: program) tail) (last : i.isReturn) : program = [] := by
  cases program with
  | nil => rfl
  | cons next program => exact absurd last (h.returns i List.mem_cons_self)

theorem Complete.of_nil {tail : List UInt8} (h : Complete [] tail) : tail = [] := by
  cases tail with
  | nil => rfl
  | cons b tail =>
    obtain ⟨last, found, _⟩ := h.ends (List.cons_ne_nil b tail)
    cases found

theorem readInstructions_nil (most p : Nat) :
    readInstructions most ⟨p, []⟩ = .ok [] ⟨p, []⟩ := by
  cases most with
  | zero => rfl
  | succ most => rfl

theorem readInstructions_return {i : Instruction} (last : i.isReturn) (most p : Nat)
    (rest : List UInt8) :
    readInstructions (most + 1) ⟨p, i.wire ++ rest⟩ = .ok [i.at p] ⟨p + i.wire.length, rest⟩ := by
  have more : (Cursor.mk p (i.wire ++ rest)).atEnd = false := rfl
  rw [readInstructions, bind_get, if_neg (by simp [more]), bind_ok (instruction_reads i p rest),
    if_pos ((opcode_eq_ret i p).mpr last)]
  rfl

theorem readInstructions_step {i : Instruction} (more : ¬ i.isReturn) {most p : Nat}
    {rest : List UInt8} {found : List Vm.Instruction} {c : Cursor}
    (h : readInstructions most ⟨p + i.wire.length, rest⟩ = .ok found c) :
    readInstructions (most + 1) ⟨p, i.wire ++ rest⟩ = .ok (i.at p :: found) c := by
  have some : (Cursor.mk p (i.wire ++ rest)).atEnd = false := rfl
  rw [readInstructions, bind_get, if_neg (by simp [some]), bind_ok (instruction_reads i p rest),
    if_neg (mt (opcode_eq_ret i p).mp more), bind_ok h]
  rfl

/-- From any position on, a program is read to its end, given as many steps as it has bytes. -/
theorem readInstructions_script {program : List Instruction} {tail : List UInt8}
    (complete : Complete program tail) {most : Nat} (enough : (script program).length ≤ most)
    (p : Nat) :
    ∃ c, readInstructions most ⟨p, script program ++ tail⟩ = .ok (placed p program) c := by
  induction program generalizing most p with
  | nil =>
    rw [complete.of_nil]
    exact ⟨_, readInstructions_nil most p⟩
  | cons i program ih =>
    have bytes : script (i :: program) ++ tail = i.wire ++ (script program ++ tail) := by
      simp [script]
    have length : (script (i :: program)).length =
        i.operands.wire.length + (script program).length + 1 := by
      simp [script, Instruction.wire, Nat.add_right_comm]
    obtain ⟨steps, rfl⟩ : ∃ steps, most = steps + 1 := ⟨most - 1, by omega⟩
    rw [bytes]
    by_cases last : i.isReturn
    · rw [complete.at_return last]
      exact ⟨_, readInstructions_return last steps p _⟩
    · have fewer : (script program).length ≤ steps := by omega
      obtain ⟨c, read⟩ := ih (complete.rest last) fewer (p + i.wire.length)
      exact ⟨c, readInstructions_step last read⟩

theorem disassemble_script {program : List Instruction} {tail : List UInt8}
    (complete : Complete program tail) :
    disassemble (script program ++ tail) = .ok (placed 0 program) := by
  have enough : (script program).length ≤ (script program ++ tail).length := by simp
  obtain ⟨c, read⟩ := readInstructions_script complete enough 0
  unfold disassemble Read.onBytes
  rw [EStateM.run, Cursor.start, read]
  rfl

theorem placed_eq_mapIdx (offset : Nat) (program : List Instruction) :
    placed offset program =
      program.mapIdx fun k i => i.at (offset + (script (program.take k)).length) := by
  induction program generalizing offset with
  | nil => rfl
  | cons i program ih =>
    rw [placed, ih, List.mapIdx_cons]
    simp [script, Nat.add_assoc]

/-- A script is disassembled to the program that it was assembled from, whatever stands behind its
return. Each instruction is found where the ones before it end. -/
theorem disassembly_recovers_program (program : List Instruction) (tail : List UInt8)
    (complete : Complete program tail) :
    disassemble (script program ++ tail) =
      .ok (program.mapIdx fun k i => i.at (script (program.take k)).length) := by
  have offsets := placed_eq_mapIdx 0 program
  simp only [Nat.zero_add] at offsets
  rw [disassemble_script complete, offsets]

/-- A program with lengths in three widths, a type without a name and an opcode without one. -/
def mixed : List Instruction :=
  [⟨13, .load 0 4 ⟨[0x68, 0x69], ⟨2, .four, nofun⟩, rfl⟩⟩,
    ⟨16, .range 0 1 ⟨300, .two, nofun⟩ ⟨2, .eight, nofun⟩⟩,
    ⟨17, .slice 0 1 ⟨7, .unmarked, fun _ => by decide⟩⟩, ⟨14, .cast 0 1 9⟩, ⟨200, .none⟩,
    ⟨11, .none⟩]

theorem mixed_recovered :
    Complete mixed [7, 0] ∧
      disassemble
        ([13, 0, 4, 0xfe, 2, 0, 0, 0, 0x68, 0x69, 16, 0, 1, 0xfd, 44, 1, 0xff, 2, 0, 0, 0, 0, 0, 0,
          0, 17, 0, 1, 7, 14, 0, 1, 9, 200, 11] ++ [7, 0]) =
        .ok [⟨0, 13, [.number 0, .number 4, .bytes [0x68, 0x69]]⟩,
          ⟨10, 16, [.number 0, .number 1, .number 300, .number 2]⟩,
          ⟨25, 17, [.number 0, .number 1, .number 7]⟩,
          ⟨29, 14, [.number 0, .number 1, .text "VMType_9"]⟩, ⟨33, 200, []⟩, ⟨34, 11, []⟩] := by
  have complete : Complete mixed [7, 0] := by
    refine ⟨?_, fun _ => ⟨⟨11, .none⟩, rfl, rfl⟩⟩
    simp [mixed, Instruction.isReturn]
  exact ⟨complete, disassembly_recovers_program mixed [7, 0] complete⟩

end Assembly

end ChainDecode.Vm
