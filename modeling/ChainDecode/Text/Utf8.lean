/-! # Reading UTF-8

Malformed input is replaced: each longest prefix of a well-formed sequence that breaks off, and
each byte that starts none, gives one replacement character. The strict reading refuses it instead.
-/
namespace ChainDecode.Text.Utf8

/-- A lead byte: the bits it contributes and what each following byte has to lie between. -/
structure Lead where
  bits : Nat
  tails : List (UInt8 × UInt8)

def anyTail : UInt8 × UInt8 := (0x80, 0xbf)

/-- The lead bytes. Narrowed second bytes keep out overlong forms, surrogates and code points
above the last one. -/
def lead? (b : UInt8) : Option Lead :=
  if b < 0x80 then some ⟨b.toNat, []⟩
  else if 0xc2 ≤ b && b ≤ 0xdf then some ⟨b.toNat - 0xc0, [anyTail]⟩
  else if b = 0xe0 then some ⟨0, [(0xa0, 0xbf), anyTail]⟩
  else if b = 0xed then some ⟨0xd, [(0x80, 0x9f), anyTail]⟩
  else if 0xe1 ≤ b && b ≤ 0xef then some ⟨b.toNat - 0xe0, [anyTail, anyTail]⟩
  else if b = 0xf0 then some ⟨0, [(0x90, 0xbf), anyTail, anyTail]⟩
  else if 0xf1 ≤ b && b ≤ 0xf3 then some ⟨b.toNat - 0xf0, [anyTail, anyTail, anyTail]⟩
  else if b = 0xf4 then some ⟨4, [(0x80, 0x8f), anyTail, anyTail]⟩
  else none

/-- Takes the expected following bytes as long as they fit. The code point is absent when one is
missing or does not fit; what is left starts at the byte that broke the sequence off. -/
def takeTails (bits : Nat) : List (UInt8 × UInt8) → List UInt8 → Option Nat × List UInt8
  | [], rest => (some bits, rest)
  | _ :: _, [] => (none, [])
  | (low, high) :: tails, b :: rest =>
    if low ≤ b && b ≤ high then takeTails (bits * 64 + (b.toNat - 0x80)) tails rest
    else (none, b :: rest)

theorem length_takeTails (bits : Nat) (tails : List (UInt8 × UInt8)) (bytes : List UInt8) :
    (takeTails bits tails bytes).2.length ≤ bytes.length := by
  induction tails generalizing bits bytes with
  | nil => simp [takeTails]
  | cons t tails ih =>
    cases bytes with
    | nil => simp [takeTails]
    | cons b rest =>
      obtain ⟨low, high⟩ := t
      simp only [takeTails]
      split
      · exact Nat.le_succ_of_le (ih _ rest)
      · simp

def step (b : UInt8) (rest : List UInt8) : Option Char × List UInt8 :=
  match lead? b with
  | none => (none, rest)
  | some lead =>
    let taken := takeTails lead.bits lead.tails rest
    (taken.1.map Char.ofNat, taken.2)

theorem length_step (b : UInt8) (rest : List UInt8) : (step b rest).2.length ≤ rest.length := by
  unfold step
  split
  · exact Nat.le_refl _
  · exact length_takeTails ..

def scan : List UInt8 → List (Option Char)
  | [] => []
  | b :: rest => (step b rest).1 :: scan (step b rest).2
termination_by bytes => bytes.length
decreasing_by exact Nat.lt_succ_of_le (length_step b rest)

def replacement : Char := Char.ofNat 0xfffd

/-- The text of a byte string with every malformed part replaced. -/
def decode (bytes : List UInt8) : String :=
  String.ofList ((scan bytes).map (·.getD replacement))

def decode? (bytes : List UInt8) : Option String :=
  ((scan bytes).mapM id).map String.ofList

def encode (s : String) : List UInt8 := s.toUTF8.toList

end ChainDecode.Text.Utf8
