/-! # Numbers in bytes

Little-endian words without sign and in two's complement.
-/
namespace ChainDecode.Number

/-- The number whose bytes are given, least significant first. -/
def ofBytes : List UInt8 → Nat
  | [] => 0
  | b :: rest => b.toNat + 256 * ofBytes rest

def toBytes : (width : Nat) → Nat → List UInt8
  | 0, _ => []
  | width + 1, n => UInt8.ofNat (n % 256) :: toBytes width (n / 256)

def wordSpan (width : Nat) : Nat := Nat.pow 256 width

/-- The number whose two's complement bytes are given; no bytes give zero. -/
def ofSignedBytes (bytes : List UInt8) : Int :=
  let n := ofBytes bytes
  if 2 * n < wordSpan bytes.length then n else (n : Int) - wordSpan bytes.length

def toSignedBytes (width : Nat) (n : Int) : List UInt8 :=
  toBytes width (n % wordSpan width).toNat

end ChainDecode.Number
