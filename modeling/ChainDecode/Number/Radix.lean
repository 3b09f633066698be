/-! # Positional notation

Digits stand least significant first. Zero has no digits, so leading zeros are never produced.
-/
namespace ChainDecode.Number

def digitsWithin (base : Nat) : Nat → Nat → List Nat
  | 0, _ => []
  | count + 1, n => if n = 0 then [] else n % base :: digitsWithin base count (n / base)

def digits (base n : Nat) : List Nat := digitsWithin base n n

def ofDigits (base : Nat) (ds : List Nat) : Nat := ds.foldr (fun d n => d + base * n) 0

end ChainDecode.Number
