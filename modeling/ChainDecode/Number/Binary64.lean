import ChainDecode.Text.HexDigit

/-! # Binary floating point numbers

A number is kept as its sixty-four bits. It is cut to an integer exactly and written with the
fewest digits that read back as the same number.
-/
namespace ChainDecode.Number

structure Binary64 where
  bits : UInt64
  deriving DecidableEq, Repr, Inhabited

namespace Binary64

inductive Form where
  | notANumber
  | infinite (negative : Bool)
  -- The magnitude is `mantissa * 2 ^ exponent`.
  | finite (negative : Bool) (mantissa : Nat) (exponent : Int)

def leadingBit : Nat := 0x10000000000000

def form (x : Binary64) : Form :=
  let n := x.bits.toNat
  let negative := 0x8000000000000000 ≤ n
  let exponent : Nat := n / leadingBit % 2048
  let fraction : Nat := n % leadingBit
  if exponent = 2047 then
    if fraction = 0 then .infinite negative else .notANumber
  else if exponent = 0 then .finite negative fraction (-1074)
  else .finite negative (leadingBit + fraction) ((exponent : Int) - 1075)

def nan : Binary64 := ⟨0x7ff8000000000000⟩

def infinity (negative : Bool) : Binary64 :=
  if negative then ⟨0xfff0000000000000⟩ else ⟨0x7ff0000000000000⟩

/-- The number nearest to `digits * 10 ^ exponent`, infinite above the range. -/
def ofDecimal (negative : Bool) (digits : Nat) (exponent : Int) : Binary64 :=
  let size : Int := exponent + (toString digits).length
  let magnitude : UInt64 :=
    if digits = 0 || size < -400 then 0
    else if 400 < size then 0x7ff0000000000000
    else if exponent < 0 then (Float.ofScientific digits true exponent.natAbs).toBits
    else (Float.ofScientific digits false exponent.natAbs).toBits
  ⟨if negative then magnitude ||| 0x8000000000000000 else magnitude⟩

def power (base : Nat) (exponent : Int) : Nat × Nat :=
  if exponent < 0 then (1, Nat.pow base exponent.natAbs) else (Nat.pow base exponent.natAbs, 1)

def integerPart (mantissa : Nat) (exponent : Int) : Nat :=
  let p := power 2 exponent
  mantissa * p.1 / p.2

def whole? (x : Binary64) : Option Int :=
  match x.form with
  | .finite negative mantissa exponent =>
    let p := power 2 exponent
    if mantissa * p.1 % p.2 = 0 then
      let n : Int := integerPart mantissa exponent
      some (if negative then -n else n)
    else none
  | _ => none

def ceiling? (x : Binary64) : Option Int :=
  match x.form with
  | .finite negative mantissa exponent =>
    let p := power 2 exponent
    let scaled : Int := mantissa * p.1
    some (-((if negative then scaled else -scaled) / p.2))
  | _ => none

def fraction (x : Binary64) : Float :=
  let f := Float.ofBits x.bits
  f - if f < 0.0 then f.ceil else f.floor

def isBelow (x : Binary64) (bound : Int) : Bool :=
  match x.form with
  | .notANumber => false
  | .infinite negative => negative
  | .finite negative mantissa exponent =>
    let p := power 2 exponent
    let scaled : Int := mantissa * p.1
    (if negative then -scaled else scaled) < bound * p.2

/-- The decimal numeral with `count` digits nearest to a magnitude, if it reads back: its digits
and the exponent of the last one. `place` is the number of digits before the point. -/
def shortened? (mantissa : Nat) (exponent place : Int) (count : Nat) : Option (Nat × Int) :=
  let unit := power 2 (exponent - 2)
  let grid := power 10 (place - count)
  let scale := grid.1 * unit.2
  let value := 4 * mantissa * unit.1 * grid.2
  let lowest := if mantissa = leadingBit then 4 * mantissa - 1 else 4 * mantissa - 2
  let below := lowest * unit.1 * grid.2
  let above := (4 * mantissa + 2) * unit.1 * grid.2
  let reads (n : Nat) : Bool :=
    if mantissa % 2 = 0 then below ≤ n * scale && n * scale ≤ above
    else below < n * scale && n * scale < above
  let low := value / scale
  let lowGap := value - low * scale
  let highGap := (low + 1) * scale - value
  let lowFirst := lowGap < highGap || (lowGap = highGap && low % 2 = 0)
  if reads low && (lowFirst || !reads (low + 1)) then some (low, place - count)
  else if reads (low + 1) then some (low + 1, place - count)
  else none

def shortest (mantissa : Nat) (exponent : Int) : Nat × Int :=
  let p := power 2 exponent
  let place : Int := (toString (mantissa * Nat.pow 10 400 * p.1 / p.2)).length - 400
  ((List.range 17).findSome? fun n => shortened? mantissa exponent place (n + 1)).getD (0, 0)

/-- Digits with a point after the first `place` of them, positional for moderate places and in
exponent notation otherwise. -/
def layOut (digits : List Char) (place : Int) : String :=
  let n : Int := digits.length
  if -4 < place && place ≤ 16 then
    if place ≤ 0 then String.ofList ("0.".toList ++ List.replicate place.natAbs '0' ++ digits)
    else if n ≤ place then
      String.ofList (digits ++ List.replicate (place - n).toNat '0' ++ ['.', '0'])
    else String.ofList (digits.take place.toNat ++ '.' :: digits.drop place.toNat)
  else
    let exponent := place - 1
    let mark := if exponent < 0 then "e-" else "e+"
    let power := toString exponent.natAbs
    let padded := if power.length < 2 then "0" ++ power else power
    match digits with
    | [d] => String.ofList [d] ++ mark ++ padded
    | _ => String.ofList (digits.take 1 ++ '.' :: digits.drop 1) ++ mark ++ padded

def trimZeros (digits : List Char) : List Char :=
  (digits.reverse.dropWhile (· == '0')).reverse

def text (x : Binary64) : String :=
  match x.form with
  | .notANumber => "nan"
  | .infinite negative => if negative then "-inf" else "inf"
  | .finite negative mantissa exponent =>
    let sign := if negative then "-" else ""
    if mantissa = 0 then sign ++ "0.0"
    else
      let (n, e) := shortest mantissa exponent
      let digits := (toString n).toList
      sign ++ layOut (trimZeros digits) (e + digits.length)

def exactText (x : Binary64) : String :=
  match x.form with
  | .notANumber => "nan"
  | .infinite negative => if negative then "-inf" else "inf"
  | .finite negative mantissa exponent =>
    let sign := if negative then "-" else ""
    if mantissa = 0 then sign ++ "0x0.0p+0"
    else
      let lead := if mantissa < leadingBit then "0x0." else "0x1."
      let digits := String.ofList (Text.hexFixed 13 (mantissa % leadingBit))
      let mark := if exponent + 52 < 0 then "p-" else "p+"
      sign ++ lead ++ digits ++ mark ++ toString (exponent + 52).natAbs

end Binary64

end ChainDecode.Number
