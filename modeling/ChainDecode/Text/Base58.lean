import ChainDecode.Number.Radix
import ChainDecode.Number.Bytes
import ChainDecode.Text.Encoding

/-! # Base 58

A byte string is written as one big-endian number over an alphabet without look-alikes; each zero
byte in front becomes one leading first letter.
-/
namespace ChainDecode.Text.Base58

def alphabet : List Char :=
  "123456789ABCDEFGHJKLMNPQRSTUVWXYZabcdefghijkmnopqrstuvwxyz".toList

inductive Fault where
  | badLetter (c : Char)
  | notAscii (u : Unencodable)
  deriving DecidableEq, Repr

def Fault.message : Fault → String
  | .badLetter c => s!"Invalid character {quoted (single (.char c))}"
  | .notAscii u => u.message

def letterValue (c : Char) : Except Fault Nat :=
  match alphabet.idxOf? c with
  | some n => .ok n
  | none => .error (.badLetter c)

def letter (n : Nat) : Char := alphabet.getD n '1'

def encode (bytes : List UInt8) : String :=
  let zeros := (bytes.takeWhile (· = 0)).length
  let value := Number.ofBytes bytes.reverse
  String.ofList (List.replicate zeros '1' ++ (Number.digits 58 value).reverse.map letter)

def decodeChars (cs : List Char) : Except Fault (List UInt8) := do
  let zeros := (cs.takeWhile (· = '1')).length
  let values ← (cs.dropWhile (· = '1')).mapM letterValue
  let value := Number.ofDigits 58 values.reverse
  pure (List.replicate zeros 0 ++ ((Number.digits 256 value).map UInt8.ofNat).reverse)

def decode (ls : List Letter) : Except Fault (List UInt8) :=
  match Encoding.ascii.unencodable? ⟨ls⟩ with
  | some u => .error (.notAscii u)
  | none => decodeChars (ls.filterMap Letter.char?)

end ChainDecode.Text.Base58
