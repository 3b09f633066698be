import ChainDecode.Fault
import ChainDecode.Text.Blank
import ChainDecode.Text.Digit

/-! # Decimal numerals

Integers are written and read with at most 4300 digits. A numeral that is read may have blanks
around it, a sign, digits of any script and single underscores between digits.
-/
namespace ChainDecode.Number

def maxDigits : Nat := 4300

/-- The least number that is too long for a numeral. Nothing should compute it in passing. -/
@[irreducible] def leastLong : Nat := Nat.pow 10 maxDigits

def IsLong (n : Int) : Prop := leastLong ≤ n.natAbs

instance (n : Int) : Decidable (IsLong n) := inferInstanceAs (Decidable (_ ≤ _))

def numeral (n : Int) : Except Fault String :=
  if IsLong n then .error .digitLimit else .ok (toString n)

/-- A cause that names a number, unless the number is too long to be named. -/
def naming (n : Int) (f : Fault) : Fault := if IsLong n then .digitLimit else f

/-- A character as a numeral sees it: digits of any script are plain digits, and blanks outside
ASCII are spaces. -/
def plainChar (c : Char) : Char :=
  if c.toNat < 127 then c
  else if Text.isBlank c then ' '
  else match Text.decimalDigit? c with
    | some d => Char.ofNat (0x30 + d)
    | none => '?'

def plain (l : Letter) : Char := (l.char?.map plainChar).getD '?'

def isMargin (c : Char) : Bool := c = ' ' || (9 ≤ c.toNat && c.toNat ≤ 13)

/-- The digits of a numeral, and what follows them. Absent where underscores are misplaced. -/
def digitRun : (afterDigit : Bool) → List Char → Option (List Nat × List Char)
  | afterDigit, [] => if afterDigit then some ([], []) else none
  | afterDigit, c :: rest =>
    if c.isDigit then (digitRun true rest).map fun r => ((c.toNat - 0x30) :: r.1, r.2)
    else if c = '_' then if afterDigit then digitRun false rest else none
    else if afterDigit then some ([], c :: rest) else none

def signed : List Char → Bool × List Char
  | '-' :: rest => (true, rest)
  | '+' :: rest => (false, rest)
  | cs => (false, cs)

def ofNumeral (text : Text) : Except Fault Int :=
  let (negative, cs) := signed ((text.letters.map plain).dropWhile isMargin)
  match digitRun false cs with
  | none => .error (.badNumeral text)
  | some (digits, rest) =>
    if maxDigits < digits.length then .error (.longNumeral digits.length)
    else if (rest.dropWhile isMargin).isEmpty then
      let n : Nat := digits.foldl (fun n d => 10 * n + d) 0
      .ok (if negative then -(n : Int) else n)
    else .error (.badNumeral text)

end ChainDecode.Number
