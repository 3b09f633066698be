import ChainDecode.Json.Basic
import ChainDecode.Text.HexDigit

/-! # Reading JSON

Beyond the standard the three numbers `NaN`, `Infinity` and `-Infinity` are read, and a repeated
key keeps its first place and its last value. A byte order mark and controls inside strings are
refused, and so is an integer with more digits than a numeral may have.
-/
namespace ChainDecode.Json

inductive ReadFault where
  | malformed
  | digitLimit
  deriving DecidableEq, Repr

def maxDigits : Nat := 4300

def isSpace (c : Char) : Bool := c = ' ' || c = '\t' || c = '\n' || c = '\r'

def skipSpace (ls : List Letter) : List Letter := ls.dropWhile (·.is isSpace)

def leadingDigits (ls : List Letter) : List Letter := ls.takeWhile (·.is Char.isDigit)

def afterDigits (ls : List Letter) : List Letter := ls.dropWhile (·.is Char.isDigit)

def hexValue? (l : Letter) : Option Nat := l.char?.bind Text.hexValue?

def hexUnit? (a b c d : Letter) : Option Nat := do
  let a ← hexValue? a
  let b ← hexValue? b
  let c ← hexValue? c
  let d ← hexValue? d
  pure (((a * 16 + b) * 16 + c) * 16 + d)

def escaped? (c : Char) : Option Char :=
  if c = '"' || c = '\\' || c = '/' then some c
  else if c = 'b' then some (Char.ofNat 8)
  else if c = 'f' then some (Char.ofNat 12)
  else if c = 'n' then some '\n'
  else if c = 'r' then some '\r'
  else if c = 't' then some '\t'
  else none

/-- A piece of a string: a letter, or a unit of sixteen bits that an escape gives by its number. -/
inductive Piece where
  | letter (l : Letter)
  | unit (n : Nat)
  deriving DecidableEq, Repr

def stringPieces : List Letter → Except ReadFault (List Piece × List Letter)
  | [] => .error .malformed
  | .char '\\' :: .char 'u' :: a :: b :: c :: d :: rest =>
    match hexUnit? a b c d with
    | none => .error .malformed
    | some n => do
      let (pieces, after) ← stringPieces rest
      pure (.unit n :: pieces, after)
  | .char '\\' :: l :: rest =>
    match l.char?.bind escaped? with
    | none => .error .malformed
    | some e => do
      let (pieces, after) ← stringPieces rest
      pure (.letter (.char e) :: pieces, after)
  | l :: rest =>
    if l = .char '"' then .ok ([], rest)
    else if l.codePoint < 0x20 then .error .malformed
    else do
      let (pieces, after) ← stringPieces rest
      pure (.letter l :: pieces, after)

/-- Joins the units of surrogate pairs; a surrogate without its other half stands alone. -/
def joinPieces : List Piece → List Letter
  | [] => []
  | .letter l :: rest => l :: joinPieces rest
  | .unit high :: .unit low :: rest =>
    if 0xd800 ≤ high && high ≤ 0xdbff && 0xdc00 ≤ low && low ≤ 0xdfff then
      .ofCodePoint (0x10000 + (high - 0xd800) * 0x400 + (low - 0xdc00)) :: joinPieces rest
    else .ofCodePoint high :: joinPieces (.unit low :: rest)
  | .unit n :: rest => .ofCodePoint n :: joinPieces rest

def readString (ls : List Letter) : Except ReadFault (Text × List Letter) := do
  let (pieces, rest) ← stringPieces ls
  pure (⟨joinPieces pieces⟩, rest)

def digitsValue (ls : List Letter) : Nat :=
  ls.foldl (fun n l => 10 * n + (l.codePoint - 0x30)) 0

def readFraction (ls : List Letter) : List Letter × List Letter :=
  match ls with
  | .char '.' :: rest =>
    match leadingDigits rest with
    | [] => ([], ls)
    | digits => (digits, afterDigits rest)
  | _ => ([], ls)

def readSign : List Letter → Bool × List Letter
  | .char '-' :: rest => (true, rest)
  | .char '+' :: rest => (false, rest)
  | ls => (false, ls)

def readExponent (ls : List Letter) : Option Int × List Letter :=
  match ls with
  | mark :: rest =>
    if mark = .char 'e' || mark = .char 'E' then
      let (negative, rest) := readSign rest
      match leadingDigits rest with
      | [] => (none, ls)
      | digits =>
        let n : Int := digitsValue digits
        (some (if negative then -n else n), afterDigits rest)
    else (none, ls)
  | [] => (none, ls)

/-- The digits in front of a fraction. No other digit follows a zero in front. -/
def wholeDigits (ls : List Letter) : List Letter :=
  match ls with
  | .char '0' :: _ => [.char '0']
  | _ => leadingDigits ls

def readNumber (negative : Bool) (ls : List Letter) : Except ReadFault (Json × List Letter) :=
  let whole := wholeDigits ls
  if whole.isEmpty then .error .malformed
  else
    let (fraction, rest) := readFraction (ls.drop whole.length)
    let (exponent, rest) := readExponent rest
    if fraction.isEmpty && exponent.isNone then
      if maxDigits < whole.length then .error .digitLimit
      else
        let n : Int := digitsValue whole
        .ok (.int (if negative then -n else n), rest)
    else
      let value := Number.Binary64.ofDecimal negative (digitsValue (whole ++ fraction))
        (exponent.getD 0 - fraction.length)
      .ok (.real value, rest)

def words : List (Text × Json) :=
  [("null", .null), ("true", .bool true), ("false", .bool false),
    ("NaN", .real Number.Binary64.nan), ("Infinity", .real (Number.Binary64.infinity false)),
    ("-Infinity", .real (Number.Binary64.infinity true))]

def readWord (ls : List Letter) : Except ReadFault (Json × List Letter) :=
  match words.find? fun w => w.1.letters.isPrefixOf ls with
  | some (word, value) => .ok (value, ls.drop word.letters.length)
  | none =>
    match ls with
    | .char '-' :: rest => readNumber true rest
    | _ => readNumber false ls

mutual

def readValue : (fuel : Nat) → List Letter → Except ReadFault (Json × List Letter)
  | 0, _ => .error .malformed
  | fuel + 1, ls =>
    match ls with
    | .char '[' :: rest =>
      match skipSpace rest with
      | .char ']' :: after => .ok (.arr [], after)
      | first => do
        let (items, after) ← readItems fuel first
        pure (.arr items, after)
    | .char '\x7b' :: rest =>
      match skipSpace rest with
      | .char '\x7d' :: after => .ok (.obj [], after)
      | first => do
        let (members, after) ← readMembers fuel [] first
        pure (.obj members, after)
    | l :: rest =>
      if l = .char '"' then do
        let (s, after) ← readString rest
        pure (.str s, after)
      else readWord ls
    | [] => .error .malformed

def readItems : (fuel : Nat) → List Letter → Except ReadFault (List Json × List Letter)
  | 0, _ => .error .malformed
  | fuel + 1, ls => do
    let (v, rest) ← readValue fuel ls
    match skipSpace rest with
    | .char ',' :: more => do
      let (items, after) ← readItems fuel (skipSpace more)
      pure (v :: items, after)
    | .char ']' :: after => pure ([v], after)
    | _ => .error .malformed

def readMembers : (fuel : Nat) → List (Text × Json) → List Letter →
    Except ReadFault (List (Text × Json) × List Letter)
  | 0, _, _ => .error .malformed
  | fuel + 1, before, ls =>
    match ls with
    | [] => .error .malformed
    | l :: rest =>
      if l = .char '"' then do
        let (key, rest) ← readString rest
        match skipSpace rest with
        | .char ':' :: rest => do
          let (v, rest) ← readValue fuel (skipSpace rest)
          let members := put key v before
          match skipSpace rest with
          | .char ',' :: more => readMembers fuel members (skipSpace more)
          | .char '\x7d' :: after => pure (members, after)
          | _ => .error .malformed
        | _ => .error .malformed
      else .error .malformed

end

def read (text : Text) : Except ReadFault Json := do
  let ls := text.letters
  let (v, rest) ← readValue (2 * ls.length + 2) (skipSpace ls)
  if (skipSpace rest).isEmpty then pure v else .error .malformed

end ChainDecode.Json
