import ChainDecode.Text.Case
import ChainDecode.Text.Utf8

/-! # Paths

A path is a list of names below the working directory or the root. Empty names and single points
are dropped. A name is a row of bytes: a surrogate in it stands for a byte that is part of no
character.
-/
namespace ChainDecode.Abi

structure Path where
  root : Text
  names : List Text
  deriving DecidableEq, Repr

namespace Path

def segments : List Letter → List (List Letter)
  | [] => [[]]
  | l :: rest =>
    if l = .char '/' then [] :: segments rest
    else match segments rest with
      | [] => [[l]]
      | part :: parts => (l :: part) :: parts

/-- The path that a text spells. Exactly two slashes in front are kept apart from one. -/
def ofText (text : Text) : Path :=
  let slashes := (text.letters.takeWhile (· = .char '/')).length
  let root := if slashes = 0 then "" else if slashes = 2 then "//" else "/"
  let names := (segments text.letters).map Text.mk
  ⟨root, names.filter fun name => !name.isEmpty && name ≠ "."⟩

def text (p : Path) : Text :=
  let spelled := p.root ++ Text.joined "/" p.names
  if spelled.isEmpty then "." else spelled

def name (p : Path) : Text := p.names.getLast?.getD ""

def nameBytes (name : Text) : List UInt8 :=
  name.letters.flatMap fun
    | .char c => Text.Utf8.encode (String.singleton c)
    | .surrogate place => [UInt8.ofNat place]

def byteLetter (b : UInt8) : Letter := .ofCodePoint (0xdc00 + b.toNat)

def nameLetters : List UInt8 → List Letter
  | [] => []
  | b :: rest =>
    let behind := (Text.Utf8.step b rest).2
    match (Text.Utf8.step b rest).1 with
    | some c => .char c :: nameLetters behind
    | none =>
      (b :: rest.take (rest.length - behind.length)).map byteLetter ++ nameLetters behind
termination_by bytes => bytes.length
decreasing_by all_goals exact Nat.lt_succ_of_le (Text.Utf8.length_step b rest)

/-- The name under which a directory lists a name: bytes that make up a character stand for it. -/
def listedName (name : Text) : Text := ⟨nameLetters (nameBytes name)⟩

def child (p : Path) (name : Text) : Path := { p with names := p.names ++ [name] }

def suffix (name : Text) : Text :=
  let behind := name.letters.reverse.takeWhile (· ≠ .char '.')
  let front := name.letters.length - behind.length
  if 1 < front && !behind.isEmpty then ⟨.char '.' :: behind.reverse⟩ else ""

def isJsonName (name : Text) : Bool := (suffix name).lower = ".json"

end Path

end ChainDecode.Abi
