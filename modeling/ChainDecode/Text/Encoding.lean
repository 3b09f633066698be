import ChainDecode.Text.Quoted

/-! # Encodings and the letters they lack

An encoding has no bytes for some letters. A text that holds such letters is refused at the first
run of them, and the refusal tells where that run is.
-/
namespace ChainDecode.Text

inductive Encoding where
  | ascii
  | utf8
  -- UTF-8 for names of files, where some surrogates stand for a byte.
  | path
  deriving DecidableEq, Repr

/-- The first run of letters that an encoding lacks. -/
structure Unencodable where
  encoding : Encoding
  letter : Letter
  start : Nat
  count : Nat
  deriving DecidableEq, Repr

namespace Encoding

def name : Encoding → String
  | ascii => "ascii"
  | utf8 | path => "utf-8"

def covers : Encoding → Letter → Bool
  | ascii, l => l.codePoint < 128
  | utf8, l => l.char?.isSome
  | path, .char _ => true
  | path, .surrogate place => 0x480 ≤ place.val && place.val ≤ 0x4ff

def refusal : Encoding → String
  | ascii => "ordinal not in range(128)"
  | utf8 | path => "surrogates not allowed"

def unencodable? (e : Encoding) (t : Text) : Option Unencodable :=
  match t.letters.dropWhile e.covers with
  | [] => none
  | l :: rest =>
    some ⟨e, l, (t.letters.takeWhile e.covers).length,
      (rest.takeWhile (!e.covers ·)).length + 1⟩

end Encoding

def Unencodable.message (u : Unencodable) : String :=
  let run :=
    if u.count = 1 then
      "character '" ++ String.ofList (codeEscape u.letter) ++ s!"' in position {u.start}"
    else s!"characters in position {u.start}-{u.start + u.count - 1}"
  s!"'{u.encoding.name}' codec can't encode {run}: {u.encoding.refusal}"

end ChainDecode.Text
