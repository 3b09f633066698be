import ChainDecode.Json.Basic
import ChainDecode.Text.Hex

/-! # Addresses

An address is a kind byte, a reserved byte and a key of thirty-two bytes. Its text is a letter for
the kind and the base 58 numeral of all thirty-four; Carbon messages carry the key alone.
-/
namespace ChainDecode

structure Address where
  tag : UInt8
  reserved : UInt8
  key : List UInt8
  key_length : key.length = 32
  deriving DecidableEq, Repr

namespace Address

inductive Kind where
  | invalid
  | user
  | system
  | interop
  deriving DecidableEq, Repr

namespace Kind

def ofTag (tag : UInt8) : Kind :=
  if tag = 0 then .invalid else if tag = 1 then .user else if tag = 2 then .system else .interop

def code : Kind → Nat
  | .invalid => 0
  | .user => 1
  | .system => 2
  | .interop => 3

def letter? : Kind → Option Char
  | .invalid => none
  | .user => some 'P'
  | .system => some 'S'
  | .interop => some 'X'

end Kind

def size : Nat := 34

def nullText : String := "NULL"

def bytes (a : Address) : List UInt8 := a.tag :: a.reserved :: a.key

def ofBytes : List UInt8 → Except Fault Address
  | tag :: reserved :: key =>
    if h : key.length = 32 then .ok ⟨tag, reserved, key, h⟩
    else .error (.addressSize (key.length + 2))
  | bytes => .error (.addressSize bytes.length)

def zero : Address := ⟨0, 0, List.replicate 32 0, by simp⟩

def ofTagAndKey (tag : UInt8) (key : List UInt8) : Except Fault Address :=
  if h : key.length = 32 then .ok ⟨tag, 0, key, h⟩ else .error (.addressKeySize key.length)

/-- An address is null when all behind the kind byte is zero. -/
def isNull (a : Address) : Bool := (a.reserved :: a.key).all (· = 0)

def kind (a : Address) : Kind := if a.isNull then .system else Kind.ofTag a.tag

def isSystem (a : Address) : Bool := a.kind = .system

def text (a : Address) : String :=
  if a.isNull then nullText
  else String.ofList [a.kind.letter?.getD '?'] ++ Text.Base58.encode a.bytes

def members (a : Address) : List (Text × Json) :=
  [("raw", .str (Text.Hex.encode a.bytes)), ("kind", .nat a.kind.code), ("null", .bool a.isNull),
    ("system", .bool a.isSystem), ("key", .str (Text.Hex.encode a.key)), ("text", .str a.text)]

/-- The address that a text names. Blanks around it are ignored, and the letter in front has to
agree with the kind. -/
def ofText (text : Text) : Except Fault Address :=
  let value := text.strip
  if value = nullText then .ok zero
  else
    match value.letters with
    | letter :: numeral =>
      if numeral.isEmpty then .error (.addressText text)
      else
        match Text.Base58.decode numeral with
        | .error reason => .error (.addressNumeral text reason)
        | .ok bytes =>
          if bytes.length ≠ size then .error (.addressDecodedSize bytes.length)
          else do
            let a ← ofBytes bytes
            if a.kind.letter?.map .char = some letter then pure a
            else .error (.addressLetter letter)
    | [] => .error (.addressText text)

/-- Keys that start with fifteen zero bytes belong to the system. -/
def isSystemKey (key : List UInt8) : Bool := (key.take 15).all (· = 0)

def ofKey (key : List UInt8) : Except Fault Address :=
  if h : key.length = 32 then .ok ⟨if isSystemKey key then 2 else 1, 0, key, h⟩
  else .error (.keySize key.length)

def textOfKeyHex (hex : Text) : Except Fault String := do
  let key ← Text.Hex.decode hex
  let a ← ofKey key
  pure a.text

/-- The key behind an address text; foreign addresses have none. -/
def keyOfText (text : Text) : Except Fault (List UInt8) := do
  let a ← ofText text
  if a.kind = .interop then .error .interopAddress else pure a.key

inductive Direction where
  | keyToText
  | textToKey
  deriving DecidableEq, Repr

def Direction.name : Direction → String
  | .keyToText => "bytes32-to-pha"
  | .textToKey => "pha-to-bytes32"

structure Conversion where
  direction : Direction
  address : Address
  deriving DecidableEq, Repr

namespace Conversion

def kindName (c : Conversion) : String := if c.address.isSystem then "system" else "user"

def toJson (c : Conversion) : Json :=
  .obj [("direction", .str c.direction.name), ("bytes32", .str (Text.Hex.encode c.address.key)),
    ("text", .str c.address.text), ("kind", .str c.kindName)]

end Conversion

/-- Converts a key in hexadecimal or an address text, whichever is given; an empty text counts as
not given. -/
def convert (key text : Option Text) : Except Fault Conversion :=
  match key.filter (!·.isEmpty), text.filter (!·.isEmpty) with
  | some _, some _ => .error .bothAddressInputs
  | some hex, none => do
    let key ← Text.Hex.decode hex
    let a ← ofKey key
    pure ⟨.keyToText, a⟩
  | none, some text => do
    let a ← ofText text
    if a.kind = .interop then .error .interopAddress else pure ⟨.textToKey, a⟩
  | none, none => .error .noAddressInput

end Address

end ChainDecode
