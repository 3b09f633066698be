import ChainDecode.Fault
import ChainDecode.Text.Blank

/-! # Hexadecimal text

Input may be spread over blanks, start with `0x` and use either case; output is two small digits a
byte.
-/
namespace ChainDecode.Text.Hex

def ofByte (b : UInt8) : List Char := [hexDigit (b.toNat / 16), hexDigit (b.toNat % 16)]

def encode (bytes : List UInt8) : String := String.ofList (bytes.flatMap ofByte)

def body : List Letter → List Letter
  | .char '0' :: .char 'x' :: rest => rest
  | .char '0' :: .char 'X' :: rest => rest
  | ls => ls

def isHexDigit (c : Char) : Bool := (hexValue? c).isSome

/-- The digits of a hexadecimal text in the form that output has. -/
def normalChars (text : Text) : Except Fault (List Char) :=
  let ls := body (inked text)
  if ls.length % 2 = 1 then .error (.hexOddLength ls.length)
  else if ls.all (·.is isHexDigit) then .ok ((ls.filterMap Letter.char?).map Char.toLower)
  else .error .hexBadDigit

def normalize (text : Text) : Except Fault String := String.ofList <$> normalChars text

def ofPairs : List Char → List UInt8
  | high :: low :: rest =>
    UInt8.ofNat ((hexValue? high).getD 0 * 16 + (hexValue? low).getD 0) :: ofPairs rest
  | _ => []

def decode (text : Text) : Except Fault (List UInt8) := ofPairs <$> normalChars text

end ChainDecode.Text.Hex
