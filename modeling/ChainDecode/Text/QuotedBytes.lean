import ChainDecode.Text.Quoted

/-! # Quoted bytes

Bytes are shown like a quoted text behind the letter b: visible ASCII as it stands, all else by
its number.
-/
namespace ChainDecode.Text

def quotedByte (mark : Char) (b : UInt8) : List Char :=
  if b < 0x80 then quotedChar mark (Char.ofNat b.toNat) else '\\' :: 'x' :: hexFixed 2 b.toNat

def quotedBytes (data : List UInt8) : String :=
  let mark := if data.contains 0x27 && !data.contains 0x22 then '"' else '\''
  String.ofList ('b' :: mark :: data.flatMap (quotedByte mark) ++ [mark])

end ChainDecode.Text
