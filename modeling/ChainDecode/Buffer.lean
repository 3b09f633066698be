import ChainDecode.Cursor
import ChainDecode.Number.Bytes
import ChainDecode.Number.Numeral
import ChainDecode.Text.Utf8

/-! # Labelled buffers

The framing of the virtual machine's transactions, scripts, events and token data: little-endian
words and lengths of variable width. Every cause names the buffer by its label.
-/
namespace ChainDecode.Buffer

def take (label : Text) (count : Nat) : Read (List UInt8) :=
  Read.take count fun c => .bufferShort label count c.position c.remaining

def bytes (label : Text) (count : Int) : Read (List UInt8) :=
  if count < 0 then throw (Number.naming count (.bufferNegative label count))
  else Read.take count.toNat fun c =>
    Number.naming count (.bufferShort label count c.position c.remaining)

def word (label : Text) (width : Nat) : Read Nat := Number.ofBytes <$> take label width

def varintMax : Int := 0xffffffffffffffff

/-- A number of variable width: a byte, or one of three marks and the word behind it. -/
def anyVarint (label : Text) : Read Nat := do
  let first ← word label 1
  if first = 0xfd then word label 2
  else if first = 0xfe then word label 4
  else if first = 0xff then word label 8
  else pure first

def varint (label : Text) (maximum : Int) : Read Nat := do
  let value ← anyVarint label
  if maximum < value then
    throw (Number.naming maximum (.varintAbove label value (toString maximum)))
  else pure value

def length (label : Text) (maximum : Int) : Read Nat := do
  let value ← varint label maximum
  let cursor ← get
  if cursor.remaining < value then
    throw (.bufferLength label value cursor.position cursor.remaining)
  else pure value

def byteArray (label : Text) (maximum : Int) : Read (List UInt8) := do
  let count ← length label maximum
  take label count

def text (label : Text) : Read String := Text.Utf8.decode <$> byteArray label varintMax

def bigInteger (label : Text) : Read Int := do
  let count ← word label 1
  Number.ofSignedBytes <$> take label count

def timestamp (label : Text) : Read Nat := word label 4

end ChainDecode.Buffer
