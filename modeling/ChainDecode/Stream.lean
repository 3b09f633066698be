import ChainDecode.Cursor
import ChainDecode.Number.Bytes
import ChainDecode.Number.Numeral
import ChainDecode.Text.Utf8

/-! # Streams of typed values

The framing of Carbon messages: little-endian words of fixed width, counts of four bytes and short
texts. A stream that ends inside a value is told apart from a malformed one.
-/
namespace ChainDecode.Stream

def take (count : Nat) : Read (List UInt8) :=
  Read.take count fun c => .streamShort count c.position c.remaining

def bytes (count : Int) : Read (List UInt8) :=
  if count < 0 then throw (Number.naming count (.streamNegative count))
  else Read.take count.toNat fun c =>
    Number.naming count (.streamShort count c.position c.remaining)

def word (width : Nat) : Read Nat := Number.ofBytes <$> take width

def signed (width : Nat) : Read Int := Number.ofSignedBytes <$> take width

/-- A number of items, none of which can be shorter than a byte. -/
def count : Read Nat := do
  let n ← signed 4
  let cursor ← get
  if n < 0 then throw (.streamNegativeCount n (cursor.position - 4))
  else if cursor.remaining < n.toNat then throw (.streamCount n cursor.remaining)
  else pure n.toNat

def byteArray : Read (List UInt8) := do
  let n ← count
  take n

def byteArrays : Read (List (List UInt8)) := do
  let n ← count
  times byteArray n

def smallText : Read String := do
  let n ← word 1
  Text.Utf8.decode <$> take n

/-- A number in sign and magnitude: the first byte holds the sign and counts the magnitude's
bytes. -/
def intx : Read Int := do
  let header ← word 1
  let magnitude ← word (header % 128)
  pure (if header < 128 then (magnitude : Int) else -(magnitude : Int))

end ChainDecode.Stream
