import ChainDecode.Text.Basic

/-! # Blank characters

The white space of Unicode together with the four information separators. Texts are trimmed of it,
and hex input may be spread over any of it.
-/
namespace ChainDecode.Text

/-- White space, from the tab to the ideographic space. -/
def isBlank (c : Char) : Bool :=
  let n := c.toNat
  (0x9 ≤ n && n ≤ 0xd) || (0x1c ≤ n && n ≤ 0x20) || n == 0x85 || n == 0xa0 || n == 0x1680 ||
    (0x2000 ≤ n && n ≤ 0x200a) || n == 0x2028 || n == 0x2029 || n == 0x202f || n == 0x205f ||
    n == 0x3000

def stripFront (ls : List Letter) : List Letter := ls.dropWhile (·.is isBlank)

def stripBack (ls : List Letter) : List Letter := (ls.reverse.dropWhile (·.is isBlank)).reverse

def strip (t : Text) : Text := ⟨stripBack (stripFront t.letters)⟩

def stripEnd (t : Text) : Text := ⟨stripBack t.letters⟩

def inked (t : Text) : List Letter := t.letters.filter fun l => !l.is isBlank

end ChainDecode.Text
