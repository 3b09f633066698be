/-! # Texts

A text is a row of letters. A letter is a character, or a surrogate that stands alone: half of a
pair of sixteen-bit units, which an escape in JSON can write although no encoding of texts has it.
-/
namespace ChainDecode

/-- A letter of a text. A surrogate is given by its place among the surrogates. -/
inductive Letter where
  | char (c : Char)
  | surrogate (place : Fin 0x800)
  deriving DecidableEq, Repr, Inhabited

namespace Letter

def firstSurrogate : Nat := 0xd800

def codePoint : Letter → Nat
  | char c => c.toNat
  | surrogate place => firstSurrogate + place

def ofCodePoint (n : Nat) : Letter :=
  if h : n - firstSurrogate < 0x800 then
    if firstSurrogate ≤ n then .surrogate ⟨n - firstSurrogate, h⟩ else .char (Char.ofNat n)
  else .char (Char.ofNat n)

def char? : Letter → Option Char
  | char c => some c
  | surrogate _ => none

def is (l : Letter) (kind : Char → Bool) : Bool := l.char?.any kind

end Letter

structure Text where
  letters : List Letter
  deriving DecidableEq, Repr, Inhabited

namespace Text

def ofChars (cs : List Char) : Text := ⟨cs.map .char⟩

def ofString (s : String) : Text := ofChars s.toList

instance : Coe String Text := ⟨ofString⟩

instance : Append Text := ⟨fun s t => ⟨s.letters ++ t.letters⟩⟩

def single (l : Letter) : Text := ⟨[l]⟩

def isEmpty (t : Text) : Bool := t.letters.isEmpty

def joined (separator : Text) (parts : List Text) : Text :=
  ⟨separator.letters.intercalate (parts.map (·.letters))⟩

def startsWith (t front : Text) : Bool := front.letters.isPrefixOf t.letters

def occursIn (part : List Letter) : List Letter → Bool
  | [] => part.isEmpty
  | l :: rest => part.isPrefixOf (l :: rest) || occursIn part rest

def contains (t part : Text) : Bool := occursIn part.letters t.letters

def string? (t : Text) : Option String := (t.letters.mapM Letter.char?).map String.ofList

@[simp] theorem letters_append (s t : Text) : (s ++ t).letters = s.letters ++ t.letters := rfl

@[simp] theorem letters_ofString (s : String) : (ofString s).letters = s.toList.map .char := rfl

@[simp] theorem string?_ofString (s : String) : (ofString s).string? = some s := by
  have chars : ∀ cs : List Char, (cs.map Letter.char).mapM Letter.char? = some cs := by
    intro cs
    induction cs with
    | nil => rfl
    | cons c cs ih => simp [List.mapM_cons, Letter.char?, ih]
  simp [string?, chars]

theorem ofString_inj {s t : String} : ofString s = ofString t ↔ s = t := by
  constructor
  · intro h
    have := congrArg string? h
    simpa using this
  · exact congrArg ofString

theorem ofString_append (s t : String) : ofString (s ++ t) = ofString s ++ ofString t := by
  have letters : (s ++ t).toList.map Letter.char = s.toList.map .char ++ t.toList.map .char := by
    rw [String.toList_append, List.map_append]
  exact congrArg Text.mk letters

theorem append_assoc (s t u : Text) : s ++ t ++ u = s ++ (t ++ u) :=
  congrArg Text.mk (List.append_assoc _ _ _)

theorem startsWith_of_front {word front : String} (h : word.toList <+: front.toList)
    (back : Text) : (ofString front ++ back).startsWith word = true :=
  List.isPrefixOf_iff_prefix.mpr ((h.map Letter.char).trans (List.prefix_append _ _))

/-- Whether letters come before others or are the same, by code points. -/
def lettersPrecede : List Letter → List Letter → Bool
  | [], _ => true
  | _ :: _, [] => false
  | l :: rest, m :: others =>
    l.codePoint < m.codePoint || (l.codePoint = m.codePoint && lettersPrecede rest others)

def precedes (s t : Text) : Bool := lettersPrecede s.letters t.letters

end Text

end ChainDecode
