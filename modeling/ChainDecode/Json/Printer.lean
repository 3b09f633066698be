import ChainDecode.Json.Basic
import ChainDecode.Text.Quoted

/-! # Printing JSON

One member or item a line, two blanks a level, empty containers closed at once. Only quotes,
backslashes and controls are escaped. The compact form has no blanks at all.
-/
namespace ChainDecode.Json

def stringChar (c : Char) : List Char :=
  if c = '"' then ['\\', '"']
  else if c = '\\' then ['\\', '\\']
  else if c = '\n' then ['\\', 'n']
  else if c = '\r' then ['\\', 'r']
  else if c = '\t' then ['\\', 't']
  else if c.toNat = 8 then ['\\', 'b']
  else if c.toNat = 12 then ['\\', 'f']
  else if c.toNat < 0x20 then '\\' :: 'u' :: Text.hexFixed 4 c.toNat
  else [c]

def stringLetter : Letter → List Letter
  | .char c => (stringChar c).map .char
  | .surrogate place => [.surrogate place]

def stringText (s : Text) : Text :=
  ⟨.char '"' :: s.letters.flatMap stringLetter ++ [.char '"']⟩

def realText (x : Number.Binary64) : String :=
  match x.form with
  | .notANumber => "NaN"
  | .infinite negative => if negative then "-Infinity" else "Infinity"
  | .finite .. => x.text

def lineBreak (level : Nat) : String :=
  String.ofList ('\n' :: List.replicate (2 * level) ' ')

mutual

def prettyAt (level : Nat) : Json → Text
  | .null => "null"
  | .bool b => if b then "true" else "false"
  | .int n => toString n
  | .real x => realText x
  | .str s => stringText s
  | .arr [] => "[]"
  | .arr (v :: rest) =>
    "[" ++ lineBreak (level + 1) ++ prettyAt (level + 1) v ++ prettyItems (level + 1) rest ++
      lineBreak level ++ "]"
  | .obj [] => "\x7b\x7d"
  | .obj ((k, v) :: rest) =>
    "\x7b" ++ lineBreak (level + 1) ++ stringText k ++ ": " ++ prettyAt (level + 1) v ++
      prettyMembers (level + 1) rest ++ lineBreak level ++ "\x7d"

def prettyItems (level : Nat) : List Json → Text
  | [] => ""
  | v :: rest => "," ++ lineBreak level ++ prettyAt level v ++ prettyItems level rest

def prettyMembers (level : Nat) : List (Text × Json) → Text
  | [] => ""
  | (k, v) :: rest =>
    "," ++ lineBreak level ++ stringText k ++ ": " ++ prettyAt level v ++ prettyMembers level rest

end

def pretty (v : Json) : Text := prettyAt 0 v

mutual

def compact : Json → Text
  | .null => "null"
  | .bool b => if b then "true" else "false"
  | .int n => toString n
  | .real x => realText x
  | .str s => stringText s
  | .arr items => "[" ++ compactItems items ++ "]"
  | .obj members => "\x7b" ++ compactMembers members ++ "\x7d"

def compactItems : List Json → Text
  | [] => ""
  | [v] => compact v
  | v :: rest => compact v ++ "," ++ compactItems rest

def compactMembers : List (Text × Json) → Text
  | [] => ""
  | [(k, v)] => stringText k ++ ":" ++ compact v
  | (k, v) :: rest => stringText k ++ ":" ++ compact v ++ "," ++ compactMembers rest

end

end ChainDecode.Json
