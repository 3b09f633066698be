import ChainDecode.Json.Basic
import ChainDecode.Number.Numeral
import ChainDecode.Text.Quoted

/-! # Values inside messages

A text stands as it is. Any other value is written as a literal: `None`, `True`, numbers, and
lists and mappings whose texts are quoted.
-/
namespace ChainDecode.Json

mutual

def literal : Json → String
  | .null => "None"
  | .bool b => if b then "True" else "False"
  | .int n => toString n
  | .real x => x.text
  | .str s => Text.quoted s
  | .arr items => "[" ++ literalItems items ++ "]"
  | .obj members => "\x7b" ++ literalMembers members ++ "\x7d"

def literalItems : List Json → String
  | [] => ""
  | [v] => literal v
  | v :: rest => literal v ++ ", " ++ literalItems rest

def literalMembers : List (Text × Json) → String
  | [] => ""
  | [(k, v)] => Text.quoted k ++ ": " ++ literal v
  | (k, v) :: rest => Text.quoted k ++ ": " ++ literal v ++ ", " ++ literalMembers rest

end

def display : Json → Text
  | .str s => s
  | v => literal v

mutual

def hasLong : Json → Bool
  | .int n => Number.IsLong n
  | .arr items => someLong items
  | .obj members => someMemberLong members
  | _ => false

def someLong : List Json → Bool
  | [] => false
  | v :: rest => hasLong v || someLong rest

def someMemberLong : List (Text × Json) → Bool
  | [] => false
  | (_, v) :: rest => hasLong v || someMemberLong rest

end

/-- The text of a value whose numbers all have numerals. -/
def shown (v : Json) : Except Fault Text := if v.hasLong then .error .digitLimit else .ok v.display

theorem hasLong_int {n : Int} : (int n).hasLong = true ↔ Number.IsLong n := by
  rw [hasLong, decide_eq_true_iff]

theorem hasLong_int_false {n : Int} : (int n).hasLong = false ↔ ¬ Number.IsLong n := by
  rw [← Bool.not_eq_true, hasLong_int]

theorem shown_error {v : Json} {f : Fault} :
    v.shown = .error f ↔ f = .digitLimit ∧ v.hasLong = true := by
  unfold shown
  split <;> simp [*, eq_comm]

theorem shown_ok {v : Json} {t : Text} : v.shown = .ok t ↔ v.hasLong = false ∧ v.display = t := by
  unfold shown
  split <;> simp [*]

end ChainDecode.Json
