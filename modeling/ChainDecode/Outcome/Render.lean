import ChainDecode.Json.Access
import ChainDecode.Json.Literal
import ChainDecode.Json.Printer
import ChainDecode.Outcome.Basic

/-! # Rendering outcomes

The JSON format is the indented text of the whole record. Every other format has a head of single
lines and a section of indented JSON for each part that is there.
-/
namespace ChainDecode.Outcome

def originLine (members : List (Text × Json)) : Except Fault (List Text) :=
  match (Json.field? members "rpc").bind Json.present? with
  | none => .ok []
  | some origin => do
    let url ← origin.required "url"
    let method ← origin.required "method"
    pure ["RPC: " ++ url.display ++ " (" ++ method.display ++ ")"]

def remarkLines (title key : Text) (members : List (Text × Json)) :
    Except Fault (List Text) :=
  match (Json.field? members key).bind Json.present? with
  | none => .ok []
  | some remarks => do
    let items ← remarks.elements
    pure ((title ++ ":") :: items.map fun v => "- " ++ v.display)

def sections : List (Text × Text) :=
  [("carbon", "Carbon"), ("vm", "VM"), ("event", "Event"), ("rom", "ROM"), ("address", "Address")]

def sectionLines (members : List (Text × Json)) (part : Text × Text) : List Text :=
  match Json.field? members part.1 with
  | some v => [part.2 ++ ":", v.pretty]
  | none => []

def sectioned (members : List (Text × Json)) : Except Fault Text := do
  let source ← (Json.obj members).required "source"
  let input ← (Json.obj members).required "input"
  let origin ← originLine members
  let errors ← remarkLines "Errors" "errors" members
  let warnings ← remarkLines "Warnings" "warnings" members
  let head := ["Source: " ++ source.display, "Input: " ++ input.display]
  pure (Text.joined "\n" (head ++ origin ++ errors ++ warnings ++
    sections.flatMap (sectionLines members)))

def render : Json → Except Fault Text
  | .obj members =>
    if (Json.field? members "format").bind Json.text? = some "json" then
      .ok (Json.obj members).pretty
    else sectioned members
  | _ => .error .notText

end ChainDecode.Outcome
