import ChainDecode.Abi.Contract
import ChainDecode.Json.Reader

/-! # Tables from entries

An entry names a key and one signature. Entries that say the same twice leave the table as it is,
so a repetition never makes a method ambiguous.
-/
namespace ChainDecode.Abi

structure Entry where
  key : Key
  signature : Signature
  deriving Repr

namespace Entry

def method (key : String) (params : List (String × String)) : Entry :=
  ⟨key, params.map fun p => ⟨.str p.1, .str p.2⟩, .null⟩

def query (key returnType : String) (params : List (String × String)) : Entry :=
  ⟨key, params.map fun p => ⟨.str p.1, .str p.2⟩, .str returnType⟩

end Entry

def Table.learn (t : Table) (e : Entry) : Table :=
  let known := (t.get? e.key).getD []
  if known.any e.signature.same then t else t.set e.key (known ++ [e.signature])

def Table.ofEntries (entries : List Entry) : Table := entries.foldl Table.learn .empty

def Key.ofJson (v : Json) : Except Fault Key :=
  match ofJson? v with
  | some key => .ok key
  | none => .error .wrongShape

def pairOf (pair : Json) : Except Fault Param := do
  match ← Json.elements pair with
  | [name, type] => pure ⟨name, type⟩
  | _ => .error .wrongCount

def entryOf (record : Json) : Except Fault Entry := do
  let params ← (← Json.elements (← Json.required record "params")).mapM pairOf
  let key ← Key.ofJson (← Json.required record "key")
  pure ⟨key, params, (record.get? "returnType").getD .null⟩

def Table.ofText (text : Text) : Except Fault Table :=
  match Json.read text with
  | .error .malformed => .error .notJson
  | .error .digitLimit => .error .digitLimit
  | .ok v => do
    let entries ← (← Json.elements v).mapM entryOf
    pure (.ofEntries entries)

end ChainDecode.Abi
