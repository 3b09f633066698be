import ChainDecode.Abi.Table
import ChainDecode.Json.Access
import ChainDecode.Json.Printer
import ChainDecode.Text.Blank

/-! # Tables from contract records

Contracts are JSON records with a name and methods, methods with a name and parameters, in small or
capital spelling. Parts that are missing or malformed get a stand-in and a warning, so a method
keeps its number of parameters.
-/
namespace ChainDecode.Abi

/-- A member of a record. A list or text without the key has no such member; one that holds the
key, and every other value, is no record at all. -/
def memberOf (record : Json) (key : Text) : Except Fault (Option Json) :=
  match record with
  | .obj members => .ok (Json.field? members key)
  | .arr items =>
    if items.any fun v => v.text? = some key then .error .wrongShape else .ok none
  | .str s => if s.contains key then .error .wrongShape else .ok none
  | _ => .error .wrongShape

def pick (record : Json) (small capital : Text) : Except Fault Json := do
  match ← memberOf record small with
  | some .null | none =>
    match ← memberOf record capital with
    | some v => pure v
    | none => pure .null
  | some v => pure v

/-- The trimmed text of a value, empty for all but texts. -/
def trimmed : Json → Text
  | .str s => s.strip
  | _ => ""

/-- The contract records inside a file's value: a list of them, a list under `contracts`, or a
single one. -/
def contractsOf : Json → List Json
  | .arr items => items.filter Json.isObject
  | .obj members =>
    match Json.field? members "contracts", Json.field? members "Contracts" with
    | some (.arr items), _ => items.filter Json.isObject
    | _, some (.arr items) => items.filter Json.isObject
    | _, _ =>
      match pick (.obj members) "name" "Name", pick (.obj members) "methods" "Methods" with
      | .ok (.str _), .ok (.arr _) => [.obj members]
      | _, _ => []
  | _ => []

def paramWarnings (key : Text) (index : Nat) (name type : Text) : List Text :=
  (if name.isEmpty then ["ABI parameter missing name at " ++ key ++ s!"[{index}]"] else []) ++
    (if type.isEmpty then ["ABI parameter missing type at " ++ key ++ s!"[{index}]"] else [])

def paramOf (key : Text) (index : Nat) (raw : Json) : Except Fault (Param × List Text) := do
  let record := if raw.isObject then raw else .obj []
  let name := trimmed (← pick record "name" "Name")
  let type := trimmed (← pick record "type" "Type")
  let param : Param :=
    ⟨.str (if name.isEmpty then s!"arg{index}" else name),
      .str (if type.isEmpty then "Unknown" else type)⟩
  pure (param, paramWarnings key index name type)

def paramsFrom (key : Text) : Nat → List Json → Except Fault (List Param × List Text)
  | _, [] => pure ([], [])
  | index, raw :: rest => do
    let (param, warnings) ← paramOf key index raw
    let (params, more) ← paramsFrom key (index + 1) rest
    pure (param :: params, warnings ++ more)

def paramsOf (key : Text) (method : Json) : Except Fault (List Param × List Text) := do
  let raw ← pick method "parameters" "Parameters"
  if raw.isBlank then pure ([], []) else paramsFrom key 0 (← Json.elements raw)

def addMethod (source contract : Text) (l : Loaded) (method : Json) : Except Fault Loaded := do
  if method.isObject then
    let name := trimmed (← pick method "name" "Name")
    if name.isEmpty then
      pure (l.warn ("ABI method missing name in " ++ contract ++ " (" ++ source ++ ")"))
    else
      let key := contract ++ "." ++ name
      let (params, warnings) ← paramsOf key method
      let returnType := trimmed (← pick method "returnType" "ReturnType")
      let signature : Signature :=
        ⟨params, if returnType.isEmpty then .null else .str returnType⟩
      let l := { l with warnings := l.warnings ++ warnings }
      pure (Loaded.add .append source key l signature)
  else pure l

def addContract (source : Text) (l : Loaded) (contract : Json) : Except Fault Loaded := do
  let name := trimmed (← pick contract "name" "Name")
  if name.isEmpty then pure (l.warn ("ABI contract missing name (" ++ source ++ ")"))
  else
    let methods ← pick contract "methods" "Methods"
    if methods.isBlank then pure l
    else (← Json.elements methods).foldlM (addMethod source name) l

def ofContracts (contracts : List Json) (source : Text) : Except Fault Loaded :=
  contracts.foldlM (addContract source) .empty

def Signature.toJson (s : Signature) : Json :=
  let params := Json.arr (s.params.map fun p =>
    .obj [("name", p.name), ("type", p.type)])
  match s.returnType.present? with
  | some type => .obj [("params", params), ("return_type", type)]
  | none => .obj [("params", params)]

def Key.spelling : Key → Text
  | text t => t
  | k => k.toJson.compact

def Table.toJson (t : Table) : Json :=
  .obj (t.entries.map fun e => (e.1.spelling, .arr (e.2.map Signature.toJson)))

end ChainDecode.Abi
