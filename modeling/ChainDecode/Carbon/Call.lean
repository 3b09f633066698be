import ChainDecode.Carbon.Catalog
import ChainDecode.Carbon.Dynamic
import ChainDecode.Carbon.RawCall

/-! # Decoded calls

The catalog tells how the argument bytes of a call are read. Arguments may hold calls themselves,
to a limited depth. A call always decodes: an argument that cannot be read ends the list with a
warning, and a stream that ends inside an optional one ends it quietly.
-/
namespace ChainDecode.Carbon

structure CallArgument where
  name : String
  type : Text
  value : Value
  deriving Repr

/-- A section of a call; one with a negative register offset has no arguments. -/
structure CallSection where
  registerOffset : Int
  content : Option (List UInt8 × Option (List CallArgument))
  deriving Repr

/-- The arguments of a call, in sections or in one piece. Without a signature only their bytes are
known. -/
inductive CallContent where
  | sections (items : List CallSection)
  | plain (args : List UInt8) (arguments : Option (List CallArgument))
  deriving Repr

structure Call where
  module : Int
  method : Int
  moduleName : Option String
  methodName : Option String
  content : CallContent
  deriving Repr

def CallArgument.toValue (a : CallArgument) : Value :=
  .record [("name", .text a.name), ("type", .text a.type), ("value", a.value)]

def argumentFields (args : List UInt8) (arguments : Option (List CallArgument)) :
    List (String × Value) :=
  ("args_hex", .bytes args) ::
    (arguments.map fun items => ("args", Value.list (items.map CallArgument.toValue))).toList

def CallSection.toValue (s : CallSection) : Value :=
  .record (("register_offset", .number s.registerOffset) ::
    match s.content with
    | some (args, arguments) => argumentFields args arguments
    | none => [])

def Call.toValue (c : Call) : Value :=
  .record ([("module_id", .number c.module), ("method_id", .number c.method)] ++
    (c.moduleName.map fun name => ("module_name", Value.text name)).toList ++
    (c.methodName.map fun name => ("method_name", Value.text name)).toList ++
    match c.content with
    | .sections items => [("sections", .list (items.map CallSection.toValue))]
    | .plain args arguments => argumentFields args arguments)

structure ArgState where
  cursor : Cursor
  warnings : List Text
  deriving DecidableEq, Repr

abbrev ArgRead (α : Type) := EStateM Fault ArgState α

def ArgRead.lift {α : Type} (r : Read α) : ArgRead α := fun s =>
  match r s.cursor with
  | .ok a c => .ok a { s with cursor := c }
  | .error f c => .error f { s with cursor := c }

def ArgRead.warn (warnings : List Text) : ArgRead Unit :=
  modify fun s => { s with warnings := s.warnings ++ warnings }

def trailingWarning (remaining : Nat) : List Text :=
  if remaining = 0 then [] else [s!"Call args left {remaining} trailing bytes"]

def failureWarning (method : String) (arg : ArgDef) (f : Fault) : Text :=
  s!"Call arg decode failed ({method}.{arg.name}: " ++ arg.type.name ++ "): " ++ f.message

def decodeArgsFrom (readArg : ArgType → ArgRead Value) (method : String) :
    List ArgDef → ArgState → List CallArgument × List Text
  | [], s => ([], s.warnings ++ trailingWarning s.cursor.remaining)
  | arg :: rest, s =>
    match readArg arg.type s with
    | .ok v after =>
      let (arguments, warnings) := decodeArgsFrom readArg method rest after
      (⟨arg.name, arg.type.name, v⟩ :: arguments, warnings)
    | .error f after =>
      if arg.isOptional && f.isEndOfStream then
        ([], after.warnings ++ trailingWarning after.cursor.remaining)
      else ([], after.warnings ++ [failureWarning method arg f])

def decodeArgs (readArg : ArgType → ArgRead Value) (signature : Option CallSignature)
    (args : List UInt8) : Option (List CallArgument) × List Text :=
  match signature with
  | none => (none, [])
  | some s =>
    let (arguments, warnings) := decodeArgsFrom readArg s.name s.args ⟨.start args, []⟩
    (some arguments, warnings)

def decodeSection (readArg : ArgType → ArgRead Value) (signature : Option CallSignature)
    (s : RawSection) : CallSection × List Text :=
  if 0 ≤ s.registerOffset then
    let (arguments, warnings) := decodeArgs readArg signature s.args
    (⟨s.registerOffset, some (s.args, arguments)⟩, warnings)
  else (⟨s.registerOffset, none⟩, [])

/-- Decodes a call, given how a type is read. An empty list of sections is the same as none. -/
def decodeCallWith (readArg : ArgType → ArgRead Value) (c : RawCall) : Call × List Text :=
  let signature := Catalog.lookup c.module c.method
  let call := Call.mk c.module c.method (Catalog.moduleName? c.module) (signature.map (·.name))
  match c.sections with
  | some (first :: rest) =>
    let decoded := (first :: rest).map (decodeSection readArg signature)
    (call (.sections (decoded.map (·.1))), decoded.flatMap (·.2))
  | _ =>
    let (arguments, warnings) := decodeArgs readArg signature c.args
    (call (.plain c.args arguments), warnings)

def readEmbedded (readArg : ArgType → ArgRead Value) (c : RawCall) : ArgRead Value := do
  let (call, warnings) := decodeCallWith readArg c
  ArgRead.warn warnings
  pure call.toValue

def readAllEmbedded (readArg : ArgType → ArgRead Value) : List RawCall → ArgRead (List Value)
  | [] => pure []
  | c :: rest => do
    let v ← readEmbedded readArg c
    let values ← readAllEmbedded readArg rest
    pure (v :: values)

def readArray (item : ArgRead Value) : ArgRead Value := do
  let n ← ArgRead.lift (readListCount .negativeArray)
  return .list (← times item n)

/-- Reads an argument with a number of levels left. Items, structs and embedded calls stand one
level down. -/
def readArg : (levels : Nat) → ArgType → ArgRead Value
  | 0, _ => throw .argumentDepth
  | levels + 1, type =>
    match type with
    | .plain p => ArgRead.lift p.layout.read
    | .dynamicStruct => ArgRead.lift (readStruct levels)
    | .dynamicVariable => ArgRead.lift (readVariableRecord levels)
    | .organizationImport => do
      let name ← ArgRead.lift Layout.smallText.read
      let owner ← ArgRead.lift Layout.key.read
      let metadata ← ArgRead.lift (readStruct levels)
      let members ← readArg levels (.array (.plain .memberImport))
      pure (.record
        [("info", .record [("name", name), ("owner", owner), ("metadata", metadata)]),
          ("member_imports", members)])
    | .seriesImport => do
      let token ← ArgRead.lift Layout.u64.read
      let info ← ArgRead.lift Layout.seriesInfo.read
      let imports ← readArg levels (.array (.plain .nftImport))
      pure (.record [("token_id", token), ("info", info), ("imports", imports)])
    | .calls => do
      let raws ← ArgRead.lift RawCall.readMany
      return .list (← readAllEmbedded (readArg levels) raws)
    | .array (.plain .bytes) => ArgRead.lift (Layout.counted .bytes).read
    | .array item => readArray (readArg levels item)
    | .unknown name => throw (.argumentType name)

def decodeCall (depth : Int) (c : RawCall) : Call × List Text :=
  decodeCallWith (readArg (levelsFrom depth)) c

def decodeCalls (calls : List RawCall) : List Call × List Text :=
  let decoded := calls.map (decodeCall 0)
  (decoded.map (·.1), decoded.flatMap (·.2))

def readArgAt (depth : Int) (type : ArgType) : Read (Value × List Text) := fun c =>
  match readArg (levelsFrom depth) type ⟨c, []⟩ with
  | .ok v s => .ok (v, s.warnings) s.cursor
  | .error f s => .error f s.cursor

end ChainDecode.Carbon
