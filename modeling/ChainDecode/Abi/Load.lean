import ChainDecode.Abi.Contract
import ChainDecode.Abi.Path
import ChainDecode.Json.Reader
import ChainDecode.Text.Utf8

/-! # Loading method tables

A table comes from one file, or from all JSON files of a directory in the order of their names.
-/
namespace ChainDecode.Abi

inductive Found where
  | missing
  | blocked
  | tooLong
  | file (bytes : List UInt8)
  | directory (entries : List (Text × Found))

def nameMax : Nat := 255

def pathMax : Nat := 4095

def nameSize (name : Text) : Nat := (Path.nameBytes name).length

/-- What names lead to from a directory. The directories above it come behind it, innermost first;
above the last there is an empty one. -/
def Found.follow (here : Found) (above : List Found) : List Text → Found
  | [] => here
  | name :: rest =>
    match here with
    | .directory entries =>
      if name = ".." then (above.head?.getD (.directory [])).follow above.tail rest
      else if nameMax < nameSize name then .tooLong
      else
        match entries.lookup (Path.listedName name) with
        | some next => next.follow (here :: above) rest
        | none => .missing
    | .file _ => .blocked
    | other => other

def Found.at (working : Found) (path : Path) : Found :=
  if pathMax < nameSize path.text then .tooLong
  else if path.root.isEmpty then working.follow [] path.names
  else (Found.directory []).follow [] path.names

def Found.bytes (path : Path) : Found → Except Fault (List UInt8)
  | .missing => .error (.noFile path.text)
  | .blocked => .error (.notDirectory path.text)
  | .tooLong => .error (.longPath path.text)
  | .file bytes => .ok bytes
  | .directory _ => .error (.isDirectory path.text)

def ofFile (path : Path) (bytes : List UInt8) : Except Fault Loaded :=
  match Text.Utf8.decode? bytes with
  | none => .error .notUtf8
  | some text =>
    match Json.read text with
    | .error .malformed => .error (.abiText path.text)
    | .error .digitLimit => .error .digitLimit
    | .ok v => do
      let contracts := contractsOf v
      let loaded ← ofContracts contracts path.name
      if contracts.isEmpty then
        let warning := "ABI file has no contracts: " ++ path.text
        pure { loaded with warnings := warning :: loaded.warnings }
      else pure loaded

def addFile (directory : Path) (l : Loaded) (entry : Text × Found) : Except Fault Loaded := do
  let path := directory.child entry.1
  let bytes ← entry.2.bytes path
  let loaded ← ofFile path bytes
  let merged := l.merge .append entry.1 loaded.table
  pure { merged with warnings := merged.warnings ++ loaded.warnings }

def jsonFiles (entries : List (Text × Found)) : List (Text × Found) :=
  (entries.filter fun e => Path.isJsonName e.1).mergeSort fun a b => a.1.precedes b.1

def Path.fault? (path : Path) : Option Fault :=
  match Text.Encoding.path.unencodable? path.text with
  | some u => some (.unencodable u)
  | none =>
    if path.text.letters.contains (.char (Char.ofNat 0)) then some .zeroInPath else none

def load (path : Path) (found : Found) : Except Fault Loaded :=
  match path.fault?, found with
  | some f, _ => .error f
  | none, .directory entries => (jsonFiles entries).foldlM (addFile path) .empty
  | none, _ => do ofFile path (← found.bytes path)

end ChainDecode.Abi
