import ChainDecode.Json.Compare
import ChainDecode.Json.Literal

/-! # Method tables

A table maps each method key to the signatures known for it. A call is resolved by the number of
its arguments: exactly one signature has to fit.
-/
namespace ChainDecode.Abi

/-- What a method is found under. A key is a text, unless the table comes from a file that gives
another scalar. -/
inductive Key where
  | text (t : Text)
  | null
  | bool (b : Bool)
  | int (n : Int)
  | real (x : Number.Binary64)
  deriving Repr

namespace Key

instance : Coe Text Key := ⟨text⟩

def toJson : Key → Json
  | text t => .str t
  | null => .null
  | bool b => .bool b
  | int n => .int n
  | real x => .real x

def ofJson? : Json → Option Key
  | .str t => some (text t)
  | .null => some null
  | .bool b => some (bool b)
  | .int n => some (int n)
  | .real x => some (real x)
  | _ => none

def display (k : Key) : Text := k.toJson.display

instance : BEq Key := ⟨fun k l => k.toJson.same l.toJson⟩

end Key

/-- A parameter of a method. Its name and its type are texts, unless the table comes from a file
that gives anything else. -/
structure Param where
  name : Json
  type : Json
  deriving Repr

/-- The parameters and the result of a method. The result is null when it is not known. -/
structure Signature where
  params : List Param
  returnType : Json
  deriving Repr

def Signature.arity (s : Signature) : Nat := s.params.length

def Param.same (p q : Param) : Bool := p.name.same q.name && p.type.same q.type

def sameParams : List Param → List Param → Bool
  | [], [] => true
  | p :: rest, q :: others => p.same q && sameParams rest others
  | _, _ => false

def Signature.same (s t : Signature) : Bool :=
  sameParams s.params t.params && s.returnType.same t.returnType

structure Table where
  entries : List (Key × List Signature)
  deriving Repr

namespace Table

def empty : Table := ⟨[]⟩

def get? (t : Table) (key : Key) : Option (List Signature) := t.entries.lookup key

def store (key : Key) (signatures : List Signature) :
    List (Key × List Signature) → List (Key × List Signature)
  | [] => [(key, signatures)]
  | (k, old) :: rest =>
    if k == key then (k, signatures) :: rest else (k, old) :: store key signatures rest

def set (t : Table) (key : Key) (signatures : List Signature) : Table :=
  ⟨store key signatures t.entries⟩

def signatureCount (t : Table) : Nat := t.entries.foldl (fun n e => n + e.2.length) 0

end Table

inductive Resolution where
  | exact (signature : Signature)
  | missing
  | ambiguous
  deriving Repr

namespace Resolution

def ofMatches : List Signature → Resolution
  | [] => .missing
  | [signature] => .exact signature
  | _ => .ambiguous

def name : Resolution → String
  | .exact _ => "EXACT"
  | .missing => "MISSING"
  | .ambiguous => "AMBIGUOUS"

def signature? : Resolution → Option Signature
  | .exact s => some s
  | _ => none

end Resolution

def Table.resolve (t : Table) (key : Key) (arity : Nat) : Resolution :=
  .ofMatches (((t.get? key).getD []).filter fun s => s.arity = arity)

def resolve (table : Option Table) (key : Key) (arity : Nat) : Resolution :=
  match table with
  | some t => t.resolve key arity
  | none => .missing

/-- How a merge treats a key that the target has already. -/
structure MergePolicy where
  warnOnDuplicate : Bool
  -- Whether a signature replaces those with as many parameters.
  replaceSameArity : Bool
  deriving DecidableEq, Repr

def MergePolicy.append : MergePolicy := ⟨true, false⟩

def MergePolicy.override : MergePolicy := ⟨false, true⟩

structure Loaded where
  table : Table
  warnings : List Text
  deriving Repr

def Loaded.empty : Loaded := ⟨.empty, []⟩

def Loaded.warn (l : Loaded) (warning : Text) : Loaded :=
  { l with warnings := l.warnings ++ [warning] }

def Loaded.add (policy : MergePolicy) (source : Text) (key : Key) (l : Loaded) (s : Signature) :
    Loaded :=
  match (l.table.get? key).getD [] with
  | [] => { l with table := l.table.set key [s] }
  | existing =>
    if policy.replaceSameArity then
      let kept := existing.filter fun old => old.arity ≠ s.arity
      { l with table := l.table.set key (kept ++ [s]) }
    else
      let l := if policy.warnOnDuplicate then
        l.warn ("ABI duplicate method " ++ key.display ++ " (" ++ source ++ ")") else l
      { l with table := l.table.set key (existing ++ [s]) }

def Loaded.merge (policy : MergePolicy) (source : Text) (l : Loaded) (incoming : Table) :
    Loaded :=
  incoming.entries.foldl (fun l e => e.2.foldl (Loaded.add policy source e.1) l) l

end ChainDecode.Abi
