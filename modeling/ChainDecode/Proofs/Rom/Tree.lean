import Mathlib.Data.Finset.Lattice.Fold
import Mathlib.Data.Fintype.Basic
import Mathlib.Order.Lattice.Nat
import ChainDecode.Proofs.Reading
import ChainDecode.Rom.Node

/-! # Trees as they are encoded

A tree holds what its encoding holds: every length and count has one of the forms that can hold it,
and a number has the width that it was written with. How a tree is shown is told here apart from how
one is read.
-/
namespace ChainDecode.Rom

open Buffer (Varint)

/-- Bytes and the form of their length. -/
structure Sized where
  size : Varint
  data : List UInt8
  exact : data.length = size.value

def Sized.wire (s : Sized) : List UInt8 := s.size.wire ++ s.data

structure SizedText where
  size : Varint
  text : String
  exact : (Text.Utf8.encode text).length = size.value

def SizedText.wire (s : SizedText) : List UInt8 := s.size.wire ++ Text.Utf8.encode s.text

/-- A number in two's complement, behind a byte for its width. Without bytes it is zero. -/
structure Signed where
  width : UInt8
  value : Int
  low : -(Number.wordSpan width.toNat : Int) ≤ 2 * value
  high : 2 * value < Number.wordSpan width.toNat

def Signed.wire (n : Signed) : List UInt8 :=
  n.width :: Number.toSignedBytes n.width.toNat n.value

inductive Tree where
  | none
  | bytes (data : Sized)
  | number (n : Signed)
  | text (s : SizedText)
  | timestamp (seconds : UInt32)
  | flag (mark : UInt8)
  | enumeration (n : Varint)
  | object (data : Sized)
  | struct (count : Varint) (keys values : Fin count.value → Tree)

namespace Tree

def height : Tree → Nat
  | struct _ keys values => Finset.univ.sup fun i => max (keys i).height (values i).height + 1
  | _ => 0

def code : Tree → UInt8
  | none => 0
  | struct .. => 1
  | bytes _ => 2
  | number _ => 3
  | text _ => 4
  | timestamp _ => 5
  | flag _ => 6
  | enumeration _ => 7
  | object _ => 8

def wire : Tree → List UInt8
  | none => [0]
  | struct count keys values =>
    1 :: (count.wire ++
      (List.finRange count.value).flatMap fun i => (keys i).wire ++ (values i).wire)
  | bytes data => 2 :: data.wire
  | number n => 3 :: n.wire
  | text s => 4 :: s.wire
  | timestamp seconds => 5 :: Number.toBytes 4 seconds.toNat
  | flag mark => [6, mark]
  | enumeration n => 7 :: n.wire
  | object data => 8 :: data.wire

def typeName : Tree → Text
  | none => "None"
  | struct .. => "Struct"
  | bytes _ => "Bytes"
  | number _ => "Number"
  | text _ => "String"
  | timestamp _ => "Timestamp"
  | flag _ => "Bool"
  | enumeration _ => "Enum"
  | object _ => "Object"

def name? : Tree → Option Text
  | number n => some (toString n.value)
  | text s => some s.text
  | timestamp seconds => some (toString seconds.toNat)
  | flag mark => some (if mark = 0 then "false" else "true")
  | enumeration n => some (toString n.value)
  | _ => Option.none

def objectShown : List UInt8 → Json
  | 34 :: tag :: reserved :: key =>
    if size : key.length = 32 then
      .obj [("kind", .str "Address"), ("text", .str (Address.mk tag reserved key size).text),
        ("bytes_hex", .str (Text.Hex.encode (tag :: reserved :: key)))]
    else
      .obj [("kind", .str "ObjectBytes"),
        ("bytes_hex", .str (Text.Hex.encode (34 :: tag :: reserved :: key)))]
  | data => .obj [("kind", .str "ObjectBytes"), ("bytes_hex", .str (Text.Hex.encode data))]

def Named {n : Nat} (names : Fin n → Option Text) : Prop :=
  (∀ i, (names i).isSome) ∧ ∀ i j, names i = names j → i = j

instance {n : Nat} (names : Fin n → Option Text) : Decidable (Named names) :=
  inferInstanceAs (Decidable (_ ∧ ∀ i j, _ → i = j))

section Shown

variable {n : Nat}

/-- The members of a record, in the order of the entries. -/
def members (names : Fin n → Option Text) (values : Fin n → Json) : List (Text × Json) :=
  (List.finRange n).map fun i => ((names i).getD "", values i)

/-- The entries in their order, each with the types of its key and its value. -/
def entries (types : Fin n → Text × Text) (keys values : Fin n → Json) : List Json :=
  (List.finRange n).map fun i =>
    .obj [("key_vm_type", .str (types i).1), ("key", keys i),
      ("value_vm_type", .str (types i).2), ("value", values i)]

end Shown

/-- A struct is shown as a record if its keys can name the members, and else by its entries. -/
def value : Tree → Json
  | none => .null
  | bytes data => .str (Text.Hex.encode data.data)
  | number n => .str (toString n.value)
  | text s => .str s.text
  | timestamp seconds => .nat seconds.toNat
  | flag mark => .bool (mark ≠ 0)
  | enumeration n => .nat n.value
  | object data => objectShown data.data
  | struct _ keys values =>
    if Named fun i => (keys i).name? then
      .obj (members (fun i => (keys i).name?) fun i => (values i).value)
    else
      .arr (entries (fun i => ((keys i).typeName, (values i).typeName)) (fun i => (keys i).value)
        fun i => (values i).value)

/-- A tree with its type. A struct has its entries, and its record beside them if it is one. -/
def shown (t : Tree) : Json :=
  let head : List (Text × Json) :=
    [("vm_type_id", .nat t.code.toNat), ("vm_type", .str t.typeName)]
  match t with
  | struct _ keys values =>
    .obj (head ++
      (if Named fun i => (keys i).name? then
        Json.member "fields"
          (.obj (members (fun i => (keys i).name?) fun i => (values i).value))
      else []) ++
      Json.member "entries"
        (.arr (entries (fun i => ((keys i).typeName, (values i).typeName)) (fun i => (keys i).value)
          fun i => (values i).value)))
  | _ => .obj (head ++ Json.member "value" t.value)

section Struct

variable {count : Varint} {keys values : Fin count.value → Tree} {n : Nat}

theorem height_struct_lt :
    (struct count keys values).height < n + 1 ↔
      ∀ i, (keys i).height < n ∧ (values i).height < n := by
  rw [height, Finset.sup_lt_iff (by simp)]
  constructor
  · intro h i
    have here := h i (Finset.mem_univ i)
    omega
  · intro h i _
    have here := h i
    omega

theorem le_height_struct :
    n + 1 ≤ (struct count keys values).height ↔
      ∃ i, n ≤ (keys i).height ∨ n ≤ (values i).height := by
  rw [← not_lt, height_struct_lt]
  simp only [not_forall, not_and_or, not_lt]

end Struct

end Tree

end ChainDecode.Rom
