import ChainDecode.Event.Kind
import ChainDecode.Event.Layout

/-! # Decoded events

An event keeps its bytes. A kind with a layout adds the fields; what goes wrong with them becomes a
warning.
-/
namespace ChainDecode.Event

structure Decoded where
  data : List UInt8
  kind : Option Text
  kindId : Option Nat
  fields : Option (Layout × List (String × FieldValue))
  deriving Repr

namespace Decoded

def toJson (e : Decoded) : Json :=
  .obj (Json.member? "kind" (e.kind.map .str) ++ Json.member? "kind_id" (e.kindId.map .nat) ++
    Json.member "raw_hex" (.str (Text.Hex.encode e.data)) ++
    Json.member? "decoded" (e.fields.map fun f => f.1.toJson f.2))

end Decoded

def decodeKind (data : List UInt8) (kind : Kind) : Except Fault (Decoded × List Text) :=
  let bare : Decoded := ⟨data, some kind.name, some kind.id, none⟩
  match Layout.ofKind? kind.name with
  | none => .ok (bare, [s!"no legacy decoder for EventKind {kind.name}"])
  | some layout =>
    match (readFields layout.fields).onBytes data with
    | .ok (fields, cursor) =>
      let warnings : List Text := if cursor.atEnd then []
        else [s!"legacy event decode left {cursor.remaining} trailing bytes"]
      .ok ({ bare with fields := some (layout, fields) }, warnings)
    | .error f => if f.isDecode then .ok (bare, [f.message]) else .error f

def decode (data : List UInt8) (hint : Option Text) : Except Fault (Decoded × List Text) := do
  match ← Kind.ofHint hint with
  | some kind => decodeKind data kind
  | none =>
    pure (⟨data, hint.filter (!·.isEmpty), none, none⟩,
      ["event kind not provided or unknown; returning raw hex only"])

end ChainDecode.Event
