import ChainDecode.Proofs.Rom.Tree
import ChainDecode.Proofs.Vm.Wire

/-! # Transactions with lengths of any width

What a transaction consists of, with every length and the number of signatures in any form that
holds it. In whatever form it is written, it is read back from exactly its bytes.
-/
namespace ChainDecode.Vm.Framed

open Buffer (Varint)
open Rom (Sized SizedText)

structure Name where
  name : SizedText
  visible : ∀ c ∈ name.text.toList, 32 ≤ c.toNat ∧ c.toNat ≤ 126

inductive Signature where
  | unsigned
  | ed25519 (data : Sized)
  | ecdsa (curve : UInt8) (data : Sized)

structure Transaction where
  nexus : Name
  chain : Name
  script : Sized
  expiration : UInt32
  payload : Sized
  count : Varint
  signatures : List Signature
  exact : signatures.length = count.value

def Signature.wire : Signature → List UInt8
  | unsigned => [0]
  | ed25519 data => 1 :: data.wire
  | ecdsa curve data => 2 :: curve :: data.wire

def Transaction.wire (t : Transaction) : List UInt8 :=
  t.nexus.name.wire ++ t.chain.name.wire ++ t.script.wire ++
    Number.toBytes 4 t.expiration.toNat ++ t.payload.wire ++
    (t.count.wire ++ t.signatures.flatMap Signature.wire)

/-- A signature as it is read. -/
def Signature.raw : Signature → Vm.Signature
  | unsigned => .unsigned
  | ed25519 data => .ed25519 data.data
  | ecdsa curve data => .ecdsa curve data.data

/-- A transaction as it is read. -/
def Transaction.container (t : Transaction) : Container :=
  ⟨t.nexus.name.text, t.chain.name.text, t.script.data, t.expiration.toNat, t.payload.data,
    t.signatures.map Signature.raw⟩

/-- A transaction as output shows it, whatever is known of its script. -/
def Transaction.shown (t : Transaction) (analysis : Option Analysis) : Vm.Transaction where
  nexus := t.nexus.name.text
  chain := t.chain.name.text
  script := Text.Hex.encode t.script.data
  payload := Text.Hex.encode t.payload.data
  expiration := t.expiration.toNat
  signatureCount := t.signatures.length
  signatures := t.signatures.map Signature.raw
  analysis := analysis

theorem name_plain (n : Name) : Container.isPlain n.name.text = true :=
  (Wire.isPlain_iff n.name.text).mpr n.visible

theorem reads_name (n : Name) : Reads (Buffer.text Container.label) n.name.wire n.name.text :=
  Reads.bufferText_form n.name.size n.name.exact

theorem reads_bytes (data : Sized) : Reads Container.readBytes data.wire data.data :=
  Reads.bufferArray_form data.size data.exact

theorem reads_signature (s : Signature) : Reads Container.readSignature s.wire s.raw := by
  cases s with
  | unsigned => exact Container.reads_unsigned
  | ed25519 data => exact Container.reads_ed25519 (reads_bytes data)
  | ecdsa curve data => exact Container.reads_ecdsa curve (reads_bytes data)

theorem signature_ne_nil (s : Signature) : s.wire ≠ [] := by
  cases s <;> exact List.cons_ne_nil _ _

theorem reads_container (t : Transaction) : Reads Container.read t.wire t.container := by
  have plain : (Container.isPlain t.nexus.name.text && Container.isPlain t.chain.name.text) =
      true := by
    rw [name_plain, name_plain]
    rfl
  have signatures := Reads.times fun s (_ : s ∈ t.signatures) => reads_signature s
  have room := Reads.length_le_flatMap fun s (_ : s ∈ t.signatures) => signature_ne_nil s
  rw [t.exact] at signatures room
  exact Container.reads_parts (reads_name t.nexus) (reads_name t.chain) plain
    (reads_bytes t.script) t.expiration (reads_bytes t.payload)
    (Reads.length_bind_of_any (Reads.anyVarint_form t.count) t.count.value_lt room signatures)

end ChainDecode.Vm.Framed
