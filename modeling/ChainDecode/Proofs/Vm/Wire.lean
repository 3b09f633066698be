import ChainDecode.Proofs.Reading
import ChainDecode.Vm.Transaction

/-! # The wire form of the virtual machine's transactions

What a transaction consists of and how it is written, with every length in its shortest form. What
is written is read back, whatever follows it.
-/
namespace ChainDecode.Vm

namespace Container

section Signatures

variable {data wire : List UInt8}

theorem reads_unsigned : Reads readSignature [0] .unsigned :=
  (Reads.bufferByte label 0).bind (Reads.pure _)

theorem reads_ed25519 (h : Reads readBytes wire data) :
    Reads readSignature (1 :: wire) (.ed25519 data) :=
  (Reads.bufferByte label 1).bind (h.bind_pure _)

theorem reads_ecdsa (curve : UInt8) (h : Reads readBytes wire data) :
    Reads readSignature (2 :: curve :: wire) (.ecdsa curve data) := by
  have same : UInt8.ofNat curve.toNat = curve := UInt8.ofNat_toNat
  have tail := h.bind_pure (Vm.Signature.ecdsa (UInt8.ofNat curve.toNat))
  rw [same] at tail
  refine (Reads.bufferByte label 2).bind ((Reads.bufferByte label curve).bind ?_)
  rw [same]
  exact tail

end Signatures

section Parts

variable {nexus chain : String} {script payload : List UInt8} {signatures : List Signature}
  {nexusWire chainWire scriptWire payloadWire signaturesWire : List UInt8}

theorem reads_parts (n : Reads (Buffer.text label) nexusWire nexus)
    (c : Reads (Buffer.text label) chainWire chain)
    (plain : (isPlain nexus && isPlain chain) = true)
    (code : Reads readBytes scriptWire script) (expiration : UInt32)
    (extra : Reads readBytes payloadWire payload)
    (signed : Reads (do let n ← Buffer.length label Buffer.varintMax; times readSignature n)
      signaturesWire signatures) :
    Reads read
      (nexusWire ++ chainWire ++ scriptWire ++ Number.toBytes 4 expiration.toNat ++ payloadWire ++
        signaturesWire)
      ⟨nexus, chain, script, expiration.toNat, payload, signatures⟩ := by
  have last := signed.bind_pure (Container.mk nexus chain script expiration.toNat payload)
  simp only [bind_assoc] at last
  unfold read
  simp only [List.append_assoc]
  refine n.bind (c.bind ?_)
  rw [if_pos plain]
  exact code.bind ((Reads.timestamp label expiration).bind (extra.bind last))

end Parts

end Container

namespace Wire

structure Name where
  text : String
  visible : ∀ c ∈ text.toList, 32 ≤ c.toNat ∧ c.toNat ≤ 126
  short : (Text.Utf8.encode text).length < Number.wordSpan 8

structure Blob where
  bytes : List UInt8
  short : bytes.length < Number.wordSpan 8

inductive Signature where
  | unsigned
  | ed25519 (data : Blob)
  | ecdsa (curve : UInt8) (data : Blob)

structure Transaction where
  nexus : Name
  chain : Name
  script : Blob
  expiration : UInt32
  payload : Blob
  signatures : List Signature
  few : signatures.length < Number.wordSpan 8

def Name.wire (n : Name) : List UInt8 :=
  Buffer.shortest (Text.Utf8.encode n.text).length ++ Text.Utf8.encode n.text

def Blob.wire (b : Blob) : List UInt8 := Buffer.shortest b.bytes.length ++ b.bytes

def Signature.wire : Signature → List UInt8
  | unsigned => [0]
  | ed25519 data => 1 :: data.wire
  | ecdsa curve data => 2 :: curve :: data.wire

def Transaction.wire (t : Transaction) : List UInt8 :=
  t.nexus.wire ++ t.chain.wire ++ t.script.wire ++ Number.toBytes 4 t.expiration.toNat ++
    t.payload.wire ++ Buffer.shortest t.signatures.length ++ t.signatures.flatMap Signature.wire

/-- A signature as it is read. -/
def Signature.raw : Signature → Vm.Signature
  | unsigned => .unsigned
  | ed25519 data => .ed25519 data.bytes
  | ecdsa curve data => .ecdsa curve data.bytes

/-- A transaction as it is read. -/
def Transaction.container (t : Transaction) : Container :=
  ⟨t.nexus.text, t.chain.text, t.script.bytes, t.expiration.toNat, t.payload.bytes,
    t.signatures.map Signature.raw⟩

/-- A transaction as output shows it, whatever is known of its script. -/
def Transaction.shown (t : Transaction) (analysis : Option Analysis) : Vm.Transaction where
  nexus := t.nexus.text
  chain := t.chain.text
  script := Text.Hex.encode t.script.bytes
  payload := Text.Hex.encode t.payload.bytes
  expiration := t.expiration.toNat
  signatureCount := t.signatures.length
  signatures := t.signatures.map Signature.raw
  analysis := analysis

theorem isPlain_iff (s : String) :
    Container.isPlain s = true ↔ ∀ c ∈ s.toList, 32 ≤ c.toNat ∧ c.toNat ≤ 126 := by
  simp [Container.isPlain]

theorem name_plain (n : Name) : Container.isPlain n.text = true :=
  (isPlain_iff n.text).mpr n.visible

theorem reads_name (n : Name) : Reads (Buffer.text Container.label) n.wire n.text :=
  Reads.bufferText n.short

theorem reads_bytes (b : Blob) : Reads Container.readBytes b.wire b.bytes :=
  Reads.bufferArray b.short

theorem reads_signature (s : Signature) : Reads Container.readSignature s.wire s.raw := by
  cases s with
  | unsigned => exact Container.reads_unsigned
  | ed25519 data => exact Container.reads_ed25519 (reads_bytes data)
  | ecdsa curve data => exact Container.reads_ecdsa curve (reads_bytes data)

theorem signature_ne_nil (s : Signature) : s.wire ≠ [] := by
  cases s <;> exact List.cons_ne_nil _ _

theorem reads_container (t : Transaction) : Reads Container.read t.wire t.container := by
  have plain : (Container.isPlain t.nexus.text && Container.isPlain t.chain.text) = true := by
    rw [name_plain, name_plain]
    rfl
  have signatures := Reads.times fun s (_ : s ∈ t.signatures) => reads_signature s
  have room := Reads.length_le_flatMap fun s (_ : s ∈ t.signatures) => signature_ne_nil s
  unfold Transaction.wire
  rw [List.append_assoc _ _ (t.signatures.flatMap Signature.wire)]
  exact Container.reads_parts (reads_name t.nexus) (reads_name t.chain) plain
    (reads_bytes t.script) t.expiration (reads_bytes t.payload)
    (Reads.length_bind t.few room signatures)

theorem onBytes_container (t : Transaction) :
    Container.read.onBytes t.wire = .ok (t.container, ⟨t.wire.length, []⟩) := by
  have all := (reads_container t).onBytes []
  rw [List.append_nil] at all
  exact all

theorem analyseScript_keeps {c : Conventions} {failure : Text} {t u : Vm.Transaction}
    {warnings : List Text} (h : t.analyseScript c failure = .ok (u, warnings)) :
    ∃ analysis, u = { t with analysis := analysis } := by
  unfold Vm.Transaction.analyseScript at h
  by_cases empty : t.script.isEmpty = true
  · rw [if_pos empty] at h
    cases h
    exact ⟨t.analysis, rfl⟩
  rw [if_neg empty] at h
  cases analysed : Text.Hex.decode t.script >>= analyse c with
  | ok d =>
    rw [analysed] at h
    cases h
    exact ⟨_, rfl⟩
  | error f =>
    rw [analysed] at h
    by_cases reported : f.isDecode = true
    · simp only [if_pos reported] at h
      cases h
      exact ⟨t.analysis, rfl⟩
    · simp [reported] at h

theorem decode_wire {c : Conventions} {t : Transaction} {found : Vm.Transaction × List Text}
    (h : Vm.Transaction.decode c t.wire = .ok found) :
    ∃ analysis, found.1 = t.shown analysis := by
  obtain ⟨⟨container, cursor⟩, read, h⟩ := except_bind_ok.mp h
  rw [onBytes_container] at read
  cases read
  obtain ⟨⟨u, warnings⟩, analysed, done⟩ := except_bind_ok.mp h
  obtain ⟨analysis, same⟩ := analyseScript_keeps analysed
  cases done
  refine ⟨analysis, ?_⟩
  rw [same]
  simp [Vm.Transaction.ofContainer, Transaction.shown, Transaction.container]

end Wire

end ChainDecode.Vm
