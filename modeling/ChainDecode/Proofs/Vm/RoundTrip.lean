import ChainDecode.Proofs.Outcome.Delimiting
import ChainDecode.Proofs.Text.Visible
import ChainDecode.Proofs.Vm.Framed

/-! # Transactions of the virtual machine are read back

A transaction is shown as it was written, in whatever form its lengths are, and one warning tells
whether bytes follow it. Names that are not visible ASCII byte for byte are refused.
-/
namespace ChainDecode.Vm

def leftoverText : Text := "VM decode did not consume all bytes"

theorem ne_of_front {front : Text} {line : Text} (h : ¬ front.letters <+: line.letters)
    (back : Text) : line ≠ front ++ back := by
  rintro rfl
  exact h (List.prefix_append _ _)

theorem unresolved_other (key : String) (fitting : List Abi.Signature) :
    leftoverText ∉ unresolved key fitting := by
  have missing : leftoverText ≠ Text.ofString s!"missing ABI for {key}; args omitted" := by
    rw [Text.ofString_append, Text.ofString_append, Text.append_assoc]
    exact ne_of_front (by decide) _
  have ambiguous :
      leftoverText ≠ Text.ofString s!"ABI overload ambiguity for {key}; args omitted" := by
    rw [Text.ofString_append, Text.ofString_append, Text.append_assoc]
    exact ne_of_front (by decide) _
  match fitting with
  | [] => simpa [unresolved] using missing
  | [_] => simp [unresolved]
  | _ :: _ :: _ => simpa [unresolved] using ambiguous

theorem mismatch_other {protocol : Option Json} {key : String} {given : Nat} {lines : List Text}
    (h : mismatch protocol key given = .ok lines) : leftoverText ∉ lines := by
  rcases mismatch_ok h with rfl | ⟨expected, version, rfl⟩
  · exact List.not_mem_nil
  · rw [List.mem_singleton, mismatchLine, Text.append_assoc, Text.append_assoc]
    exact ne_of_front (by decide) _

theorem callWarnings_other (c : Conventions) (key : String) (given : Nat) :
    leftoverText ∉ callWarnings c key given := by
  unfold callWarnings
  rw [List.mem_append, not_or]
  refine ⟨?_, unresolved_other key _⟩
  cases found : mismatch c.protocol key given with
  | ok lines => exact mismatch_other found
  | error f => exact List.not_mem_nil

theorem warningsAt_other (c : Conventions) (before : List Instruction) (i : Instruction) :
    leftoverText ∉ warningsAt c before i := by
  have site : ∀ s : Site, leftoverText ∉ s.warnings c := by
    intro s
    unfold Site.warnings
    split
    · exact callWarnings_other c _ _
    · exact List.not_mem_nil
  unfold warningsAt
  split
  · split
    · rw [List.mem_singleton, Text.ofString_append]
      exact ne_of_front (by decide) _
    · exact List.not_mem_nil
  · exact site _
  · exact site _
  · exact List.not_mem_nil

theorem warned_other (c : Conventions) (before : List Instruction) :
    leftoverText ∉ warned c before := by
  induction before with
  | nil => exact List.not_mem_nil
  | cons i before ih =>
    rw [warned, List.mem_append, not_or]
    exact ⟨ih, warningsAt_other c before i⟩

theorem analyse_warnings {c : Conventions} {script : List UInt8} {d : Disassembly}
    (h : analyse c script = .ok d) : leftoverText ∉ d.warnings := by
  obtain ⟨is, disassembled, done⟩ := except_bind_ok.mp h
  cases run : (replayAll c is).run .fresh with
  | error f m =>
    rw [run] at done
    cases done
  | ok calls m =>
    rw [run] at done
    cases done
    obtain ⟨follows, _⟩ := replayAll_ok (disassemble_shaped disassembled) (follows_fresh c) run
    rw [follows.warnings]
    exact warned_other c _

theorem analyseScript_warnings {c : Conventions} {t u : Transaction} {warnings : List Text}
    (h : t.analyseScript c "VM disassembly failed" = .ok (u, warnings)) :
    leftoverText ∉ warnings := by
  unfold Transaction.analyseScript at h
  by_cases empty : t.script.isEmpty = true
  · rw [if_pos empty] at h
    cases h
    exact List.not_mem_nil
  rw [if_neg empty] at h
  cases analysed : Text.Hex.decode t.script >>= analyse c with
  | ok d =>
    rw [analysed] at h
    cases h
    obtain ⟨_, _, done⟩ := except_bind_ok.mp analysed
    exact analyse_warnings done
  | error f =>
    rw [analysed] at h
    dsimp only at h
    by_cases reported : f.isDecode = true
    · rw [if_pos reported] at h
      cases h
      rw [List.mem_singleton, Text.append_assoc]
      exact ne_of_front (by decide) _
    · rw [if_neg reported] at h
      cases h

/-- A script is told of unless its analysis stops with a cause outside the bytes. -/
theorem analyseScript_returns {c : Conventions} (failure : Text) {t : Transaction}
    {script : List UInt8} (written : t.script = Text.Hex.encode script)
    (reported : ∀ f, analyse c script = .error f → InBytes f) :
    ∃ analysis warnings,
      t.analyseScript c failure = .ok ({ t with analysis := analysis }, warnings) := by
  cases done : t.analyseScript c failure with
  | ok found =>
    obtain ⟨u, warnings⟩ := found
    obtain ⟨analysis, rfl⟩ := Wire.analyseScript_keeps done
    exact ⟨analysis, warnings, rfl⟩
  | error f =>
    unfold Transaction.analyseScript at done
    rw [written, Text.Hex.decode_encode] at done
    split at done
    · cases done
    · split at done
      · cases done
      · rename_i g stop
        have inBytes : g.isDecode = true := reported g stop
        rw [if_pos inBytes] at done
        cases done

theorem framed_decodes {c : Conventions} {t : Framed.Transaction}
    (reported : ∀ f, analyse c t.script.data = .error f → InBytes f) (tail : List UInt8) :
    ∃ analysis warnings,
      Transaction.decode c (t.wire ++ tail) = .ok (t.shown analysis, warnings) ∧
        (leftoverText ∈ warnings ↔ tail ≠ []) := by
  have read := (Framed.reads_container t).onBytes tail
  have script : (Transaction.ofContainer t.container).script = Text.Hex.encode t.script.data := rfl
  obtain ⟨analysis, own, analysed⟩ :=
    analyseScript_returns "VM disassembly failed" script reported
  have quiet := analyseScript_warnings analysed
  refine ⟨analysis, leftoverLine tail ++ own, ?_, ?_⟩
  · rw [decode_container read, analysed]
    simp [Except.map, Transaction.ofContainer, Framed.Transaction.shown,
      Framed.Transaction.container]
  · rw [List.mem_append, or_iff_left quiet, leftoverLine]
    by_cases none : tail = []
    · simp [none]
    · simp [none, leftoverText]

/-- The bytes of the two names, if both can be read. -/
def readNames : Read (List UInt8 × List UInt8) := do
  let nexus ← Container.readBytes
  let chain ← Container.readBytes
  pure (nexus, chain)

theorem plain_bytes {bytes : List UInt8} (h : Container.isPlain (Text.Utf8.decode bytes) = true) :
    ∀ b ∈ bytes, 32 ≤ b.toNat ∧ b.toNat ≤ 126 :=
  Text.Utf8.bytes_visible ((Wire.isPlain_iff _).mp h)

theorem text_of_bytes {data : List UInt8} {p q : Cursor}
    (h : Container.readBytes p = .ok data q) :
    Buffer.text Container.label p = .ok (Text.Utf8.decode data) q := by
  show EStateM.map _ Container.readBytes p = _
  rw [EStateM.map, h]

theorem names_refused {bytes nexus chain : List UInt8} {cursor : Cursor}
    (read : readNames.onBytes bytes = .ok ((nexus, chain), cursor))
    (hidden : ∃ b ∈ nexus ++ chain, ¬ (32 ≤ b.toNat ∧ b.toNat ≤ 126)) :
    Container.read.onBytes bytes = .error .unprintableName := by
  obtain ⟨first, between, nexusRead, rest⟩ := of_bind_ok (of_onBytes_ok read)
  obtain ⟨second, after, chainRead, done⟩ := of_bind_ok rest
  cases done
  have refused : ¬ (Container.isPlain (Text.Utf8.decode nexus) &&
      Container.isPlain (Text.Utf8.decode chain)) = true := by
    rw [Bool.and_eq_true]
    rintro ⟨plainNexus, plainChain⟩
    obtain ⟨b, inside, outside⟩ := hidden
    rcases List.mem_append.mp inside with member | member
    · exact outside (plain_bytes plainNexus b member)
    · exact outside (plain_bytes plainChain b member)
  rw [Read.onBytes, EStateM.run, Container.read, bind_ok (text_of_bytes nexusRead),
    bind_ok (text_of_bytes chainRead), if_neg refused]
  rfl

/-- A transaction with lengths of any width is shown as it was written, whatever follows it, and
bytes that follow are told of if and only if there are any. Excepted are scripts whose analysis
stops with a cause that is not in the bytes. Bytes whose names are not visible ASCII throughout are
refused as malformed. -/
theorem framed_transactions_are_read_back (c : Conventions) :
    (∀ (t : Framed.Transaction) (tail : List UInt8),
      (∀ f, analyse c t.script.data = .error f → InBytes f) →
        ∃ analysis warnings,
          Transaction.decode c (t.wire ++ tail) = .ok (t.shown analysis, warnings) ∧
            (Text.ofString "VM decode did not consume all bytes" ∈ warnings ↔ tail ≠ [])) ∧
    ∀ (bytes nexus chain : List UInt8) (cursor : Cursor),
      readNames.onBytes bytes = .ok ((nexus, chain), cursor) →
        (∃ b ∈ nexus ++ chain, ¬ (32 ≤ b.toNat ∧ b.toNat ≤ 126)) →
          Transaction.decode c bytes = .error .unprintableName ∧
            Fault.unprintableName.kind = .format := by
  constructor
  · intro t tail reported
    exact framed_decodes reported tail
  · intro bytes nexus chain cursor read hidden
    refine ⟨?_, rfl⟩
    rw [Transaction.decode, names_refused read hidden]
    rfl

/-- A transaction whose script returns at once, with lengths in all four forms. -/
def idleFramed : Framed.Transaction where
  nexus := ⟨⟨.two 7, "testnet", by decide +kernel⟩, (Wire.isPlain_iff _).mp (by decide +kernel)⟩
  chain := ⟨⟨.four 4, "side", by decide +kernel⟩, (Wire.isPlain_iff _).mp (by decide +kernel)⟩
  script := ⟨.four 1, [11], rfl⟩
  expiration := 1700000000
  payload := ⟨.eight 1, [7], rfl⟩
  count := .two 2
  signatures := [.ecdsa 5 ⟨.byte 3 (by decide), [9, 9, 9], rfl⟩, .unsigned]
  exact := rfl

/-- A byte follows the transaction in one case, and begins no character in the other. -/
theorem idleFramed_read_back :
    (∀ f, analyse ⟨none, none⟩ idleFramed.script.data = .error f → InBytes f) ∧
    (∃ analysis warnings,
      Transaction.decode ⟨none, none⟩ (idleFramed.wire ++ [0]) =
          .ok (idleFramed.shown analysis, warnings) ∧
        (Text.ofString "VM decode did not consume all bytes" ∈ warnings ↔ [(0 : UInt8)] ≠ [])) ∧
    readNames.onBytes [1, 0xff, 0] = .ok (([0xff], []), ⟨3, []⟩) ∧
    (∃ b ∈ [(0xff : UInt8)] ++ [], ¬ (32 ≤ b.toNat ∧ b.toNat ≤ 126)) ∧
    Transaction.decode ⟨none, none⟩ [1, 0xff, 0] = .error .unprintableName ∧
      Fault.unprintableName.kind = .format := by
  have reported : ∀ f, analyse ⟨none, none⟩ idleFramed.script.data = .error f → InBytes f := by
    have done : analyse ⟨none, none⟩ idleFramed.script.data =
        .ok ⟨[⟨0, 11, []⟩], [], []⟩ := rfl
    rw [done]
    nofun
  have read : readNames.onBytes [1, 0xff, 0] = .ok (([0xff], []), ⟨3, []⟩) := rfl
  have hidden : ∃ b ∈ [(0xff : UInt8)] ++ [], ¬ (32 ≤ b.toNat ∧ b.toNat ≤ 126) :=
    ⟨0xff, by decide, by decide⟩
  exact ⟨reported, (framed_transactions_are_read_back ⟨none, none⟩).1 idleFramed [0] reported, read,
    hidden, (framed_transactions_are_read_back ⟨none, none⟩).2 _ _ _ _ read hidden⟩

end ChainDecode.Vm
