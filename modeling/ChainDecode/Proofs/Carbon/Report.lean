import ChainDecode.Carbon.Transaction
import ChainDecode.Proofs.Number.Numeral
import ChainDecode.Proofs.Reading

/-! # What a node reports beside a message

The parts of a report are not checked before they are used, and they are used in an order. The first
one that cannot be used refuses the whole message, whatever the message is.
-/
namespace ChainDecode

namespace Json

theorem present_of_hasLong {v : Json} (long : v.hasLong = true) : v.present? = some v := by
  have filled : v.isBlank = false := by
    cases v with
    | null => cases long
    | bool b => cases long
    | int n =>
      have nonzero : n ≠ 0 := by
        rintro rfl
        exact absurd (hasLong_int.mp long) (Number.word_short (by decide))
      exact beq_false_of_ne nonzero
    | real x => cases long
    | str s => cases long
    | arr items =>
      cases items with
      | nil => cases long
      | cons v rest => rfl
    | obj members =>
      cases members with
      | nil => cases long
      | cons m rest => rfl
  rw [present?, filled]
  rfl

end Json

namespace Carbon

namespace Report

/-- The gas payer is there and is no text. -/
def OddPayer (r : Report) : Prop := ∃ v, r.gasPayer.present? = some v ∧ v.text? = none

def SingleSignature (r : Report) : Prop :=
  r.signatures ≠ .null ∧ ∃ f, r.signatures.elements = .error f

/-- The first part of a report that cannot be used, and the cause. -/
inductive Refuses (r : Report) : Fault → Prop
  | expiration (long : r.expiration.hasLong = true) : Refuses r .digitLimit
  | payer (short : r.expiration.hasLong = false) (odd : r.OddPayer) : Refuses r .notText
  | payload {f : Fault} (short : r.expiration.hasLong = false) (payer : ¬ r.OddPayer)
      (stop : r.payloadText = .error f) : Refuses r f
  | signatures (short : r.expiration.hasLong = false) (payer : ¬ r.OddPayer)
      (payload : ∃ text, r.payloadText = .ok text) (single : r.SingleSignature) :
      Refuses r .wrongShape

variable {r : Report} {f : Fault}

theorem expiry_error : r.expiry = .error f ↔ f = .digitLimit ∧ r.expiration.hasLong = true := by
  rw [expiry, Json.shown_error]
  refine and_congr_right fun _ => ⟨fun long => ?_, fun long => ?_⟩
  · unfold Json.present? at long
    split at long
    · rw [Option.getD_none] at long
      exact absurd (Json.hasLong_int.mp long) (Number.word_short (by decide))
    · exact long
  · rwa [Json.present_of_hasLong long]

theorem gasFrom_error : r.gasFrom = .error f ↔ f = .notText ∧ r.OddPayer := by
  unfold gasFrom OddPayer
  cases payer : r.gasPayer.present? with
  | none => simp
  | some v =>
    cases v with
    | str text =>
      dsimp only
      cases Address.keyOfText text <;> simp [Json.text?]
    | _ => simp [Json.text?, eq_comm]

theorem elements_cause {v : Json} (h : v.elements = .error f) : f = .wrongShape := by
  unfold Json.elements at h
  split at h <;> cases h
  rfl

theorem witnesses_error : r.witnesses = .error f ↔ f = .wrongShape ∧ r.SingleSignature := by
  unfold witnesses SingleSignature
  split
  · rename_i none
    simp [none]
  · rename_i v other
    have mapped : (Witnesses.reported <$> r.signatures.elements) =
        r.signatures.elements.map Witnesses.reported := rfl
    rw [mapped, except_map_error]
    constructor
    · intro stop
      exact ⟨elements_cause stop, other, f, stop⟩
    · rintro ⟨rfl, -, g, stop⟩
      rw [stop, elements_cause stop]

theorem expiry_ok : (∃ text, r.expiry = .ok text) ↔ r.expiration.hasLong = false := by
  cases shown : r.expiry with
  | error f => simp [(expiry_error.mp shown).2]
  | ok text =>
    simp only [Except.ok.injEq, exists_eq', true_iff]
    cases long : r.expiration.hasLong with
    | false => rfl
    | true => cases shown.symm.trans (expiry_error.mpr ⟨rfl, long⟩)

theorem gasFrom_ok : (∃ found, r.gasFrom = .ok found) ↔ ¬ r.OddPayer := by
  cases derived : r.gasFrom with
  | error f => simp [(gasFrom_error.mp derived).2]
  | ok found =>
    simp only [Except.ok.injEq, exists_eq', true_iff]
    intro odd
    cases derived.symm.trans (gasFrom_error.mpr ⟨rfl, odd⟩)

end Report

/-- A bare message is refused for its bytes or, behind them, for what is reported beside it. -/
theorem decodeMessage_error {code : Json} {bytes : List UInt8} {r : Report} {f : Fault} :
    Transaction.decodeMessage code bytes r = .error f ↔
      (Message.readOf code).onBytes bytes = .error f ∨
        (∃ found, (Message.readOf code).onBytes bytes = .ok found) ∧ r.Refuses f := by
  unfold Transaction.decodeMessage
  rw [except_bind_error]
  refine or_congr_right ⟨?_, ?_⟩
  · rintro ⟨found, read, stop⟩
    refine ⟨⟨found, read⟩, ?_⟩
    rcases except_bind_error.mp stop with late | ⟨expiry, shown, stop⟩
    · obtain ⟨rfl, long⟩ := Report.expiry_error.mp late
      exact .expiration long
    have short := Report.expiry_ok.mp ⟨expiry, shown⟩
    rcases except_bind_error.mp stop with refused | ⟨payer, derived, stop⟩
    · obtain ⟨rfl, odd⟩ := Report.gasFrom_error.mp refused
      exact .payer short odd
    have plain := Report.gasFrom_ok.mp ⟨payer, derived⟩
    rcases except_bind_error.mp stop with garbled | ⟨payload, decoded, stop⟩
    · exact .payload short plain garbled
    rcases except_bind_error.mp stop with refused | ⟨witnesses, _, stop⟩
    · obtain ⟨rfl, single⟩ := Report.witnesses_error.mp refused
      exact .signatures short plain ⟨payload, decoded⟩ single
    · cases stop
  · rintro ⟨⟨found, read⟩, refuses⟩
    refine ⟨found, read, ?_⟩
    cases refuses with
    | expiration long =>
      exact except_bind_error.mpr (Or.inl (Report.expiry_error.mpr ⟨rfl, long⟩))
    | payer short odd =>
      obtain ⟨expiry, shown⟩ := Report.expiry_ok.mpr short
      refine except_bind_error.mpr (Or.inr ⟨expiry, shown, ?_⟩)
      exact except_bind_error.mpr (Or.inl (Report.gasFrom_error.mpr ⟨rfl, odd⟩))
    | payload short plain stop =>
      obtain ⟨expiry, shown⟩ := Report.expiry_ok.mpr short
      obtain ⟨payer, derived⟩ := Report.gasFrom_ok.mpr plain
      refine except_bind_error.mpr (Or.inr ⟨expiry, shown, ?_⟩)
      refine except_bind_error.mpr (Or.inr ⟨payer, derived, ?_⟩)
      exact except_bind_error.mpr (Or.inl stop)
    | signatures short plain payload single =>
      obtain ⟨expiry, shown⟩ := Report.expiry_ok.mpr short
      obtain ⟨payer, derived⟩ := Report.gasFrom_ok.mpr plain
      obtain ⟨text, decoded⟩ := payload
      refine except_bind_error.mpr (Or.inr ⟨expiry, shown, ?_⟩)
      refine except_bind_error.mpr (Or.inr ⟨payer, derived, ?_⟩)
      refine except_bind_error.mpr (Or.inr ⟨text, decoded, ?_⟩)
      exact except_bind_error.mpr (Or.inl (Report.witnesses_error.mpr ⟨rfl, single⟩))

end Carbon

end ChainDecode
