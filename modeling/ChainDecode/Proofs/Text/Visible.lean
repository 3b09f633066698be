import Mathlib.Algebra.Group.Nat.Defs
import ChainDecode.Proofs.Bytes

/-! # Visible ASCII survives replacement

A text that was read with replacements shows what its bytes are as long as all of it is visible
ASCII: no malformed bytes and no longer sequence give a visible character.
-/
namespace ChainDecode.Text.Utf8

def Visible (n : Nat) : Prop := 32 ≤ n ∧ n ≤ 126

theorem le_takeTails {bits n : Nat} {tails : List (UInt8 × UInt8)} {bytes rest : List UInt8}
    (h : takeTails bits tails bytes = (some n, rest)) : bits * 64 ^ tails.length ≤ n := by
  induction tails generalizing bits bytes with
  | nil =>
    cases h
    simp
  | cons range tails ih =>
    cases bytes with
    | nil => cases h
    | cons b bytes =>
      obtain ⟨low, high⟩ := range
      rw [takeTails] at h
      split at h
      · calc
          bits * 64 ^ (tails.length + 1) = bits * 64 * 64 ^ tails.length := by
            rw [Nat.pow_succ, Nat.mul_comm (64 ^ _), Nat.mul_assoc]
          _ ≤ (bits * 64 + (b.toNat - 0x80)) * 64 ^ tails.length :=
            Nat.mul_le_mul_right _ (Nat.le_add_right ..)
          _ ≤ n := ih h
      · cases h

/-- The least code point that a lead byte can begin, by the least byte that may follow it. -/
def Lead.least (lead : Lead) : Nat :=
  match lead.tails with
  | [] => lead.bits
  | (low, _) :: tails => (lead.bits * 64 + (low.toNat - 0x80)) * 64 ^ tails.length

theorem least_le {lead : Lead} {n : Nat} {bytes rest : List UInt8}
    (h : takeTails lead.bits lead.tails bytes = (some n, rest)) : lead.least ≤ n := by
  obtain ⟨bits, tails⟩ := lead
  cases tails with
  | nil =>
    cases h
    exact Nat.le_refl _
  | cons range tails =>
    cases bytes with
    | nil => cases h
    | cons b bytes =>
      obtain ⟨low, high⟩ := range
      rw [takeTails] at h
      split at h
      · rename_i inside
        rw [Bool.and_eq_true, decide_eq_true_eq, UInt8.le_iff_toNat_le] at inside
        calc
          (bits * 64 + (low.toNat - 0x80)) * 64 ^ tails.length ≤
              (bits * 64 + (b.toNat - 0x80)) * 64 ^ tails.length := by
            apply Nat.mul_le_mul_right
            omega
          _ ≤ n := le_takeTails h
      · cases h

theorem lead_cases {b : UInt8} {lead : Lead} (h : lead? b = some lead) :
    lead = ⟨b.toNat, []⟩ ∧ b.toNat < 0x80 ∨ 0x80 ≤ lead.least := by
  have table : ∀ n < 256, ((lead? (UInt8.ofNat n)).all fun lead =>
      lead.tails = [] ∧ lead.bits = n ∧ n < 0x80 ∨ 0x80 ≤ lead.least) = true := by
    decide +kernel
  have row := table b.toNat b.toNat_lt
  rw [UInt8.ofNat_toNat, h, Option.all_some, decide_eq_true_eq] at row
  obtain ⟨bits, tails⟩ := lead
  rcases row with ⟨rfl, rfl, small⟩ | high
  · exact Or.inl ⟨rfl, small⟩
  · exact Or.inr high

theorem toNat_ofNat_valid {n : Nat} (valid : n.isValidChar) : (Char.ofNat n).toNat = n := by
  rw [Char.ofNat, dif_pos valid]
  rfl

/-- What is no code point would be read as the null character, which is not visible either. -/
theorem not_visible_ofNat {n : Nat} (high : 0x80 ≤ n) : ¬ Visible (Char.ofNat n).toNat := by
  unfold Visible
  by_cases valid : n.isValidChar
  · rw [toNat_ofNat_valid valid]
    omega
  · rw [Char.ofNat, dif_neg valid]
    decide

theorem step_visible {b : UInt8} {bytes : List UInt8}
    (h : Visible (((step b bytes).1.getD replacement).toNat)) :
    Visible b.toNat ∧ (step b bytes).2 = bytes := by
  have outside : ¬ Visible replacement.toNat := by
    unfold Visible
    decide
  unfold step at h ⊢
  cases known : lead? b with
  | none =>
    rw [known] at h
    exact absurd h outside
  | some lead =>
    rw [known] at h
    dsimp only at h ⊢
    cases taken : takeTails lead.bits lead.tails bytes with
    | mk value rest =>
    rw [taken] at h
    cases value with
    | none => exact absurd h outside
    | some n =>
      rcases lead_cases known with ⟨rfl, small⟩ | high
      · cases taken
        have same : (Char.ofNat b.toNat).toNat = b.toNat := 
          toNat_ofNat_valid (Or.inl (by omega))
        rw [Option.map_some, Option.getD_some, same] at h
        exact ⟨h, rfl⟩
      · exact absurd h (not_visible_ofNat (Nat.le_trans high (least_le taken)))

theorem bytes_visible {bytes : List UInt8}
    (h : ∀ c ∈ (decode bytes).toList, Visible c.toNat) : ∀ b ∈ bytes, Visible b.toNat := by
  have letters : ∀ c ∈ scan bytes, Visible (c.getD replacement).toNat := by
    intro c member
    apply h
    rw [decode, String.toList_ofList]
    exact List.mem_map_of_mem member
  clear h
  induction bytes with
  | nil =>
    intro b member
    cases member
  | cons b bytes ih =>
    rw [scan] at letters
    obtain ⟨here, rest⟩ := step_visible (letters _ List.mem_cons_self)
    rw [rest] at letters
    have others := ih fun c member => letters c (List.mem_cons_of_mem _ member)
    intro a member
    rcases List.mem_cons.mp member with rfl | member
    · exact here
    · exact others a member

end ChainDecode.Text.Utf8
