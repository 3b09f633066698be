import Mathlib.Data.List.Basic
import ChainDecode.Proofs.Text.Blank
import ChainDecode.Text.Case

/-! # Capitals

What a letter is written as in capitals is its own capital and no blank, unless the letter is one.
So a text without blanks around it has none around it in capitals, and capitals stay what they are.
-/
namespace ChainDecode.Text

namespace CaseRun

def image (r : CaseRun) (code : Nat) : Nat := (code + r.shift : Int).toNat

def codes (r : CaseRun) : List Nat :=
  (List.range ((r.last - r.first) / r.step + 1)).map fun place => r.first + place * r.step

/-- The run of one letter, which is left alone. -/
def single (code : Nat) : CaseRun := ⟨code, code, 1, 0⟩

theorem holds_iff {r : CaseRun} {code : Nat} : r.holds code = true ↔
    r.first ≤ code ∧ code ≤ r.last ∧ (code - r.first) % r.step = 0 := by
  simp only [holds, Bool.and_eq_true, decide_eq_true_eq, beq_iff_eq, and_assoc]

theorem not_holds_iff {r : CaseRun} {code : Nat} : r.holds code = false ↔
    ¬ (r.first ≤ code ∧ code ≤ r.last ∧ (code - r.first) % r.step = 0) := by
  rw [← holds_iff, Bool.not_eq_true]

theorem mem_codes {r : CaseRun} {code : Nat} (h : r.holds code = true) : code ∈ r.codes := by
  obtain ⟨low, high, even⟩ := holds_iff.mp h
  have steps : (code - r.first) / r.step * r.step = code - r.first :=
    Nat.div_mul_cancel (Nat.dvd_of_mod_eq_zero even)
  have place : (code - r.first) / r.step ≤ (r.last - r.first) / r.step :=
    Nat.div_le_div_right (by omega)
  exact List.mem_map.mpr ⟨_, List.mem_range.mpr (Nat.lt_succ_of_le place), by omega⟩

theorem image_le {r : CaseRun} {c d : Nat} (h : c ≤ d) : r.image c ≤ r.image d := by
  unfold image
  omega

/-- No letter of the one run maps into the other. The letters are looked at one by one only where
the ranges meet. -/
def apart (r q : CaseRun) : Bool :=
  Nat.blt (r.image r.last) q.first || Nat.blt q.last (r.image r.first) ||
    r.codes.all fun code => !q.holds (r.image code)

theorem not_holds_of_apart {r q : CaseRun} {code : Nat} (h : r.apart q = true)
    (inside : r.holds code = true) : q.holds (r.image code) = false := by
  obtain ⟨low, high, -⟩ := holds_iff.mp inside
  have above : r.image r.first ≤ r.image code := image_le low
  have below : r.image code ≤ r.image r.last := image_le high
  simp only [apart, Bool.or_eq_true, Nat.blt_eq, List.all_eq_true, Bool.not_eq_true'] at h
  rcases h with (before | behind) | one
  · exact not_holds_iff.mpr fun met => by omega
  · exact not_holds_iff.mpr fun met => by omega
  · exact one code (mem_codes inside)

end CaseRun

def surrogateRun : CaseRun := ⟨0xd800, 0xdfff, 1, 0⟩

def blankRuns : List CaseRun :=
  [⟨0x9, 0xd, 1, 0⟩, ⟨0x1c, 0x20, 1, 0⟩, .single 0x85, .single 0xa0, .single 0x1680,
    ⟨0x2000, 0x200a, 1, 0⟩, .single 0x2028, .single 0x2029, .single 0x202f, .single 0x205f,
    .single 0x3000]

def unsettledRuns : List CaseRun :=
  surrogateRun :: blankRuns ++ capitalRuns ++ capitalExpansions.map (.single ·.1)

def capitalSources : List CaseRun :=
  capitalRuns ++ capitalExpansions.flatMap fun e => e.2.map .single

theorem sources_settled :
    (capitalSources.all fun r => Nat.blt (r.image r.last) 0x110000 && unsettledRuns.all r.apart) =
      true := by
  decide +kernel

/-- A code point of a character that is its own capital and no blank. -/
structure Settled (code : Nat) : Prop where
  small : code < 0x110000
  apart : ∀ q ∈ unsettledRuns, q.holds code = false

theorem source_settled {r : CaseRun} {code : Nat} (source : r ∈ capitalSources)
    (inside : r.holds code = true) : Settled (r.image code) := by
  have facts := List.all_eq_true.mp sources_settled r source
  rw [Bool.and_eq_true, Nat.blt_eq, List.all_eq_true] at facts
  have below : r.image code ≤ r.image r.last := CaseRun.image_le (CaseRun.holds_iff.mp inside).2.1
  exact ⟨by omega, fun q member => CaseRun.not_holds_of_apart (facts.2 q member) inside⟩

theorem holds_single (code : Nat) : (CaseRun.single code).holds code = true :=
  CaseRun.holds_iff.mpr ⟨Nat.le_refl _, Nat.le_refl _, by simp [CaseRun.single]⟩

theorem expansion_settled {key code : Nat} {codes : List Nat}
    (member : (key, codes) ∈ capitalExpansions) (found : code ∈ codes) : Settled code := by
  have source : CaseRun.single code ∈ capitalSources :=
    List.mem_append_right _ (List.mem_flatMap.mpr ⟨_, member, List.mem_map_of_mem found⟩)
  have settled := source_settled source (holds_single code)
  have same : (CaseRun.single code).image code = code := by
    simp [CaseRun.image, CaseRun.single]
  rwa [same] at settled

theorem Settled.toNat {code : Nat} (h : Settled code) : (Char.ofNat code).toNat = code := by
  have character := h.apart surrogateRun (by simp [unsettledRuns])
  have small := h.small
  have valid : code.isValidChar := by
    simp [surrogateRun, CaseRun.not_holds_iff] at character
    simp only [Nat.isValidChar]
    omega
  rw [Char.ofNat, dif_pos valid]
  rfl

theorem Settled.inked {c : Char} (h : Settled c.toNat) : isBlank c = false := by
  have none : ∀ q ∈ blankRuns, q.holds c.toNat = false := fun q member =>
    h.apart q (by simp [unsettledRuns, member])
  simp only [blankRuns, CaseRun.single, List.forall_mem_cons, CaseRun.not_holds_iff, Nat.mod_one,
    and_true] at none
  simp only [isBlank, Bool.or_eq_false_iff, Bool.and_eq_false_iff, decide_eq_false_iff_not,
    beq_eq_false_iff_ne]
  omega

theorem Settled.kept {c : Char} (h : Settled c.toNat) :
    mapCase capitalRuns capitalExpansions c = [c] := by
  have expansion : capitalExpansions.lookup c.toNat = none := by
    rw [List.lookup_eq_none_iff]
    intro e member
    have other := h.apart (.single e.1) (by
      simp only [unsettledRuns, List.mem_append, List.mem_map]
      exact Or.inr ⟨e, member, rfl⟩)
    refine bne_iff_ne.mpr fun same => ?_
    rw [same, holds_single] at other
    cases other
  have run : capitalRuns.find? (·.holds c.toNat) = none := by
    rw [List.find?_eq_none]
    intro r member
    have other := h.apart r (by simp [unsettledRuns, member])
    simp [other]
  rw [mapCase, expansion]
  dsimp only
  rw [run]

/-- What a letter is written as in capitals: itself, or letters that are capitals. -/
theorem capital_cases (c : Char) :
    mapCase capitalRuns capitalExpansions c = [c] ∨
      mapCase capitalRuns capitalExpansions c ≠ [] ∧
        ∀ d ∈ mapCase capitalRuns capitalExpansions c, Settled d.toNat := by
  unfold mapCase
  split
  · rename_i codes found
    have member : (c.toNat, codes) ∈ capitalExpansions := by
      obtain ⟨front, back, same, -⟩ := List.lookup_eq_some_iff.mp found
      rw [same]
      exact List.mem_append_right _ List.mem_cons_self
    refine Or.inr ⟨?_, ?_⟩
    · have some : capitalExpansions.all (!·.2.isEmpty) = true := by decide +kernel
      have letters := List.all_eq_true.mp some _ member
      simpa using letters
    · intro d written
      obtain ⟨code, inside, rfl⟩ := List.mem_map.mp written
      have settled := expansion_settled member inside
      rwa [settled.toNat]
  · split
    · rename_i r found
      have settled : Settled (r.image c.toNat) :=
        source_settled (List.mem_append_left _ (List.mem_of_find?_eq_some found))
          (by simpa using List.find?_some found)
      refine Or.inr ⟨List.cons_ne_nil _ _, fun d written => ?_⟩
      rw [List.mem_singleton.mp written]
      exact settled.toNat.symm ▸ settled
    · exact Or.inl rfl

/-- A text in capitals is the text in capitals that it is. -/
theorem upper_upper (t : Text) : (t.upper).upper = t.upper := by
  have letter : ∀ l : Letter, (upperLetter l).flatMap upperLetter = upperLetter l := by
    rintro (c | place)
    · rcases capital_cases c with same | ⟨-, settled⟩
      · simp only [upperLetter, same, List.map_cons, List.map_nil, List.flatMap_cons,
          List.flatMap_nil, List.append_nil]
      · have kept : ∀ ds : List Char, (∀ d ∈ ds, Settled d.toNat) →
            (ds.map Letter.char).flatMap upperLetter = ds.map .char := by
          intro ds all
          induction ds with
          | nil => rfl
          | cons d ds ih =>
            have first := (all d List.mem_cons_self).kept
            have rest := ih fun e member => all e (List.mem_cons_of_mem d member)
            rw [List.map_cons, List.flatMap_cons, rest, upperLetter, first]
            rfl
        exact kept _ settled
    · rfl
  simp only [upper, List.flatMap_assoc, letter]

theorem upperLetter_some (l : Letter) : upperLetter l ≠ [] := by
  rcases l with c | place
  · rcases capital_cases c with same | ⟨some, -⟩
    · simp [upperLetter, same]
    · simpa [upperLetter] using some
  · exact List.cons_ne_nil _ _

theorem upperLetter_inked {l m : Letter} (inked : l.is isBlank = false)
    (member : m ∈ upperLetter l) : m.is isBlank = false := by
  rcases l with c | place
  · obtain ⟨d, written, rfl⟩ := List.mem_map.mp member
    rcases capital_cases c with same | ⟨-, settled⟩
    · rw [same] at written
      rwa [List.mem_singleton.mp written]
    · exact (settled d written).inked
  · rw [List.mem_singleton.mp member]
    rfl

theorem bare_upper {t : Text} (h : Bare t.letters) : Bare t.upper.letters := by
  obtain ⟨ls⟩ := t
  refine ⟨fun m first => ?_, fun m last => ?_⟩
  · cases ls with
    | nil => cases first
    | cons l rest =>
      rw [upper, List.flatMap_cons, List.head?_append_of_ne_nil _ (upperLetter_some l)] at first
      exact upperLetter_inked (h.front l rfl) (List.mem_of_head? first)
  · rcases List.eq_nil_or_concat ls with rfl | ⟨rest, l, rfl⟩
    · cases last
    · rw [List.concat_eq_append] at last h
      rw [upper, List.flatMap_append, List.flatMap_singleton,
        List.getLast?_append_of_ne_nil _ (upperLetter_some l)] at last
      exact upperLetter_inked (h.back l (by simp)) (List.mem_of_getLast? last)

theorem upper_strip_upper_strip (t : Text) : (t.strip.upper).strip.upper = t.strip.upper := by
  rw [(bare_upper (bare_strip t)).strip, upper_upper]

end ChainDecode.Text
