import Mathlib.Data.List.Nodup
import ChainDecode.Event.Kind
import ChainDecode.Proofs.Address
import ChainDecode.Proofs.Number.Numeral

/-! # Names of event kinds

The name of a kind is a hint for that kind: it is no number, and no two names differ in letter case
alone.
-/
namespace ChainDecode

namespace Text

def asciiRun : CaseRun := ⟨0x41, 0x5a, 1, 0x20⟩

theorem find?_ascii {n : Nat} (ascii : n < 127) :
    smallRuns.find? (·.holds n) = if asciiRun.holds n then some asciiRun else none := by
  have behind : smallRuns.tail.all (fun r => Nat.ble 127 r.first) = true := by decide +kernel
  have others : smallRuns.tail.find? (·.holds n) = none := by
    refine List.find?_eq_none.mpr fun r member => ?_
    have first := Nat.le_of_ble_eq_true (List.all_eq_true.mp behind r member)
    simp only [CaseRun.holds, Bool.and_eq_true, decide_eq_true_eq, not_and]
    omega
  change (asciiRun :: smallRuns.tail).find? (·.holds n) = _
  rw [List.find?_cons, others]
  cases asciiRun.holds n <;> rfl

theorem mapCase_ascii {c : Char} (ascii : c.toNat < 127) :
    mapCase smallRuns smallExpansions c = [c.toLower] := by
  have table : ∀ n < 127, smallExpansions.lookup n = none ∧
      (if asciiRun.holds n then Char.ofNat ((n : Int) + asciiRun.shift).toNat else Char.ofNat n) =
        (Char.ofNat n).toLower := by
    decide +kernel
  obtain ⟨single, mapped⟩ := table c.toNat ascii
  rw [Char.ofNat_toNat] at mapped
  rw [mapCase, single, ← mapped, find?_ascii ascii]
  cases asciiRun.holds c.toNat <;> rfl

theorem lower_ascii {cs : List Char} (ascii : ∀ c ∈ cs, c.toNat < 127) :
    lower (ofChars cs) = ofChars (cs.map Char.toLower) := by
  have after : ∀ seen, lowerAfter seen (cs.map Letter.char) =
      (cs.map Char.toLower).map Letter.char := by
    induction cs with
    | nil => exact fun _ => rfl
    | cons c cs ih =>
      intro seen
      have here := ascii c List.mem_cons_self
      have others := ih (fun d member => ascii d (List.mem_cons_of_mem c member)) (.char c :: seen)
      have plain : ¬ c.toNat = 0x3a3 := by omega
      rw [List.map_cons, lowerAfter, lowerBetween, if_neg plain, mapCase_ascii here, others]
      rfl
  exact congrArg Text.mk (after [])

end Text

namespace Event.Kind

theorem names_plain {name : String} (h : name ∈ names) :
    name ≠ "" ∧ Text.isDigits name = false ∧
      ∀ c ∈ name.toList, c.toNat < 127 ∧ Text.isBlank c = false := by
  have table : ∀ name ∈ names, name ≠ "" ∧ Text.isDigits name = false ∧
      (name.toList.all fun c => c.toNat < 127 && !Text.isBlank c) = true := by
    decide +kernel
  simpa using table name h

theorem names_apart : (names.map fun name => name.toList.map Char.toLower).Nodup := by
  decide +kernel

theorem lower_name {name : String} (h : name ∈ names) :
    Text.lower name = Text.ofChars (name.toList.map Char.toLower) :=
  Text.lower_ascii fun c member => ((names_plain h).2.2 c member).1

theorem lower_inj {a b : String} (ha : a ∈ names) (hb : b ∈ names)
    (same : Text.lower a = Text.lower b) : a = b := by
  rw [lower_name ha, lower_name hb] at same
  have chars := List.map_injective_iff.mpr (fun _ _ => Letter.char.inj) (congrArg Text.letters same)
  exact List.inj_on_of_nodup_map names_apart ha hb chars

theorem ofName?_normal {name : String} {i : Nat} {t : Text} (h : names[i]? = some name)
    (normal : normalName t = Text.lower name) : ofName? t = some ⟨i, name⟩ := by
  obtain ⟨bound, same⟩ := List.getElem?_eq_some_iff.mp h
  have first : (names.findIdx? fun (other : String) =>
      Text.lower other = normalName t) = some i := by
    rw [normal, List.findIdx?_eq_some_iff_getElem]
    refine ⟨bound, decide_eq_true (by rw [same]), fun j before => ?_⟩
    -- Two places that hold one name are one place, for no two names are alike.
    intro alike
    have equal := lower_inj (List.getElem_mem _) (same ▸ List.getElem_mem bound)
      (of_decide_eq_true alike)
    have once : names.Nodup := List.Nodup.of_map _ names_apart
    have place := (List.Nodup.getElem_inj_iff once).mp (equal.trans same.symm)
    omega
  rw [ofName?, first, Option.map_some, ofId, List.getD_eq_getElem?_getD, h, Option.getD_some]

/-- The letters of a name, each in either case, with blanks anywhere between and around them. -/
inductive Spelling : List Char → List Letter → Prop where
  | done : Spelling [] []
  | letter {c d : Char} {name : List Char} {ls : List Letter} :
      d.toLower = c.toLower → Spelling name ls → Spelling (c :: name) (.char d :: ls)
  | blank {b : Char} {name : List Char} {ls : List Letter} :
      Text.isBlank b = true → Spelling name ls → Spelling name (.char b :: ls)

theorem Spelling.refl (name : List Char) : Spelling name (name.map .char) := by
  induction name with
  | nil => exact .done
  | cons c name ih => exact .letter rfl ih

theorem toLower_cases (c : Char) :
    c.toLower = c ∨ 0x41 ≤ c.toNat ∧ c.toNat ≤ 0x5a ∧ c.toLower.toNat = c.toNat + 0x20 := by
  unfold Char.toLower
  split
  · rename_i capital
    have first : 0x41 ≤ c.toNat := capital.1
    have last : c.toNat ≤ 0x5a := capital.2
    refine .inr ⟨first, last, ?_⟩
    change (c.toNat + 0x20) % 2 ^ 32 = _
    omega
  · exact .inl rfl

theorem letter_plain {c : Char} (first : 0x41 ≤ c.toNat) (last : c.toNat ≤ 0x7a) :
    c.toNat < 127 ∧ Text.isDigit c = false ∧ Text.isBlank c = false := by
  have ascii : c.toNat < 127 := by omega
  refine ⟨ascii, ?_, ?_⟩
  · by_contra digit
    have row := Text.digit_ascii ascii (by simpa using digit)
    omega
  · simp [Text.isBlank]
    omega

theorem plain_of_case {c d : Char} (same : d.toLower = c.toLower) (ascii : c.toNat < 127) :
    d.toNat < 127 ∧ Text.isDigit d = Text.isDigit c ∧ Text.isBlank d = Text.isBlank c := by
  have letters : d = c ∨ (0x41 ≤ d.toNat ∧ d.toNat ≤ 0x7a) ∧ 0x41 ≤ c.toNat ∧ c.toNat ≤ 0x7a := by
    have codes := congrArg Char.toNat same
    rcases toLower_cases d with small | ⟨first, last, code⟩ <;>
      rcases toLower_cases c with small' | ⟨first', last', code'⟩
    · exact .inl (small.symm.trans (same.trans small'))
    · rw [small] at codes
      omega
    · rw [small'] at codes
      omega
    · omega
  rcases letters with rfl | ⟨⟨first, last⟩, first', last'⟩
  · exact ⟨ascii, rfl, rfl⟩
  · obtain ⟨inside, noDigit, inked⟩ := letter_plain first last
    obtain ⟨-, noDigit', inked'⟩ := letter_plain first' last'
    exact ⟨inside, noDigit.trans noDigit'.symm, inked.trans inked'.symm⟩

theorem Spelling.inked {name : List Char} {ls : List Letter} (h : Spelling name ls)
    (plain : ∀ c ∈ name, c.toNat < 127 ∧ Text.isBlank c = false) :
    ∃ cs : List Char, Text.inked ⟨ls⟩ = cs.map .char ∧
      cs.map Char.toLower = name.map Char.toLower ∧
      cs.map Text.isDigit = name.map Text.isDigit ∧ ∀ c ∈ cs, c.toNat < 127 := by
  induction h with
  | done => exact ⟨[], rfl, rfl, rfl, by simp⟩
  | @letter c d name ls same _ ih =>
    obtain ⟨cs, letters, small, digits, ascii⟩ :=
      ih fun e member => plain e (List.mem_cons_of_mem c member)
    obtain ⟨inside, inked⟩ := plain c List.mem_cons_self
    obtain ⟨low, digit, blank⟩ := plain_of_case same inside
    refine ⟨d :: cs, ?_, by simp [same, small], by simp [digit, digits],
      List.forall_mem_cons.mpr ⟨low, ascii⟩⟩
    rw [List.map_cons, ← letters]
    exact List.filter_cons_of_pos (by simp [Letter.is, Letter.char?, blank, inked])
  | blank isBlank _ ih =>
    obtain ⟨cs, letters, rest⟩ := ih plain
    refine ⟨cs, ?_, rest⟩
    rw [← letters]
    exact List.filter_cons_of_neg (by simp [Letter.is, Letter.char?, isBlank])

theorem ofHint_spelling {name : String} {i : Nat} {t : Text} (h : names[i]? = some name)
    (spelling : Spelling name.toList t.letters) :
    ofHint (some t) = .ok (some ⟨i, name⟩) := by
  have member : name ∈ names := List.mem_of_getElem? h
  obtain ⟨nonempty, noDigits, plain⟩ := names_plain member
  obtain ⟨cs, letters, small, digits, ascii⟩ := spelling.inked plain
  have inked : Text.inked t.strip = cs.map .char := (Text.inked_strip t).trans letters
  have each : ∀ c ∈ cs, Letter.char c ∈ t.strip.letters := by
    intro c inside
    have kept : Letter.char c ∈ Text.inked t.strip := inked ▸ List.mem_map_of_mem inside
    exact List.mem_of_mem_filter kept
  have shown : ¬ t.strip.isEmpty = true := by
    intro empty
    have none : cs = [] := by
      rw [Text.isEmpty, List.isEmpty_iff] at empty
      rw [Text.inked, empty] at inked
      exact List.map_eq_nil_iff.mp inked.symm
    rw [none, List.map_nil] at small
    exact nonempty (String.toList_eq_nil_iff.mp (List.map_eq_nil_iff.mp small.symm))
  have word : ¬ Text.isDigits t.strip = true := by
    intro all
    have digit : ∀ l ∈ (Text.ofString name).letters, l.is Text.isDigit = true := by
      intro l listed
      obtain ⟨c, inside, rfl⟩ := List.mem_map.mp listed
      have found : Text.isDigit c ∈ cs.map Text.isDigit := digits ▸ List.mem_map_of_mem inside
      obtain ⟨d, kept, same⟩ := List.mem_map.mp found
      have shownDigit := List.all_eq_true.mp (Bool.and_eq_true_iff.mp all).2 _ (each d kept)
      simpa [Letter.is, Letter.char?, ← same] using shownDigit
    have number : Text.isDigits name = true := by
      rw [Text.isDigits, List.all_eq_true.mpr digit]
      simpa [Text.isEmpty] using nonempty
    rw [noDigits] at number
    cases number
  have normal : normalName t.strip = Text.lower name := by
    rw [normalName, inked, lower_name member, ← small]
    exact Text.lower_ascii ascii
  rw [ofHint]
  dsimp only [Option.getD_some]
  rw [if_neg shown, if_neg word, ofName?_normal h normal]

theorem ofHint_name {name : String} {i : Nat} (h : names[i]? = some name) :
    ofHint (some (Text.ofString name)) = .ok (some ⟨i, name⟩) :=
  ofHint_spelling h (.refl name.toList)

end Event.Kind

end ChainDecode
