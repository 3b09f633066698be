import ChainDecode.Number.Calendar
import Mathlib.Tactic.IntervalCases

/-! # Dates by counting

The date of a day is found by a formula in cycles of four hundred years. Counted out it is what the
calendar says: as many days lie before it since 1970 as the years and months before it have.
-/
namespace ChainDecode.Number

namespace Date

/-- Every fourth year has a day more, but of the full centuries only every fourth. -/
def IsLeap (year : Int) : Prop := year % 4 = 0 ∧ (year % 100 = 0 → year % 400 = 0)

instance (year : Int) : Decidable (IsLeap year) :=
  inferInstanceAs (Decidable (_ ∧ (_ → _)))

def monthLength (year : Int) : Nat → Nat
  | 2 => if IsLeap year then 29 else 28
  | 4 | 6 | 9 | 11 => 30
  | _ => 31

def daysOfMonths (year : Int) : (months : Nat) → Nat
  | 0 => 0
  | months + 1 => daysOfMonths year months + monthLength year (months + 1)

def daysOfYears : (years : Nat) → Nat
  | 0 => 0
  | years + 1 => daysOfYears years + daysOfMonths (1970 + years) 12

def dayNumber (d : Date) : Nat :=
  daysOfYears (d.year - 1970).toNat + daysOfMonths d.year (d.month - 1) + (d.day - 1)

structure Valid (d : Date) : Prop where
  year : 1970 ≤ d.year
  month : 1 ≤ d.month ∧ d.month ≤ 12
  day : 1 ≤ d.day ∧ d.day ≤ monthLength d.year d.month

def daysThrough (year : Int) : Int := 365 * year + year / 4 - year / 100 + year / 400

theorem daysThrough_succ (year : Int) :
    daysThrough year = daysThrough (year - 1) + 365 + if IsLeap year then 1 else 0 := by
  unfold daysThrough
  by_cases leap : IsLeap year
  · rw [if_pos leap]
    unfold IsLeap at leap
    omega
  · rw [if_neg leap]
    unfold IsLeap at leap
    omega

theorem daysOfMonths_twelve (year : Int) :
    daysOfMonths year 12 = 365 + if IsLeap year then 1 else 0 := by
  by_cases leap : IsLeap year <;> simp [daysOfMonths, monthLength, leap]

theorem daysOfYears_eq (years : Nat) :
    (daysOfYears years : Int) = daysThrough (1969 + years) - 719162 := by
  induction years with
  | zero => rfl
  | succ years ih =>
    have next := daysThrough_succ (1970 + years)
    have before : (1970 : Int) + years - 1 = 1969 + years := by omega
    have same : (1969 : Int) + (years + 1 : Nat) = 1970 + years := by omega
    rw [before] at next
    rw [daysOfYears, daysOfMonths_twelve, same, next]
    by_cases leap : IsLeap (1970 + years)
    · rw [if_pos leap, if_pos leap]
      omega
    · rw [if_neg leap, if_neg leap]
      omega

/-- A day of a cycle, by its century, its four years, its year and its place in the year. -/
structure InCycle (n century four year place : Nat) : Prop where
  split : n = 36524 * century + 1461 * four + 365 * year + place
  century_le : century ≤ 3
  four_le : four ≤ 24
  year_le : year ≤ 3
  place_le : place ≤ 365
  -- Years begin in March, so the day more is the last one of its four years.
  last : place = 365 → year = 3 ∧ (four = 24 → century = 3)

theorem inCycle {n : Nat} (small : n < 146097) :
    ∃ century four year place, InCycle n century four year place := by
  have found : ∃ j q i w, n = 36524 * j + 1461 * q + 365 * i + w ∧ j ≤ 3 ∧ q ≤ 24 ∧ i ≤ 3 ∧
      w ≤ 365 ∧ (w = 365 → i = 3 ∧ (q = 24 → j = 3)) := by
    refine ⟨min (n / 36524) 3, (n - 36524 * min (n / 36524) 3) / 1461,
      min ((n - 36524 * min (n / 36524) 3) % 1461 / 365) 3,
      (n - 36524 * min (n / 36524) 3) % 1461 -
        365 * min ((n - 36524 * min (n / 36524) 3) % 1461 / 365) 3, ?_⟩
    omega
  obtain ⟨j, q, i, w, split, hj, hq, hi, hw, last⟩ := found
  exact ⟨j, q, i, w, split, hj, hq, hi, hw, last⟩

theorem whole_years {n j q i w e a : Nat} (split : n = 36524 * j + 1461 * q + 365 * i + w)
    (le : e ≤ w) : n - (25 * j + q + e) + (j + a) - a = 365 * (100 * j + 4 * q + i) + (w - e) := by
  omega

namespace InCycle

variable {n j q i w : Nat} (h : InCycle n j q i w)
include h

theorem year_eq :
    (n - n / 1460 + n / 36524 - n / 146096) / 365 = 100 * j + 4 * q + i := by
  obtain ⟨split, hj, hq, hi, hw, last⟩ := h
  have century : n / 36524 = j + n / 146096 := by
    by_cases final : n = 146096
    · have three : j = 3 := by omega
      omega
    · have below : n < 36524 * (j + 1) := by omega
      omega
  have fourth : n / 1460 = 25 * j + q + (24 * j + q + 365 * i + w) / 1460 := by omega
  have skipped : (24 * j + q + 365 * i + w) / 1460 ≤ w ∧
      w < 365 + (24 * j + q + 365 * i + w) / 1460 := by
    clear century fourth split
    omega
  rw [fourth, century, whole_years split skipped.1]
  clear century fourth split
  omega

theorem place_eq :
    n - (365 * (100 * j + 4 * q + i) + (100 * j + 4 * q + i) / 4 - (100 * j + 4 * q + i) / 100) =
      w := by
  obtain ⟨split, hj, hq, hi, hw, last⟩ := h
  omega

end InCycle

/-- Time begins with January in the middle of a year that begins in March. -/
theorem InCycle.since {n j q i w : Nat} (h : InCycle n j q i w) {c : Int}
    (since : 719468 ≤ 146097 * c + n) :
    1969 ≤ 400 * c + (100 * j + 4 * q + i : Nat) ∧
      (400 * c + (100 * j + 4 * q + i : Nat) = 1969 → 306 ≤ w) := by
  obtain ⟨split, hj, hq, hi, hw, last⟩ := h
  by_cases early : c ≤ 4
  · have four : c = 4 := by omega
    subst four
    have three : j = 3 := by omega
    subst three
    omega
  · omega

/-- How a year that begins in March is divided into months. -/
theorem month_of_place {w m : Nat} (le : w ≤ 365) (h : m = (5 * w + 2) / 153) :
    m ≤ 11 ∧ (153 * m + 2) / 5 ≤ w ∧ w < (153 * (m + 1) + 2) / 5 := by
  omega

theorem months_from_march (year : Int) {m : Nat} (small : m < 10) :
    daysOfMonths year (m + 2) = 59 + (if IsLeap year then 1 else 0) + (153 * m + 2) / 5 ∧
      monthLength year (m + 3) + (153 * m + 2) / 5 = (153 * (m + 1) + 2) / 5 := by
  by_cases leap : IsLeap year
  · interval_cases m <;> simp [daysOfMonths, monthLength, leap]
  · interval_cases m <;> simp [daysOfMonths, monthLength, leap]

theorem ofDay_eq {day c : Int} {n j q i w : Nat} (cycle : (day + 719468) / 146097 = c)
    (rest : (day + 719468) % 146097 = n) (h : InCycle n j q i w) :
    ofDay day =
      if (5 * w + 2) / 153 < 10 then
        ⟨(100 * j + 4 * q + i : Nat) + 400 * c, (5 * w + 2) / 153 + 3,
          w - (153 * ((5 * w + 2) / 153) + 2) / 5 + 1⟩
      else
        ⟨(100 * j + 4 * q + i : Nat) + 400 * c + 1, (5 * w + 2) / 153 - 9,
          w - (153 * ((5 * w + 2) / 153) + 2) / 5 + 1⟩ := by
  unfold ofDay
  dsimp only
  rw [cycle, rest, Int.toNat_natCast, h.year_eq, h.place_eq]

theorem daysThrough_cycle {j q i : Nat} (hj : j ≤ 3) (hq : q ≤ 24) (hi : i ≤ 3) (c : Int) :
    daysThrough ((100 * j + 4 * q + i : Nat) + 400 * c) =
      146097 * c + (36524 * j + 1461 * q + 365 * i : Nat) := by
  unfold daysThrough
  omega

theorem dayNumber_eq {d : Date} (since : 1970 ≤ d.year) :
    (d.dayNumber : Int) = daysThrough (d.year - 1) - 719162 + daysOfMonths d.year (d.month - 1) +
      (d.day - 1 : Nat) := by
  have years := daysOfYears_eq (d.year - 1970).toNat
  have same : (1969 : Int) + (d.year - 1970).toNat = d.year - 1 := by omega
  rw [same] at years
  rw [dayNumber]
  omega

theorem march_counts {day : Nat} {year : Int} {m w : Nat} (early : m < 10) (since : 1970 ≤ year)
    (starts : (153 * m + 2) / 5 ≤ w) (ends : w < (153 * (m + 1) + 2) / 5)
    (whole : daysThrough year + w = day + 719468) :
    Valid ⟨year, m + 3, w - (153 * m + 2) / 5 + 1⟩ ∧
      dayNumber ⟨year, m + 3, w - (153 * m + 2) / 5 + 1⟩ = day := by
  obtain ⟨before, length⟩ := months_from_march year early
  constructor
  · refine ⟨since, ⟨?_, ?_⟩, ?_, ?_⟩ <;> dsimp only <;> omega
  · have number := dayNumber_eq (d := ⟨year, m + 3, w - (153 * m + 2) / 5 + 1⟩) since
    have months : m + 3 - 1 = m + 2 := rfl
    have leap := daysThrough_succ year
    dsimp only at number
    rw [months, before] at number
    by_cases more : IsLeap year
    · rw [if_pos more] at number leap
      omega
    · rw [if_neg more] at number leap
      omega

theorem january_counts {day : Nat} {year : Int} {w : Nat} (since : 1970 ≤ year)
    (starts : 306 ≤ w) (ends : w < 337)
    (whole : daysThrough (year - 1) + w = day + 719468) :
    Valid ⟨year, 1, w - 306 + 1⟩ ∧ dayNumber ⟨year, 1, w - 306 + 1⟩ = day := by
  have length : monthLength year 1 = 31 := rfl
  constructor
  · refine ⟨since, ⟨?_, ?_⟩, ?_, ?_⟩ <;> dsimp only <;> omega
  · have number := dayNumber_eq (d := ⟨year, 1, w - 306 + 1⟩) since
    have months : daysOfMonths year (1 - 1) = 0 := rfl
    dsimp only at number
    rw [months] at number
    omega

theorem february_counts {day : Nat} {year : Int} {w : Nat} (since : 1970 ≤ year)
    (starts : 337 ≤ w) (ends : w ≤ 365) (last : w = 365 → IsLeap year)
    (whole : daysThrough (year - 1) + w = day + 719468) :
    Valid ⟨year, 2, w - 337 + 1⟩ ∧ dayNumber ⟨year, 2, w - 337 + 1⟩ = day := by
  constructor
  · refine ⟨since, ⟨?_, ?_⟩, ?_, ?_⟩ <;> dsimp only
    any_goals omega
    have length : monthLength year 2 = if IsLeap year then 29 else 28 := rfl
    rw [length]
    by_cases leap : IsLeap year
    · rw [if_pos leap]
      omega
    · have short : w ≠ 365 := fun full => leap (last full)
      rw [if_neg leap]
      omega
  · have number := dayNumber_eq (d := ⟨year, 2, w - 337 + 1⟩) since
    have months : daysOfMonths year (2 - 1) = 31 := rfl
    dsimp only at number
    rw [months] at number
    omega

theorem ofDay_counts (day : Nat) : (ofDay day).Valid ∧ (ofDay day).dayNumber = day := by
  obtain ⟨n, rest⟩ : ∃ n : Nat, ((day : Int) + 719468) % 146097 = n :=
    ⟨(((day : Int) + 719468) % 146097).toNat, by omega⟩
  obtain ⟨c, cycle⟩ : ∃ c, ((day : Int) + 719468) / 146097 = c := ⟨_, rfl⟩
  have shifted : 146097 * c + n = day + 719468 := by omega
  obtain ⟨j, q, i, w, h⟩ := inCycle (n := n) (by omega)
  obtain ⟨years, first⟩ := h.since (c := c) (by omega)
  have through := daysThrough_cycle h.century_le h.four_le h.year_le c
  have split := h.split
  rw [ofDay_eq cycle rest h]
  generalize month : (5 * w + 2) / 153 = m
  obtain ⟨le, starts, ends⟩ := month_of_place h.place_le month.symm
  by_cases early : m < 10
  · rw [if_pos early]
    exact march_counts early (by omega) starts ends (by omega)
  · rw [if_neg early]
    have whole : daysThrough ((100 * j + 4 * q + i : Nat) + 400 * c + 1 - 1) + w =
        day + 719468 := by
      rw [Int.add_sub_cancel]
      omega
    rcases (show m = 10 ∨ m = 11 by omega) with rfl | rfl
    · exact january_counts (by omega) starts ends whole
    · refine february_counts (by omega) starts h.place_le (fun full => ?_) whole
      obtain ⟨three, century⟩ := h.last full
      have hj := h.century_le
      have hq := h.four_le
      unfold IsLeap
      omega

end Date

/-- A text is the ISO form of a time: its date is one of the calendar, and the days before it, the
hours, minutes and seconds make up the time. -/
def IsoForm (seconds : Nat) (text : String) : Prop :=
  ∃ (date : Date) (hour minute second : Nat), date.Valid ∧ hour < 24 ∧ minute < 60 ∧ second < 60 ∧
    seconds = 86400 * date.dayNumber + 3600 * hour + 60 * minute + second ∧
    text = s!"{date.year}-{twoDigits date.month}-{twoDigits date.day}" ++
      s!"T{twoDigits hour}:{twoDigits minute}:{twoDigits second}Z"

theorem isoTime_form {seconds : Nat} {text : String} (h : isoTime seconds = .ok text) :
    IsoForm seconds text := by
  have day : (seconds : Int) / 86400 = (seconds / 86400 : Nat) := rfl
  have time : ((seconds : Int) % 86400).toNat = seconds % 86400 := rfl
  obtain ⟨valid, counted⟩ := Date.ofDay_counts (seconds / 86400)
  unfold isoTime isoText? at h
  split at h
  · rename_i shown
    split at shown
    · cases shown
    · cases shown
      cases h
      rw [day, time]
      refine ⟨_, _, _, _, valid, ?_, ?_, ?_, ?_, rfl⟩ <;> omega
  · cases h

end ChainDecode.Number
