import Mathlib.Data.List.Forall2
import ChainDecode.Proofs.Number.Calendar

/-! # Times and their texts

A time has a text exactly up to the last second of the year 9999. The text is that of the calendar:
six numbers in columns of fixed width, from the year down to the second. So texts are ordered as the
times are.
-/
namespace ChainDecode.Number

def lastDigits : (width : Nat) → (n : Nat) → List Char
  | 0, _ => []
  | width + 1, n => lastDigits width (n / 10) ++ [Nat.digitChar (n % 10)]

def inColumns : List (Nat × Char) → List Nat → List Char
  | column :: columns, n :: numbers =>
    lastDigits column.1 n ++ column.2 :: inColumns columns numbers
  | _, _ => []

abbrev Fit (columns : List (Nat × Char)) (numbers : List Nat) : Prop :=
  List.Forall₂ (fun column n => n < 10 ^ column.1) columns numbers

theorem length_lastDigits (width n : Nat) : (lastDigits width n).length = width := by
  induction width generalizing n with
  | zero => rfl
  | succ width ih => rw [lastDigits, List.length_append, ih, List.length_singleton]

theorem digitChar_lt {m n : Nat} (less : m < n) (digit : n < 10) :
    Nat.digitChar m < Nat.digitChar n := by
  have all : ∀ j : Fin 10, ∀ i : Fin 10, i < j → Nat.digitChar i < Nat.digitChar j := by decide
  exact all ⟨n, digit⟩ ⟨m, less.trans digit⟩ less

theorem append_lt_append {xs ys : List Char} (less : xs < ys) (same : xs.length = ys.length)
    (us vs : List Char) : xs ++ us < ys ++ vs := by
  induction xs generalizing ys with
  | nil =>
    rw [List.eq_nil_of_length_eq_zero same.symm] at less
    exact absurd less (List.not_lt_nil _)
  | cons x xs ih =>
    cases ys with
    | nil => cases same
    | cons y ys =>
      rcases List.cons_lt_cons_iff.mp less with first | ⟨rfl, behind⟩
      · exact List.cons_lt_cons_iff.mpr (Or.inl first)
      · exact List.cons_lt_cons_iff.mpr (Or.inr ⟨rfl, ih behind (Nat.succ.inj same)⟩)

theorem lastDigits_lt {width m n : Nat} (less : m < n) (fits : n < 10 ^ width) :
    lastDigits width m < lastDigits width n := by
  induction width generalizing m n with
  | zero =>
    rw [Nat.pow_zero] at fits
    omega
  | succ width ih =>
    rw [Nat.pow_succ] at fits
    rcases (show m / 10 < n / 10 ∨ m / 10 = n / 10 ∧ m % 10 < n % 10 by omega) with
      front | ⟨front, last⟩
    · refine append_lt_append (ih front (by omega)) ?_ _ _
      rw [length_lastDigits, length_lastDigits]
    · have digit := digitChar_lt last (Nat.mod_lt n (by decide))
      rw [lastDigits, lastDigits, front]
      exact List.append_left_lt (List.cons_lt_cons_iff.mpr (Or.inl digit))

theorem inColumns_lt {columns : List (Nat × Char)} {numbers others : List Nat}
    (fit : Fit columns numbers) (fits : Fit columns others) (less : numbers < others) :
    inColumns columns numbers < inColumns columns others := by
  induction fit generalizing others with
  | nil =>
    cases fits
    exact absurd less (List.not_lt_nil _)
  | @cons column n columns numbers small fit ih =>
    cases fits with
    | cons limit fits =>
      rcases List.cons_lt_cons_iff.mp less with first | ⟨rfl, behind⟩
      · refine append_lt_append (lastDigits_lt first limit) ?_ _ _
        rw [length_lastDigits, length_lastDigits]
      · exact List.append_left_lt (List.cons_lt_cons_iff.mpr (Or.inr ⟨rfl, ih fits behind⟩))

/-- A number fills a column exactly when its first digit is not zero. -/
theorem toDigits_eq_lastDigits {width n : Nat} (filled : 10 ^ width ≤ n)
    (fits : n < 10 ^ (width + 1)) : Nat.toDigits 10 n = lastDigits (width + 1) n := by
  induction width generalizing n with
  | zero =>
    rw [Nat.zero_add, Nat.pow_one] at fits
    rw [Nat.toDigits_of_lt_base fits, lastDigits, lastDigits, Nat.mod_eq_of_lt fits]
    rfl
  | succ width ih =>
    rw [Nat.pow_succ] at filled fits
    have front := ih (n := n / 10) (by omega) (by omega)
    have many : 10 ≤ n := by
      have one := Nat.one_le_pow width 10 (by decide)
      omega
    rw [Nat.toDigits_of_base_le (by decide) many, front]
    rfl

theorem toList_toString {width n : Nat} (filled : 10 ^ width ≤ n) (fits : n < 10 ^ (width + 1)) :
    (toString n).toList = lastDigits (width + 1) n := by
  rw [Nat.toString_eq_ofList_toDigits, String.toList_ofList, toDigits_eq_lastDigits filled fits]

theorem toList_twoDigits {n : Nat} (fits : n < 100) : (twoDigits n).toList = lastDigits 2 n := by
  unfold twoDigits
  by_cases small : n < 10
  · have front : n / 10 = 0 := by omega
    have last : n % 10 = n := Nat.mod_eq_of_lt small
    rw [if_pos small, Nat.toString_eq_ofList_toDigits, Nat.toDigits_of_lt_base small, lastDigits,
      lastDigits, lastDigits, front, last, String.toList_append, String.toList_ofList]
    rfl
  · rw [if_neg small]
    exact toList_toString (Nat.le_of_not_lt small) fits

namespace Date

theorem daysOfMonths_le (year : Int) {m n : Nat} (le : m ≤ n) :
    daysOfMonths year m ≤ daysOfMonths year n := by
  induction le with
  | refl => exact Nat.le_refl _
  | step _ ih => exact ih.trans (Nat.le_add_right _ _)

theorem daysOfYears_le {m n : Nat} (le : m ≤ n) : daysOfYears m ≤ daysOfYears n := by
  induction le with
  | refl => exact Nat.le_refl _
  | step _ ih => exact ih.trans (Nat.le_add_right _ _)

theorem monthLength_le (year : Int) (month : Nat) : monthLength year month ≤ 31 := by
  unfold monthLength
  split
  · split <;> decide
  all_goals decide

theorem Valid.in_month {d : Date} (h : d.Valid) :
    daysOfMonths d.year (d.month - 1) + (d.day - 1) < daysOfMonths d.year d.month := by
  obtain ⟨months, succ⟩ : ∃ months, d.month = months + 1 := ⟨d.month - 1, by have := h.month; omega⟩
  have day := h.day
  rw [succ] at day ⊢
  rw [daysOfMonths, Nat.add_sub_cancel]
  omega

theorem Valid.in_year {d : Date} (h : d.Valid) :
    d.dayNumber < daysOfYears ((d.year - 1970).toNat + 1) := by
  have year : (1970 : Int) + (d.year - 1970).toNat = d.year := by have := h.year; omega
  have months := daysOfMonths_le d.year h.month.2
  have inside := h.in_month
  rw [dayNumber, daysOfYears, year]
  omega

theorem dayNumber_lt_of_year {d e : Date} (h : d.Valid) (less : d.year < e.year) :
    d.dayNumber < e.dayNumber := by
  have since := h.year
  have years := daysOfYears_le (show (d.year - 1970).toNat + 1 ≤ (e.year - 1970).toNat by omega)
  have inside := h.in_year
  rw [dayNumber.eq_def e]
  omega

theorem dayNumber_lt_of_month {d e : Date} (h : d.Valid) (year : d.year = e.year)
    (less : d.month < e.month) : d.dayNumber < e.dayNumber := by
  have months := daysOfMonths_le e.year (show d.month ≤ e.month - 1 by omega)
  have inside := h.in_month
  rw [year] at inside
  rw [dayNumber, dayNumber, year]
  omega

theorem dayNumber_lt_of_day {d e : Date} (h : d.Valid) (year : d.year = e.year)
    (month : d.month = e.month) (less : d.day < e.day) : d.dayNumber < e.dayNumber := by
  have first := h.day.1
  rw [dayNumber, dayNumber, year, month]
  omega

end Date

/-- A time of the calendar, to the second. -/
structure Moment where
  date : Date
  hour : Nat
  minute : Nat
  second : Nat
  deriving DecidableEq, Repr

namespace Moment

/-- A time from 1970 on that the calendar and the clock have. -/
structure Valid (m : Moment) : Prop where
  date : m.date.Valid
  hour : m.hour < 24
  minute : m.minute < 60
  second : m.second < 60

/-- The seconds since the first of January 1970. -/
def seconds (m : Moment) : Nat :=
  86400 * m.date.dayNumber + 3600 * m.hour + 60 * m.minute + m.second

def numbers (m : Moment) : List Nat :=
  [m.date.year.toNat, m.date.month, m.date.day, m.hour, m.minute, m.second]

def columns : List (Nat × Char) := [(4, '-'), (2, '-'), (2, 'T'), (2, ':'), (2, ':'), (2, 'Z')]

def spelling (m : Moment) : List Char := inColumns columns m.numbers

theorem seconds_lt {m n : Moment} (h : m.Valid) (k : n.Valid) (less : m.numbers < n.numbers) :
    m.seconds < n.seconds := by
  have since := h.date.year
  have since' := k.date.year
  have clock := h.hour
  have minute := h.minute
  have second := h.second
  simp only [numbers, List.cons_lt_cons_iff, List.not_lt_nil, and_false, or_false] at less
  unfold seconds
  rcases less with year | ⟨year, month | ⟨month, day | ⟨day, rest⟩⟩⟩
  · have days := Date.dayNumber_lt_of_year (e := n.date) h.date (by omega)
    omega
  · have days := Date.dayNumber_lt_of_month h.date (by omega) month
    omega
  · have days := Date.dayNumber_lt_of_day h.date (by omega) month day
    omega
  · have days : m.date.dayNumber = n.date.dayNumber := by
      have years : m.date.year = n.date.year := by omega
      rw [Date.dayNumber, Date.dayNumber, years, month, day]
    omega

theorem Valid.eq_of_numbers {m n : Moment} (h : m.Valid) (k : n.Valid)
    (same : m.numbers = n.numbers) : m = n := by
  obtain ⟨⟨year, month, day⟩, hour, minute, second⟩ := m
  obtain ⟨⟨year', month', day'⟩, hour', minute', second'⟩ := n
  have since := h.date.year
  have since' := k.date.year
  simp only [numbers, List.cons.injEq, and_true] at same
  dsimp only at since since'
  obtain ⟨years, rfl, rfl, rfl, rfl, rfl⟩ := same
  have year_eq : year = year' := by omega
  rw [year_eq]

/-- The years that a text has columns for end with the last second of the year 9999. -/
theorem Valid.year_le {m : Moment} (h : m.Valid) (within : m.seconds ≤ 253402300799) :
    m.date.year ≤ 9999 := by
  by_contra late
  have since := h.date.year
  have years := Date.daysOfYears_le (show 8030 ≤ (m.date.year - 1970).toNat by omega)
  have counted := Date.daysOfYears_eq 8030
  have through : Date.daysThrough (1969 + (8030 : Nat)) = 3652059 := by decide
  rw [seconds, Date.dayNumber] at within
  omega

theorem Valid.fit {m : Moment} (h : m.Valid) (within : m.seconds ≤ 253402300799) :
    Fit columns m.numbers := by
  have year := h.year_le within
  have month := h.date.month.2
  have day : m.date.day ≤ 31 := h.date.day.2.trans (Date.monthLength_le _ _)
  have hour := h.hour
  have minute := h.minute
  have second := h.second
  simp only [Fit, columns, numbers, List.forall₂_cons, List.forall₂_nil_left_iff, and_true]
  omega

end Moment

/-- A text names a time: it is written `YYYY-MM-DDTHH:MM:SSZ` for a date of the calendar and a time
of the clock, and as many seconds have gone by until then since 1970. -/
def Names (text : String) (seconds : Nat) : Prop :=
  ∃ m : Moment, m.Valid ∧ m.seconds = seconds ∧ text.toList = m.spelling

theorem toList_year {year : Int} (since : 1970 ≤ year) (within : year ≤ 9999) :
    (toString year).toList = lastDigits 4 year.toNat := by
  obtain ⟨n, rfl⟩ := Int.eq_ofNat_of_zero_le (show 0 ≤ year by omega)
  exact toList_toString (by omega) (by omega)

theorem names_of_isoTime {seconds : Nat} {text : String} (within : seconds ≤ 253402300799)
    (h : isoTime seconds = .ok text) : Names text seconds := by
  obtain ⟨date, hour, minute, second, valid, hour_lt, minute_lt, second_lt, rfl, rfl⟩ :=
    isoTime_form h
  have all : Moment.Valid ⟨date, hour, minute, second⟩ := ⟨valid, hour_lt, minute_lt, second_lt⟩
  have year := toList_year valid.year (all.year_le within)
  have month := toList_twoDigits (show date.month < 100 by have := valid.month.2; omega)
  have day := toList_twoDigits (show date.day < 100 by
    have := valid.day.2.trans (Date.monthLength_le _ _)
    omega)
  have hours := toList_twoDigits (show hour < 100 by omega)
  have minutes := toList_twoDigits (show minute < 100 by omega)
  have seconds := toList_twoDigits (show second < 100 by omega)
  refine ⟨_, all, rfl, ?_⟩
  have shown : ∀ s : String, toString s = s := fun _ => rfl
  simp only [shown, String.toList_append, year, month, day, hours, minutes, seconds]
  simp [Moment.spelling, Moment.columns, Moment.numbers, inColumns]

theorem isoTime_ok {seconds : Nat} (within : seconds ≤ 253402300799) :
    ∃ text, isoTime seconds = .ok text := by
  have since : ¬ (seconds : Int) < firstSecond := by
    unfold firstSecond
    omega
  have inside : ¬ lastSecond < (seconds : Int) := by
    unfold lastSecond
    omega
  simp [isoTime, isoText?, since, inside]

theorem isoTime_late {seconds : Nat} (late : 253402300799 < seconds) :
    isoTime seconds = .error (naming seconds (.timestampRange (toString seconds))) := by
  have outside : lastSecond < (seconds : Int) := by
    unfold lastSecond
    omega
  have none : isoText? seconds = none := by simp [isoText?, outside]
  rw [isoTime, none]
  rfl

theorem isoTime_within {seconds : Nat} {text : String} (h : isoTime seconds = .ok text) :
    seconds ≤ 253402300799 := by
  by_contra late
  rw [isoTime_late (Nat.lt_of_not_le late)] at h
  cases h

theorem Names.lt {text other : String} {v w : Nat} (h : Names text v) (k : Names other w)
    (within : w ≤ 253402300799) (less : v < w) : text < other := by
  obtain ⟨m, valid, rfl, spelled⟩ := h
  obtain ⟨n, valid', rfl, spelled'⟩ := k
  have numbers : m.numbers < n.numbers := by
    by_contra other
    rcases List.le_iff_lt_or_eq.mp (List.not_lt.mp other) with after | same
    · have later := Moment.seconds_lt valid' valid after
      omega
    · rw [valid'.eq_of_numbers valid same] at less
      exact absurd less (Nat.lt_irrefl _)
  rw [String.lt_iff, spelled, spelled']
  exact inColumns_lt (valid.fit (by omega)) (valid'.fit within) numbers

/-- Texts of times are in the order of the times, so no two times have the same text. -/
theorem isoTime_order {v w : Nat} {text other : String} (shown : isoTime v = .ok text)
    (told : isoTime w = .ok other) : (text = other ↔ v = w) ∧ (text < other ↔ v < w) := by
  have names := names_of_isoTime (isoTime_within shown) shown
  have names' := names_of_isoTime (isoTime_within told) told
  rcases Nat.lt_trichotomy v w with less | rfl | more
  · have before := names.lt names' (isoTime_within told) less
    have apart : text ≠ other := fun same => String.lt_irrefl other (same ▸ before)
    exact ⟨iff_of_false apart (Nat.ne_of_lt less), iff_of_true before less⟩
  · have same : text = other := Except.ok.inj (shown.symm.trans told)
    rw [same]
    exact ⟨iff_of_true rfl rfl, iff_of_false (String.lt_irrefl other) (Nat.lt_irrefl v)⟩
  · have after := names'.lt names (isoTime_within shown) more
    have apart : text ≠ other := fun same => String.lt_irrefl other (same ▸ after)
    exact ⟨iff_of_false apart (Nat.ne_of_gt more),
      iff_of_false (String.lt_asymm after) (Nat.lt_asymm more)⟩

end ChainDecode.Number
