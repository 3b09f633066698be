import ChainDecode.Number.Numeral

/-! # Dates

Days are counted from the first of January 1970 in the Gregorian calendar, extended to all years.
Times of the years 1 to 9999 have a text; there are no leap seconds.
-/
namespace ChainDecode.Number

structure Date where
  year : Int
  month : Nat
  day : Nat
  deriving DecidableEq, Repr

namespace Date

/-- The date of a day. Years are taken from March to February, in cycles of four hundred. -/
def ofDay (day : Int) : Date :=
  let shifted := day + 719468
  let cycle := shifted / 146097
  let inCycle := (shifted % 146097).toNat
  let year := (inCycle - inCycle / 1460 + inCycle / 36524 - inCycle / 146096) / 365
  let inYear := inCycle - (365 * year + year / 4 - year / 100)
  let month := (5 * inYear + 2) / 153
  let day := inYear - (153 * month + 2) / 5 + 1
  if month < 10 then ⟨year + 400 * cycle, month + 3, day⟩
  else ⟨year + 400 * cycle + 1, month - 9, day⟩

end Date

def twoDigits (n : Nat) : String := if n < 10 then s!"0{n}" else toString n

def firstSecond : Int := -62135596800

def lastSecond : Int := 253402300799

def isoText? (seconds : Int) : Option String :=
  if seconds < firstSecond || lastSecond < seconds then none
  else
    let date := Date.ofDay (seconds / 86400)
    let time := (seconds % 86400).toNat
    some (s!"{date.year}-{twoDigits date.month}-{twoDigits date.day}" ++
      s!"T{twoDigits (time / 3600)}:{twoDigits (time / 60 % 60)}:{twoDigits (time % 60)}Z")

def isoTime (seconds : Int) : Except Fault String :=
  match isoText? seconds with
  | some text => .ok text
  | none => .error (naming seconds (.timestampRange (toString seconds)))

end ChainDecode.Number
