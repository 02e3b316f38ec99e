/-!
# The Gregorian calendar

Days are counted from 1970-01-01 in both directions.  Years here start with March, so the leap day
is the last of its year, and 400 years are one cycle of 146097 days; dates are counted within a
cycle.  `dayNumber` turns a date into its day and `Date.ofDay` a day into its date.
-/

namespace Matchmaker

structure Date where
  year : Int
  month : Nat
  day : Nat
  deriving DecidableEq, Repr

namespace Date

def isLeap (year : Int) : Bool := year % 4 == 0 && (year % 100 != 0 || year % 400 == 0)

def monthLength (year : Int) (month : Nat) : Nat :=
  if month == 2 then if isLeap year then 29 else 28
  else if month ∈ [4, 6, 9, 11] then 30
  else 31

/-- the years that dates are kept for -/
def minYear : Int := -262143
def maxYear : Int := 262142

/-- a day of the calendar -/
def IsValid (d : Date) : Prop :=
  minYear ≤ d.year ∧ d.year ≤ maxYear ∧ 1 ≤ d.month ∧ d.month ≤ 12 ∧
    1 ≤ d.day ∧ d.day ≤ monthLength d.year d.month

instance (d : Date) : Decidable d.IsValid := by unfold IsValid; infer_instance

/-- days of a cycle before its year `y`, which starts in March -/
def yearStart (y : Nat) : Nat := 365 * y + y / 4 - y / 100

/-- days of a year before its month `m`, March being month 0 -/
def monthStart (m : Nat) : Nat := (153 * m + 2) / 5

/-- the days from 0000-03-01 to 1970-01-01 -/
def epoch : Int := 719468

def dayNumber (d : Date) : Int :=
  let year := if d.month ≤ 2 then d.year - 1 else d.year
  let inCycle := (year % 400).toNat
  let month := (d.month + 9) % 12
  year / 400 * 146097 + (yearStart inCycle + monthStart month + (d.day - 1) : Nat) - epoch

def ofDay (n : Int) : Date :=
  let n := n + epoch
  let inCycle := (n % 146097).toNat
  let year := (inCycle - inCycle / 1460 + inCycle / 36524 - inCycle / 146096) / 365
  let inYear := inCycle - yearStart year
  let month := (5 * inYear + 2) / 153
  { year := n / 146097 * 400 + year + (if month < 10 then 0 else 1)
    month := if month < 10 then month + 3 else month - 9
    day := inYear - monthStart month + 1 }

end Date

end Matchmaker
