import Matchmaker.Time.Calendar

/-!
# Days and dates

`Date.ofDay` gives a date of the calendar (`ofDay_valid`), and the day of that date is the day that
was asked for (`dayNumber_ofDay`).

A day of a cycle is laid out in centuries, groups of four years, years and days (`exists_layout`).
Only the last day of a group, of a century or of a cycle is special: a year has a day with number 365
only if it is the last one of its group, and then it is a leap year.  In these parts the closed
formula for the year is linear.
-/

namespace Matchmaker.Date

/-! ## the year of a day -/

/-- `c` is day `day` of year `100 * century + 4 * group + year` of its cycle -/
structure Layout (c century group year day : Nat) : Prop where
  sum : c = 36524 * century + 1461 * group + 365 * year + day
  century_le : century ≤ 3
  group_le : group ≤ 24
  year_le : year ≤ 3
  day_le : day ≤ 365
  fits : 1461 * group + 365 * year + day ≤ 36524
  last : 1461 * group + 365 * year + day = 36524 → century = 3
  leap : day = 365 → year = 3

theorem exists_century {c : Nat} (h : c < 146097) :
    ∃ century rest, century ≤ 3 ∧ rest ≤ 36524 ∧ c = 36524 * century + rest ∧
      (rest = 36524 → century = 3) := by
  by_cases hlast : c = 146096
  · exact ⟨3, 36524, by omega⟩
  · exact ⟨c / 36524, c % 36524, by omega⟩

theorem exists_year {c : Nat} (h : c ≤ 1460) :
    ∃ year day, year ≤ 3 ∧ day ≤ 365 ∧ c = 365 * year + day ∧ (day = 365 → year = 3) := by
  by_cases hlast : c = 1460
  · exact ⟨3, 365, by omega⟩
  · exact ⟨c / 365, c % 365, by omega⟩

theorem exists_layout {c : Nat} (h : c < 146097) :
    ∃ century group year day, Layout c century group year day := by
  obtain ⟨century, r, hcentury, hr, hc, hlast⟩ := exists_century h
  have hgroup : r / 1461 ≤ 24 := by omega
  have hrest : r % 1461 ≤ 1460 := by omega
  obtain ⟨year, day, hyear, hday, hyears, hleap⟩ := exists_year hrest
  have hsum : 1461 * (r / 1461) + 365 * year + day = r := by omega
  exact ⟨century, r / 1461, year, day, by omega, hcentury, hgroup, hyear, hday, by omega,
    fun hfull => hlast (by omega), hleap⟩

/-- the year of a cycle that a day of the cycle is in -/
def yearOf (c : Nat) : Nat := (c - c / 1460 + c / 36524 - c / 146096) / 365

section
variable {c century group year day : Nat} (h : Layout c century group year day)
include h

theorem Layout.yearOf_eq : yearOf c = 100 * century + 4 * group + year := by
  obtain ⟨hsum, hcentury, hgroup, hyear, hday, hfits, hlast, hleap⟩ := h
  have hcenturies : c / 36524 - c / 146096 = century := by omega
  have hle : c / 146096 ≤ c / 36524 := by omega
  have hgroups : c / 1460 =
      25 * century + group + (24 * century + group + 365 * year + day) / 1460 := by omega
  have hbounds : 365 * (100 * century + 4 * group + year) ≤ c - c / 1460 + century ∧
      c - c / 1460 + century ≤ 365 * (100 * century + 4 * group + year) + 364 := by
    rw [hgroups, hsum]
    by_cases hsmall : 24 * century + group + 365 * year + day < 1460
    · rw [Nat.div_eq_of_lt hsmall]
      omega
    · have hone : (24 * century + group + 365 * year + day) / 1460 = 1 := by omega
      rw [hone]
      omega
  unfold yearOf
  rw [Nat.add_sub_assoc hle, hcenturies]
  omega

theorem Layout.year_lt : 100 * century + 4 * group + year < 400 := by
  have := h.century_le
  have := h.group_le
  have := h.year_le
  omega

theorem Layout.yearStart_add : yearStart (100 * century + 4 * group + year) + day = c := by
  have hgroup := h.group_le
  have hyear := h.year_le
  have hfour : (100 * century + 4 * group + year) / 4 = 25 * century + group := by omega
  have hhundred : (100 * century + 4 * group + year) / 100 = century := by omega
  unfold yearStart
  rw [hfour, hhundred, h.sum]
  omega

/-- A year with a day of number 365 ends with the last day of February of a leap year. -/
theorem Layout.isLeap (cycle : Int) (hday : day = 365) :
    isLeap (cycle * 400 + (100 * century + 4 * group + year : Nat) + 1) = true := by
  obtain ⟨-, hcentury, hgroup, -, -, -, hlast, hleap⟩ := h
  have hyear := hleap hday
  have hfull : group = 24 → century = 3 := fun hg => hlast (by omega)
  unfold Date.isLeap
  simp only [Bool.and_eq_true, beq_iff_eq, Bool.or_eq_true, bne_iff_ne]
  by_cases hg : group = 24
  · have := hfull hg
    exact ⟨by omega, .inr (by omega)⟩
  · exact ⟨by omega, .inl (by omega)⟩

end

/-! ## the date of a day -/

/-- the date of day `day` of the year `year` of a cycle -/
def inYear (cycle : Int) (year day : Nat) : Date :=
  let month := (5 * day + 2) / 153
  { year := cycle * 400 + year + (if month < 10 then 0 else 1)
    month := if month < 10 then month + 3 else month - 9
    day := day - monthStart month + 1 }

theorem ofDay_eq (n : Int) :
    ofDay n = inYear ((n + epoch) / 146097) (yearOf ((n + epoch) % 146097).toNat)
      (((n + epoch) % 146097).toNat - yearStart (yearOf ((n + epoch) % 146097).toNat)) := rfl

theorem exists_ofDay_eq (n : Int) :
    ∃ cycle c century group year day, Layout c century group year day ∧
      n + epoch = cycle * 146097 + (c : Int) ∧
      ofDay n = inYear cycle (100 * century + 4 * group + year) day := by
  have hc : ((n + epoch) % 146097).toNat < 146097 := by omega
  obtain ⟨century, group, year, day, h⟩ := exists_layout hc
  refine ⟨(n + epoch) / 146097, _, century, group, year, day, h, by omega, ?_⟩
  rw [ofDay_eq, h.yearOf_eq]
  congr 1
  have := h.yearStart_add
  omega

section
variable {cycle : Int} {year day : Nat}

theorem month_bounds (h : day ≤ 365) :
    (5 * day + 2) / 153 ≤ 11 ∧ monthStart ((5 * day + 2) / 153) ≤ day := by
  unfold monthStart
  omega

theorem dayNumber_inYear (hyear : year < 400) (hday : day ≤ 365) :
    (inYear cycle year day).dayNumber = cycle * 146097 + (yearStart year + day : Nat) - epoch := by
  obtain ⟨hmonth, hstart⟩ := month_bounds hday
  unfold dayNumber inYear
  dsimp only
  generalize hm : (5 * day + 2) / 153 = month at *
  by_cases hten : month < 10
  · have hyears : ¬ month + 3 ≤ 2 := by omega
    have hmonths : (month + 3 + 9) % 12 = month := by omega
    have hcycle : (cycle * 400 + year + 0) / 400 = cycle := by omega
    have hinCycle : ((cycle * 400 + year + 0) % 400).toNat = year := by omega
    simp only [if_pos hten, if_neg hyears, hmonths, hcycle, hinCycle]
    omega
  · have hyears : month - 9 ≤ 2 := by omega
    have hmonths : (month - 9 + 9) % 12 = month := by omega
    have hcycle : (cycle * 400 + year + 1 - 1) / 400 = cycle := by omega
    have hinCycle : ((cycle * 400 + year + 1 - 1) % 400).toNat = year := by omega
    simp only [if_neg hten, if_pos hyears, hmonths, hcycle, hinCycle]
    omega

theorem monthLength_of_ne {month : Nat} (h : month ≠ 2) (year : Int) :
    monthLength year month = if month ∈ [4, 6, 9, 11] then 30 else 31 := by
  rw [monthLength, if_neg (by simpa using h)]

theorem monthLength_le (year : Int) (month : Nat) : monthLength year month ≤ 31 := by
  unfold monthLength
  split
  · split <;> decide
  · split <;> decide

/-- the lengths of the months before February of a year that starts with March -/
theorem monthStart_succ {m : Nat} (h : m < 11) :
    let month := if m < 10 then m + 3 else m - 9
    month ≠ 2 ∧
      monthStart (m + 1) = monthStart m + if month ∈ [4, 6, 9, 11] then 30 else 31 := by
  have : ∀ m < 11, let month := if m < 10 then m + 3 else m - 9
      month ≠ 2 ∧
        monthStart (m + 1) = monthStart m + if month ∈ [4, 6, 9, 11] then 30 else 31 := by decide
  exact this m h

theorem day_le_monthLength (hday : day ≤ 365)
    (hleap : day = 365 → isLeap (cycle * 400 + year + 1) = true) :
    (inYear cycle year day).day ≤
      monthLength (inYear cycle year day).year (inYear cycle year day).month := by
  obtain ⟨hmonth, hstart⟩ := month_bounds hday
  have hend : day < monthStart ((5 * day + 2) / 153 + 1) := by
    unfold monthStart
    omega
  unfold inYear
  dsimp only
  generalize hm : (5 * day + 2) / 153 = month at *
  by_cases hfebruary : month = 11
  · subst hfebruary
    have hstarts : monthStart 11 = 337 := rfl
    show day - monthStart 11 + 1 ≤
      if isLeap (cycle * 400 + year + 1) = true then 29 else 28
    by_cases hlast : day = 365
    · rw [if_pos (hleap hlast)]
      omega
    · split <;> omega
  · obtain ⟨hne, hlength⟩ := monthStart_succ (show month < 11 by omega)
    rw [monthLength_of_ne hne]
    omega

end

/-! ## both ways -/

/-- The day of the date of a day is that day. -/
theorem dayNumber_ofDay (n : Int) : (ofDay n).dayNumber = n := by
  obtain ⟨cycle, c, century, group, year, day, h, hn, hdate⟩ := exists_ofDay_eq n
  rw [hdate, dayNumber_inYear h.year_lt h.day_le, h.yearStart_add]
  omega

/-- The date of a day is one of the calendar, if its year is one that dates are kept for. -/
theorem ofDay_valid {n : Int} (hmin : minYear ≤ (ofDay n).year) (hmax : (ofDay n).year ≤ maxYear) :
    (ofDay n).IsValid := by
  obtain ⟨cycle, c, century, group, year, day, h, hn, hdate⟩ := exists_ofDay_eq n
  have hlength := day_le_monthLength h.day_le (h.isLeap cycle)
  rw [hdate] at hmin hmax ⊢
  obtain ⟨hmonth, -⟩ := month_bounds h.day_le
  refine ⟨hmin, hmax, ?_, ?_, Nat.succ_pos _, hlength⟩
  · unfold inYear
    dsimp only
    split <;> omega
  · unfold inYear
    dsimp only
    split <;> omega

end Matchmaker.Date
