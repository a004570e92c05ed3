import PlcTags.Stamp.Instant

/-!
# The calendar

The date of a day is a date that there is, and leads back to the day
(`isDate_dateOfDay`).  Days are counted in eras of 400 years that begin in March, so that
the one day that not all years have is the last of its year: what has to be shown is that
the day lies within the year that is worked out for it (`within_year`), and the day of a
year within the month (`within_month`).
-/

namespace PlcTags.Instant

/-! ## Years of an era -/

/-- The first day of a year of an era, counted from the first day of the era. -/
def startOfYear (year : Int) : Int :=
  365 * year + year / 4 - year / 100

/-- The year of an era in which a day of the era lies. -/
def yearOfDay (day : Int) : Int :=
  (day - day / 1460 + day / 36524 - day / 146096) / 365

/-- The days of a century that is not the last of its era but for one day. -/
theorem within_century {century day leaps year : Int} (hcentury : 0 ≤ century ∧ century ≤ 3)
    (hday : 0 ≤ day ∧ day < 36524) (hleaps : leaps = (24 * century + day) / 1460)
    (hyear : year = (day - leaps) / 365) :
    0 ≤ year ∧ year ≤ 99 ∧ 365 * year + year / 4 ≤ day ∧
      (year ≤ 98 → day < 365 * (year + 1) + (year + 1) / 4) := by
  have hlow : year / 4 ≤ leaps := by omega
  have hhigh : year ≤ 98 → leaps ≤ (year + 1) / 4 := by omega
  refine ⟨by omega, by omega, by omega, fun hlast => ?_⟩
  have := hhigh hlast
  omega

/-- A day of an era lies within its year.  The last year of the era is one day longer than
the first day of the next year says, as the next year is the first of another era. -/
theorem within_year {day : Int} (hday : 0 ≤ day ∧ day < 146097) :
    0 ≤ yearOfDay day ∧ yearOfDay day < 400 ∧ startOfYear (yearOfDay day) ≤ day ∧
      day < startOfYear (yearOfDay day + 1) + (if yearOfDay day = 399 then 1 else 0) := by
  by_cases hlast : day = 146096
  · subst hlast
    decide
  have hmod : 0 ≤ day % 36524 ∧ day % 36524 < 36524 := by omega
  have hcentury : 0 ≤ day / 36524 ∧ day / 36524 ≤ 3 := by omega
  obtain ⟨hfirst, hlast, hlow, hhigh⟩ := within_century hcentury hmod rfl rfl
  generalize (day % 36524 - (24 * (day / 36524) + day % 36524) / 1460) / 365 = year at *
  have hyear : yearOfDay day = 100 * (day / 36524) + year := by
    unfold yearOfDay
    omega
  rw [hyear]
  unfold startOfYear
  refine ⟨by omega, by omega, by omega, ?_⟩
  by_cases hnext : year ≤ 98
  · have := hhigh hnext
    omega
  · omega

/-! ## Months of a year -/

/-- The days of a month, of which there are twelve from March on; the last one has all its
days only if the year is as long as a year can be. -/
def lengthOfMonth (month : Int) (isLong : Bool) : Int :=
  if month = 1 ∨ month = 3 ∨ month = 6 ∨ month = 8 then 30
  else if month = 11 then (if isLong then 29 else 28)
  else 31

/-- A day of a year lies within its month. -/
theorem within_month {day month : Int} (hday : 0 ≤ day ∧ day ≤ 365)
    (hmonth : month = (5 * day + 2) / 153) :
    0 ≤ month ∧ month ≤ 11 ∧ 1 ≤ day - (153 * month + 2) / 5 + 1 ∧
      day - (153 * month + 2) / 5 + 1 ≤ lengthOfMonth month (day = 365) := by
  have hcases : month = 0 ∨ month = 1 ∨ month = 2 ∨ month = 3 ∨ month = 4 ∨ month = 5 ∨
      month = 6 ∨ month = 7 ∨ month = 8 ∨ month = 9 ∨ month = 10 ∨ month = 11 := by omega
  unfold lengthOfMonth
  rcases hcases with rfl | rfl | rfl | rfl | rfl | rfl | rfl | rfl | rfl | rfl | rfl | rfl <;>
    simp only [decide_eq_true_eq] <;> omega

/-! ## Dates -/

/-- A year has a long last month if the next one, in which it lies, is a leap year. -/
theorem isLeap_of_day {year day era : Int} (hlast : day = startOfYear year + 365)
    (hday : day < startOfYear (year + 1) + (if year = 399 then 1 else 0)) :
    daysInMonth (year + era * 400 + 1) 2 = 29 := by
  unfold startOfYear at hlast hday
  have hleap : (year + era * 400 + 1) % 4 = 0 ∧
      ((year + era * 400 + 1) % 100 ≠ 0 ∨ (year + era * 400 + 1) % 400 = 0) := by
    split at hday <;> omega
  rw [daysInMonth, if_pos rfl, if_pos hleap]

/-- The number of a month that is counted from March on. -/
def numberOfMonth (month : Int) : Int :=
  if month < 10 then month + 3 else month - 9

/-- January and February belong to the year after the one that began in March before
them. -/
theorem lengthOfMonth_le {month year : Int} {isLong : Bool} (hmonth : 0 ≤ month ∧ month ≤ 11)
    (hlong : isLong = true → daysInMonth (year + 1) 2 = 29) :
    lengthOfMonth month isLong ≤ daysInMonth
      (year + (if numberOfMonth month ≤ 2 then 1 else 0)) (numberOfMonth month).toNat := by
  have hcases : month = 0 ∨ month = 1 ∨ month = 2 ∨ month = 3 ∨ month = 4 ∨ month = 5 ∨
      month = 6 ∨ month = 7 ∨ month = 8 ∨ month = 9 ∨ month = 10 ∨ month = 11 := by omega
  rcases hcases with rfl | rfl | rfl | rfl | rfl | rfl | rfl | rfl | rfl | rfl | rfl | rfl
  case inr.inr.inr.inr.inr.inr.inr.inr.inr.inr.inr =>
    -- The last month is the only one whose length depends on the year.
    show lengthOfMonth 11 isLong ≤ daysInMonth (year + 1) 2
    cases isLong with
    | true =>
        rw [hlong rfl]
        decide
    | false =>
        show (28 : Int) ≤ daysInMonth (year + 1) 2
        rw [daysInMonth, if_pos rfl]
        split <;> decide
  all_goals exact Int.le_refl _

/-- A date that there is. -/
def IsDate (year : Int) (month day : Nat) : Prop :=
  1 ≤ month ∧ month ≤ 12 ∧ 1 ≤ day ∧ day ≤ daysInMonth year month

/-- Counting the days up to a date takes apart what was put together. -/
theorem dayOfDate_parts {year era month day : Int} (hyear : 0 ≤ year ∧ year < 400)
    (hmonth : 0 ≤ month ∧ month ≤ 11) (hday : 1 ≤ day - (153 * month + 2) / 5 + 1) :
    dayOfDate (year + era * 400 + (if numberOfMonth month ≤ 2 then 1 else 0))
        (numberOfMonth month).toNat (day - (153 * month + 2) / 5 + 1).toNat =
      era * 146097 + startOfYear year + day - 719468 := by
  have hnumber : 1 ≤ numberOfMonth month ∧ (numberOfMonth month + 9) % 12 = month := by
    unfold numberOfMonth
    split <;> omega
  have hnatural : ((numberOfMonth month).toNat : Int) = numberOfMonth month :=
    Int.toNat_of_nonneg (by omega)
  have hcount : ((day - (153 * month + 2) / 5 + 1).toNat : Int) =
      day - (153 * month + 2) / 5 + 1 := Int.toNat_of_nonneg (by omega)
  have hMarch : (if (numberOfMonth month).toNat ≤ 2 then
      year + era * 400 + (if numberOfMonth month ≤ 2 then 1 else 0) - 1 else
      year + era * 400 + (if numberOfMonth month ≤ 2 then 1 else 0)) = year + era * 400 := by
    split <;> split <;> omega
  unfold dayOfDate startOfYear
  dsimp only
  rw [hMarch, hcount, hnatural, hnumber.2]
  omega

/-- **The date of a day** is one that there is, and it is the date of no other day. -/
theorem isDate_dateOfDay {day year : Int} {month dayOfMonth : Nat}
    (h : dateOfDay day = (year, month, dayOfMonth)) :
    IsDate year month dayOfMonth ∧ dayOfDate year month dayOfMonth = day := by
  obtain ⟨era, hera⟩ : ∃ era, era = (day + 719468) / 146097 := ⟨_, rfl⟩
  obtain ⟨dayOfEra, hdayOfEra⟩ : ∃ dayOfEra, dayOfEra = (day + 719468) % 146097 := ⟨_, rfl⟩
  obtain ⟨dayOfYear, hdayOfYear⟩ :
    ∃ dayOfYear, dayOfYear = dayOfEra - startOfYear (yearOfDay dayOfEra) := ⟨_, rfl⟩
  obtain ⟨monthOfYear, hmonthOfYear⟩ :
    ∃ monthOfYear, monthOfYear = (5 * dayOfYear + 2) / 153 := ⟨_, rfl⟩
  have hdate : dateOfDay day =
      (yearOfDay dayOfEra + era * 400 + (if numberOfMonth monthOfYear ≤ 2 then 1 else 0),
        (numberOfMonth monthOfYear).toNat,
        (dayOfYear - (153 * monthOfYear + 2) / 5 + 1).toNat) := by
    subst hera hdayOfEra hdayOfYear hmonthOfYear
    rfl
  have hinEra : 0 ≤ dayOfEra ∧ dayOfEra < 146097 := by omega
  obtain ⟨hfirst, hlast, hlow, hhigh⟩ := within_year hinEra
  -- No year has more than 366 days, the last one of an era not either.
  have hlength : startOfYear (yearOfDay dayOfEra + 1) +
      (if yearOfDay dayOfEra = 399 then 1 else 0) ≤ startOfYear (yearOfDay dayOfEra) + 366 := by
    unfold startOfYear
    split <;> omega
  have hinYear : 0 ≤ dayOfYear ∧ dayOfYear ≤ 365 := by omega
  obtain ⟨hmonth, hmonth', hone, hmost⟩ := within_month hinYear hmonthOfYear
  -- The year has its day 365 only if it is a leap year.
  have hlong : decide (dayOfYear = 365) = true →
      daysInMonth (yearOfDay dayOfEra + era * 400 + 1) 2 = 29 := by
    intro hlong
    have hlong := of_decide_eq_true hlong
    exact isLeap_of_day (by omega) hhigh
  have hfits := Int.le_trans hmost (lengthOfMonth_le ⟨hmonth, hmonth'⟩ hlong)
  have hnumber : 1 ≤ numberOfMonth monthOfYear ∧ numberOfMonth monthOfYear ≤ 12 := by
    unfold numberOfMonth
    split <;> omega
  rw [hdate] at h
  obtain ⟨rfl, hrest⟩ := Prod.mk.inj h
  obtain ⟨rfl, rfl⟩ := Prod.mk.inj hrest
  refine ⟨⟨by omega, by omega, by omega, by omega⟩, ?_⟩
  rw [dayOfDate_parts ⟨hfirst, hlast⟩ ⟨hmonth, hmonth'⟩ hone]
  omega

end PlcTags.Instant
