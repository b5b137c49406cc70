import Recall.Instant.Calendar
import Mathlib.Tactic.Common

/-!
# Days and dates

**A date is counted back to the day that it was made from** (`toDays_ofDays`). Both ways go
through years that begin in March. Within such a year the months follow one rule, so a day of
the year and the date determine each other (`toDays_ofYearDay`); it is left to show that the
year that is found for a day of a cycle of 400 years contains it (`yearDay_bounds`).
-/

namespace Recall.Calendar.Date

/-- The date of a day of a year that begins in March. -/
def ofYearDay (year dayOfYear : Int) : Date :=
  let shiftedMonth := (5 * dayOfYear + 2) / 153
  let day := dayOfYear - (153 * shiftedMonth + 2) / 5 + 1
  let month := if shiftedMonth < 10 then shiftedMonth + 3 else shiftedMonth - 9
  ⟨if month ≤ 2 then year + 1 else year, month.toNat, day.toNat⟩

theorem toDays_ofYearDay (year : Int) {dayOfYear : Int} (hlow : 0 ≤ dayOfYear)
    (hhigh : dayOfYear < 366) :
    (ofYearDay year dayOfYear).toDays =
      year / 400 * 146097 +
        (year % 400 * 365 + year % 400 / 4 - year % 400 / 100 + dayOfYear) - 719468 := by
  unfold ofYearDay
  generalize hmonth : (5 * dayOfYear + 2) / 153 = month
  have hday : (((dayOfYear - (153 * month + 2) / 5 + 1).toNat : Nat) : Int) =
      dayOfYear - (153 * month + 2) / 5 + 1 := Int.toNat_of_nonneg (by omega)
  by_cases hmarch : month < 10
  · -- From March on, the date shows the year that began in March.
    have hlate : ¬month + 3 ≤ 2 := by omega
    have hlate' : ¬(month + 3).toNat ≤ 2 := by omega
    have hback : (((month + 3).toNat : Int) + 9) % 12 = month := by omega
    simp only [if_pos hmarch, if_neg hlate, toDays, if_neg hlate', hback, hday]
    omega
  · have hearly : month - 9 ≤ 2 := by omega
    have hearly' : (month - 9).toNat ≤ 2 := by omega
    have hback : (((month - 9).toNat : Int) + 9) % 12 = month := by omega
    simp only [if_neg hmarch, if_pos hearly, toDays, if_pos hearly', hback, hday,
      Int.add_sub_cancel]
    omega

/-- A day of 400 years lies in one of these years, and in this year within 366 days. -/
theorem yearDay_bounds {day : Int} (hlow : 0 ≤ day) (hhigh : day < 146097) :
    let year := (day - day / 1460 + day / 36524 - day / 146096) / 365
    (0 ≤ year ∧ year < 400) ∧ 0 ≤ day - (365 * year + year / 4 - year / 100) ∧
      day - (365 * year + year / 4 - year / 100) < 366 := by
  intro year
  refine ⟨by omega, ?_⟩
  -- Within a century every fourth year has a leap day, without exception.
  have hcentury : day / 36524 = 0 ∨ day / 36524 = 1 ∨ day / 36524 = 2 ∨ day / 36524 = 3 ∨
      day / 36524 = 4 := by omega
  rcases hcentury with h | h | h | h | h
  · have : year / 100 = 0 := by omega
    omega
  · have : year / 100 = 1 := by omega
    omega
  · have : year / 100 = 2 := by omega
    omega
  · have : year / 100 = 3 := by omega
    omega
  · omega

/-- **A date is counted back to its day.** -/
theorem toDays_ofDays (days : Int) : (ofDays days).toDays = days := by
  have hlow := Int.emod_nonneg (days + 719468) (b := 146097) (by decide)
  have hhigh := Int.emod_lt_of_pos (days + 719468) (b := 146097) (by decide)
  have hsplit := Int.emod_add_mul_ediv (days + 719468) 146097
  obtain ⟨hyear, hday, hday'⟩ := yearDay_bounds hlow hhigh
  refine (toDays_ofYearDay _ hday hday').trans ?_
  rw [Int.add_mul_ediv_right _ _ (by decide), Int.ediv_eq_zero_of_lt hyear.1 hyear.2,
    Int.add_mul_emod_self_right, Int.emod_eq_of_lt hyear.1 hyear.2]
  omega

end Recall.Calendar.Date
