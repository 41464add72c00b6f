import Mathlib

/-!
# The Gregorian calendar

Dates of the calendar without a beginning or an end, each with its successor. The number of a date
counts the days from 1970-01-01; it goes up by one with the successor and orders the dates, so a
number has one date.
-/
namespace Gregorian

def IsLeap (y : ℤ) : Prop := 4 ∣ y ∧ (¬ 100 ∣ y ∨ 400 ∣ y)

instance (y : ℤ) : Decidable (IsLeap y) := inferInstanceAs (Decidable (_ ∧ _))

def monthLength (y m : ℤ) : ℤ :=
  if m = 2 then if IsLeap y then 29 else 28
  else if m = 4 ∨ m = 6 ∨ m = 9 ∨ m = 11 then 30
  else 31

/-- A day of a month of a year. -/
@[ext]
structure Date where
  year : ℤ
  month : ℤ
  day : ℤ
  month_pos : 1 ≤ month
  month_le : month ≤ 12
  day_pos : 1 ≤ day
  day_le : day ≤ monthLength year month

def epoch : Date := ⟨1970, 1, 1, by decide, by decide, by decide, by decide⟩

theorem monthLength_pos (y m : ℤ) : 1 ≤ monthLength y m := by
  rw [monthLength]
  split_ifs <;> decide

theorem monthLength_le (y m : ℤ) : monthLength y m ≤ 31 := by
  rw [monthLength]
  split_ifs <;> decide

/-- The day after. -/
def Date.next (d : Date) : Date :=
  if hday : d.day < monthLength d.year d.month then
    ⟨d.year, d.month, d.day + 1, d.month_pos, d.month_le, by linarith [d.day_pos], by omega⟩
  else if hmonth : d.month < 12 then
    ⟨d.year, d.month + 1, 1, by linarith [d.month_pos], by omega, le_refl 1, monthLength_pos _ _⟩
  else ⟨d.year + 1, 1, 1, by decide, by decide, le_refl 1, monthLength_pos _ _⟩

/-- The second date is `n` days after the first, or `-n` days before it. -/
def DaysAfter (n : ℤ) (a b : Date) : Prop :=
  (∃ k : ℕ, n = k ∧ Date.next^[k] a = b) ∨ ∃ k : ℕ, n = -k ∧ Date.next^[k] b = a

/-- Earlier in the calendar. -/
def Date.Before (a b : Date) : Prop :=
  a.year < b.year ∨ a.year = b.year ∧ (a.month < b.month ∨ a.month = b.month ∧ a.day < b.day)

/-! ## Numbers of days -/

/-- The days before a year, counted from the year 1. -/
def daysBeforeYear (y : ℤ) : ℤ := 365 * (y - 1) + (y - 1) / 4 - (y - 1) / 100 + (y - 1) / 400

/-- The days before a month of a year. -/
def daysBeforeMonth (y m : ℤ) : ℤ :=
  (367 * m - 362) / 12 - if m ≤ 2 then 0 else if IsLeap y then 1 else 2

def dayNumber (y m d : ℤ) : ℤ := daysBeforeYear y + daysBeforeMonth y m + d - 719163

def Date.number (d : Date) : ℤ := dayNumber d.year d.month d.day

@[simp] theorem number_epoch : epoch.number = 0 := by decide

theorem daysBeforeYear_succ (y : ℤ) :
    daysBeforeYear (y + 1) = daysBeforeYear y + if IsLeap y then 366 else 365 := by
  simp only [daysBeforeYear, IsLeap]
  split_ifs <;> omega

theorem daysBeforeYear_le {y y' : ℤ} (h : y ≤ y') : daysBeforeYear y ≤ daysBeforeYear y' := by
  simp only [daysBeforeYear]
  omega

/-- The months of a year follow each other. -/
theorem daysBeforeMonth_succ {y m : ℤ} (hpos : 1 ≤ m) (hle : m < 12) :
    daysBeforeMonth y (m + 1) = daysBeforeMonth y m + monthLength y m := by
  by_cases hleap : IsLeap y <;> interval_cases m <;> simp [daysBeforeMonth, monthLength, hleap]

theorem daysBeforeMonth_one (y : ℤ) : daysBeforeMonth y 1 = 0 := by
  simp [daysBeforeMonth]

/-- December ends the year. -/
theorem daysBeforeMonth_twelve (y : ℤ) :
    daysBeforeMonth y 12 + monthLength y 12 = if IsLeap y then 366 else 365 := by
  by_cases hleap : IsLeap y <;> simp [daysBeforeMonth, monthLength, hleap]

theorem daysBeforeMonth_mono {y m m' : ℤ} (h : m ≤ m') :
    daysBeforeMonth y m ≤ daysBeforeMonth y m' := by
  simp only [daysBeforeMonth]
  split_ifs <;> omega

theorem daysBeforeMonth_le {y m m' : ℤ} (hpos : 1 ≤ m) (hle : m' ≤ 12) (h : m < m') :
    daysBeforeMonth y m + monthLength y m ≤ daysBeforeMonth y m' := by
  rw [← daysBeforeMonth_succ hpos (by omega)]
  exact daysBeforeMonth_mono (by omega)

/-! ## The number of a date -/

section Number
variable {a b : Date}

/-- **The next day** has the next number. -/
theorem number_next (a : Date) : a.next.number = a.number + 1 := by
  have hday := a.day_le
  have hmonth := a.month_le
  simp only [Date.next, Date.number, dayNumber]
  split_ifs with hin hyear
  · simp only []
    omega
  · have hsucc := daysBeforeMonth_succ (y := a.year) a.month_pos hyear
    simp only []
    omega
  · have hlast : a.month = 12 := by omega
    have hsucc := daysBeforeYear_succ a.year
    have hend := daysBeforeMonth_twelve a.year
    rw [hlast] at hday hin ⊢
    simp only [daysBeforeMonth_one]
    omega

theorem number_iterate_next (k : ℕ) (a : Date) : (Date.next^[k] a).number = a.number + k := by
  induction k generalizing a with
  | zero => simp
  | succ k ih =>
      rw [Function.iterate_succ_apply, ih, number_next]
      push_cast
      ring

/-- The day of the year. -/
theorem number_bounds (a : Date) : daysBeforeYear a.year - 719162 ≤ a.number ∧
    a.number < daysBeforeYear (a.year + 1) - 719162 := by
  have hpos := a.month_pos
  have hle := a.month_le
  have hdayPos := a.day_pos
  have hdayLe := a.day_le
  have hsucc := daysBeforeYear_succ a.year
  have hend := daysBeforeMonth_twelve a.year
  have hlast := monthLength_pos a.year 12
  have hfirst := monthLength_pos a.year 1
  have hone := daysBeforeMonth_one a.year
  simp only [Date.number, dayNumber]
  constructor
  · by_cases hm : a.month = 1
    · rw [hm]
      omega
    · have hmonths := daysBeforeMonth_le (y := a.year) (le_refl 1) hle (by omega : 1 < a.month)
      omega
  · by_cases hm : a.month = 12
    · rw [hm] at hdayLe ⊢
      omega
    · have hmonths := daysBeforeMonth_le (y := a.year) hpos (le_refl 12) (by omega : a.month < 12)
      omega

theorem number_lt_of_before (h : a.Before b) : a.number < b.number := by
  rcases h with hyear | ⟨hyear, hmonth | ⟨hmonth, hday⟩⟩
  · have hle := daysBeforeYear_le (by omega : a.year + 1 ≤ b.year)
    have ha := (number_bounds a).2
    have hb := (number_bounds b).1
    omega
  · have hle := daysBeforeMonth_le (y := a.year) a.month_pos b.month_le hmonth
    have hdayLe := a.day_le
    have hdayPos := b.day_pos
    simp only [Date.number, dayNumber, ← hyear]
    omega
  · simp only [Date.number, dayNumber, ← hyear, ← hmonth]
    omega

theorem before_or_eq_or_before (a b : Date) : a.Before b ∨ a = b ∨ b.Before a := by
  simp only [Date.Before, Date.ext_iff]
  omega

/-- **The numbers order the dates.** -/
theorem before_iff : a.Before b ↔ a.number < b.number := by
  refine ⟨number_lt_of_before, ?_⟩
  intro hlt
  rcases before_or_eq_or_before a b with h | rfl | h
  · exact h
  · exact absurd hlt (lt_irrefl _)
  · exact absurd (number_lt_of_before h) (by omega)

theorem number_injective (h : a.number = b.number) : a = b := by
  rcases before_or_eq_or_before a b with hlt | heq | hlt
  · have := number_lt_of_before hlt
    omega
  · exact heq
  · have := number_lt_of_before hlt
    omega

/-- **The number** of a date is how many days it is after the first one. -/
theorem daysAfter_epoch_iff {n : ℤ} : DaysAfter n epoch a ↔ a.number = n := by
  constructor
  · intro h
    rcases h with ⟨k, rfl, rfl⟩ | ⟨k, rfl, hback⟩
    · rw [number_iterate_next, number_epoch, zero_add]
    · have hnumber := number_iterate_next k a
      rw [hback, number_epoch] at hnumber
      omega
  · intro h
    by_cases hn : 0 ≤ n
    · refine .inl ⟨n.toNat, by omega, number_injective ?_⟩
      rw [number_iterate_next, number_epoch, h]
      omega
    · refine .inr ⟨(-n).toNat, by omega, number_injective ?_⟩
      rw [number_iterate_next, number_epoch, h]
      omega

end Number

end Gregorian
