import Label309.Certificate.Build
import Label309.Lib.Decimal
import Label309.Lib.Gregorian

/-!
# The date of a block

The conversion of a day gives the date that is so many days after 1970-01-01. Until the end of the
year 9999 a time is written in 24 characters, later times are later texts, and the fields of the
text are the time.
-/
namespace Label309
open Gregorian Decimal

/-! ## Years of an era -/

section Era
variable {doe yoe g f r : ℤ} (hpos : 0 ≤ doe) (hlt : doe < 146097)
  (hyoe : yoe = (doe - doe / 1460 + doe / 36524 - doe / 146096) / 365)
include hpos hlt hyoe

theorem yoe_bounds : 0 ≤ yoe ∧ yoe < 400 := by omega

section Cycle
variable (hg : 0 ≤ g) (hg' : g < 4) (hf : 0 ≤ f) (hf' : f < 25) (hr : 0 ≤ r) (hr' : r < 4)
  (hy : yoe = 100 * g + 4 * f + r)
include hg hg' hf hf' hr hr' hy

/-- The year has begun: its centuries, its cycles of four years and the years left over. -/
theorem yoe_begun : 36524 * g + 1461 * f + 365 * r ≤ doe := by
  by_contra hneg
  have hcentury : doe / 36524 ≤ g := by omega
  have hlast : doe < 146096 := by
    clear hyoe hcentury
    omega
  have hera : doe / 146096 = 0 := Int.ediv_eq_zero_of_lt hpos hlast
  interval_cases g <;> omega

/-- The year has not ended, or it is the last day of a leap year. -/
theorem yoe_not_ended : doe < 36524 * g + 1461 * f + 365 * r + 365 ∨
    doe = 36524 * g + 1461 * f + 365 * r + 365 ∧ r = 3 ∧ (f ≠ 24 ∨ g = 3) := by
  by_contra hneg
  have hcentury : g ≤ doe / 36524 := by omega
  interval_cases g <;> interval_cases r <;> omega

end Cycle

/-- **The year of a day** of the era, counted from March, and the day of that year. -/
theorem year_of_era : 0 ≤ doe - (365 * yoe + yoe / 4 - yoe / 100) ∧
    (doe - (365 * yoe + yoe / 4 - yoe / 100) < 365 ∨
      doe - (365 * yoe + yoe / 4 - yoe / 100) = 365 ∧ IsLeap (yoe + 1)) := by
  have hbounds := yoe_bounds hpos hlt hyoe
  have hbegun := @yoe_begun doe yoe (yoe / 100) (yoe % 100 / 4) (yoe % 4) hpos hlt hyoe
    (by omega) (by omega) (by omega) (by omega) (by omega) (by omega) (by omega)
  have hended := @yoe_not_ended doe yoe (yoe / 100) (yoe % 100 / 4) (yoe % 4) hpos hlt hyoe
    (by omega) (by omega) (by omega) (by omega) (by omega) (by omega) (by omega)
  have hdays : 365 * yoe + yoe / 4 - yoe / 100 =
      36524 * (yoe / 100) + 1461 * (yoe % 100 / 4) + 365 * (yoe % 4) := by omega
  rw [hdays, IsLeap]
  omega

end Era

/-! ## Months of a year -/

/-- The days before a month, counted from March. -/
def daysBeforeMarchMonth (mp : ℤ) : ℤ := (153 * mp + 2) / 5

section March
variable {y doy mp : ℤ} (hmin : 0 ≤ mp)
include hmin

theorem monthLength_march (hmax : mp < 10) :
    monthLength y (mp + 3) = daysBeforeMarchMonth (mp + 1) - daysBeforeMarchMonth mp := by
  interval_cases mp <;> simp [monthLength, daysBeforeMarchMonth]

theorem daysBeforeMonth_march (hmax : mp < 10) : daysBeforeMonth y (mp + 3) =
    daysBeforeMarchMonth mp + 59 + if IsLeap y then 1 else 0 := by
  by_cases hleap : IsLeap y <;> interval_cases mp <;>
    simp [daysBeforeMonth, daysBeforeMarchMonth, hleap]

end March

theorem daysBeforeYear_march (y : ℤ) :
    daysBeforeYear (y + 1) = 365 * y + y / 4 - y / 100 + y / 400 := by
  simp [daysBeforeYear]

/-- The day of a year that begins in March, with its month and its day. -/
theorem date_of_march {y doy mp : ℤ} (hpos : 0 ≤ doy)
    (hlt : doy < 365 ∨ doy = 365 ∧ IsLeap (y + 1)) (hmp : mp = (5 * doy + 2) / 153) :
    ∃ date : Date, date.month = (if mp < 10 then mp + 3 else mp - 9) ∧
      date.year = (if date.month ≤ 2 then y + 1 else y) ∧
      date.day = doy - daysBeforeMarchMonth mp + 1 ∧
      date.number = 365 * y + y / 4 - y / 100 + y / 400 + doy - 719468 := by
  have hmin : 0 ≤ mp := by omega
  have hmonth : daysBeforeMarchMonth mp ≤ doy ∧ doy < daysBeforeMarchMonth (mp + 1) := by
    simp only [daysBeforeMarchMonth]
    omega
  have hyear := daysBeforeYear_march y
  by_cases hmax : mp < 10
  · -- From March to December the year is the one that began in March.
    have hlength := @monthLength_march y mp hmin hmax
    have hbefore := @daysBeforeMonth_march y mp hmin hmax
    have hsucc := daysBeforeYear_succ y
    refine ⟨⟨y, mp + 3, doy - daysBeforeMarchMonth mp + 1, by omega, by omega, by omega, by omega⟩,
      (if_pos hmax).symm, (if_neg (by dsimp only; omega)).symm, rfl, ?_⟩
    simp only [Date.number, dayNumber, hbefore]
    split_ifs at hsucc ⊢ <;> omega
  · by_cases hlast : mp = 10
    · subst hlast
      have hstart : daysBeforeMarchMonth 10 = 306 := by decide
      have hend : daysBeforeMarchMonth (10 + 1) = 337 := by decide
      have hlength : monthLength (y + 1) 1 = 31 := by simp [monthLength]
      refine ⟨⟨y + 1, 1, doy - daysBeforeMarchMonth 10 + 1, by omega, by omega, by omega, by omega⟩,
        by simp, by simp, rfl, ?_⟩
      simp only [Date.number, dayNumber, daysBeforeMonth_one]
      omega
    · -- February has the last days, with one more in a leap year.
      have hfebruary : mp = 11 := by
        rcases hlt with hlt | hlt <;> omega
      subst hfebruary
      have hstart : daysBeforeMarchMonth 11 = 337 := by decide
      have hlength : doy - 336 ≤ monthLength (y + 1) 2 := by
        by_cases hleap : IsLeap (y + 1)
        · simp only [monthLength, hleap, and_true, if_true] at hlt ⊢
          omega
        · simp only [monthLength, hleap, and_false, or_false, if_true, if_false] at hlt ⊢
          omega
      have hbefore : daysBeforeMonth (y + 1) 2 = 31 := by simp [daysBeforeMonth]
      refine ⟨⟨y + 1, 2, doy - daysBeforeMarchMonth 11 + 1, by omega, by omega, by omega, by omega⟩,
        by simp, by simp, rfl, ?_⟩
      simp only [Date.number, dayNumber, hbefore]
      omega

theorem era_eq (z : ℤ) : (if 0 ≤ z then z else z - 146096).tdiv 146097 = z / 146097 := by
  split_ifs with hz
  · exact Int.tdiv_eq_ediv_of_nonneg hz
  · have hsign : Int.sign 146097 = 1 := rfl
    rw [Int.tdiv_eq_ediv, hsign]
    split_ifs <;> omega

/-- **The conversion** of a number of days is the date of that number. -/
theorem exists_date (n : ℤ) : ∃ date : Date,
    civilFromDays n = (date.year, date.month, date.day) ∧ date.number = n := by
  have hpos : 0 ≤ (n + 719468) % 146097 := Int.emod_nonneg _ (by decide)
  have hlt : (n + 719468) % 146097 < 146097 := Int.emod_lt_of_pos _ (by decide)
  obtain ⟨doe, hdoe⟩ : ∃ doe, doe = (n + 719468) % 146097 := ⟨_, rfl⟩
  obtain ⟨yoe, hyoe⟩ : ∃ yoe, yoe = (doe - doe / 1460 + doe / 36524 - doe / 146096) / 365 :=
    ⟨_, rfl⟩
  rw [← hdoe] at hpos hlt
  have hbounds := yoe_bounds hpos hlt hyoe
  have hyear := year_of_era hpos hlt hyoe
  obtain ⟨doy, hdoy⟩ : ∃ doy, doy = doe - (365 * yoe + yoe / 4 - yoe / 100) := ⟨_, rfl⟩
  obtain ⟨y, hy⟩ : ∃ y, y = yoe + (n + 719468) / 146097 * 400 := ⟨_, rfl⟩
  have hleap : IsLeap (yoe + 1) → IsLeap (y + 1) := by
    simp only [IsLeap]
    omega
  rw [← hdoy] at hyear
  obtain ⟨date, hmonth, hdateYear, hday, hnumber⟩ :=
    @date_of_march y doy ((5 * doy + 2) / 153) hyear.1
      (hyear.2.imp_right fun h => ⟨h.1, hleap h.2⟩) rfl
  have hfinal : 365 * y + y / 4 - y / 100 + y / 400 + doy - 719468 = n := by
    have hfour : y / 4 = yoe / 4 + 100 * ((n + 719468) / 146097) := by omega
    have hhundred : y / 100 = yoe / 100 + 4 * ((n + 719468) / 146097) := by omega
    have hera : y / 400 = (n + 719468) / 146097 := by omega
    rw [hfour, hhundred, hera]
    omega
  refine ⟨date, ?_, hnumber.trans hfinal⟩
  have hrest : n + 719468 - (n + 719468) / 146097 * 146097 = doe := by omega
  -- Every quotient is one of numbers that are not negative.
  have hsum : 0 ≤ doe - doe / 1460 + doe / 36524 - doe / 146096 := by omega
  have hmp : 0 ≤ 5 * doy + 2 := by omega
  have hfive : 0 ≤ 153 * ((5 * doy + 2) / 153) + 2 := by omega
  rw [civilFromDays]
  simp only [era_eq, hrest, Int.tdiv_eq_ediv_of_nonneg hpos, Int.tdiv_eq_ediv_of_nonneg hsum,
    ← hyoe, Int.tdiv_eq_ediv_of_nonneg hbounds.1, ← hdoy, Int.tdiv_eq_ediv_of_nonneg hmp,
    Int.tdiv_eq_ediv_of_nonneg hfive, ← hy]
  rw [hdateYear, hday, hmonth, daysBeforeMarchMonth]

/-! ## The text of a time -/

theorem toList_zeroPadded {width : ℕ} {n : ℤ} (hwidth : width ≠ 0) (hpos : 0 ≤ n)
    (hlt : n < 10 ^ width) : (zeroPadded width n).toList = field width n.toNat := by
  have habs : n.natAbs = n.toNat := by omega
  have hfits : n.toNat < 10 ^ width := by
    zify
    rwa [Int.toNat_of_nonneg hpos]
  rw [zeroPadded, if_neg (by omega), String.toList_ofList, habs, Nat.toString_eq_repr,
    Nat.toList_repr, field_eq hwidth hfits]
  rfl

/-- The characters of a time at the start of a second. -/
def isoChars (year month day hour minute second : ℕ) : List Char :=
  field 4 year ++ '-' :: (field 2 month ++ '-' :: (field 2 day ++ 'T' :: (field 2 hour ++ ':' ::
    (field 2 minute ++ ':' :: (field 2 second ++ ['.', '0', '0', '0', 'Z'])))))

/-- The seconds from 1970 on that the fields of a text denote. -/
def readIso8601 (text : String) : ℤ :=
  let number (start length : ℕ) : ℤ :=
    Nat.ofDigitChars 10 ((text.toList.drop start).take length) 0
  dayNumber (number 0 4) (number 5 2) (number 8 2) * 86400 + number 11 2 * 3600 +
    number 14 2 * 60 + number 17 2

section Fields
variable {year month day hour minute second : ℕ}

theorem length_isoChars : (isoChars year month day hour minute second).length = 24 := by
  simp [isoChars]

theorem readIso8601_isoChars (hyear : year < 10000) (hmonth : month < 100) (hday : day < 100)
    (hhour : hour < 100) (hminute : minute < 100) (hsecond : second < 100) :
    readIso8601 (String.ofList (isoChars year month day hour minute second)) =
      dayNumber year month day * 86400 + hour * 3600 + minute * 60 + second := by
  have htwo {n : ℕ} (hn : n < 100) : Nat.ofDigitChars 10 (field 2 n) 0 = n := ofDigitChars_field hn
  have hfour : Nat.ofDigitChars 10 (field 4 year) 0 = year := ofDigitChars_field hyear
  simp only [readIso8601, String.toList_ofList, isoChars]
  simp [List.drop_append, *]

end Fields

/-- The text of a time until the end of the year 9999. -/
theorem toList_formatIso8601 {s : ℤ} (hpos : 0 ≤ s) (hlt : s < maxBlockTimeExclusive) :
    ∃ date : Date, date.number = s / 86400 ∧ 0 ≤ date.year ∧ date.year < 10000 ∧
      (formatIso8601 s 0).toList = isoChars date.year.toNat date.month.toNat date.day.toNat
        (s % 86400 / 3600).toNat (s % 86400 % 3600 / 60).toNat (s % 86400 % 60).toNat := by
  obtain ⟨date, hcivil, hnumber⟩ := exists_date (s / 86400)
  have hbounds := number_bounds date
  rw [maxBlockTimeExclusive] at hlt
  have hlow : 0 ≤ date.year := by
    by_contra hneg
    have hle := daysBeforeYear_le (by omega : date.year + 1 ≤ 0)
    have hzero : daysBeforeYear 0 = -366 := by decide
    omega
  have hhigh : date.year < 10000 := by
    by_contra hneg
    have hle := daysBeforeYear_le (by omega : 10000 ≤ date.year)
    have hmax : daysBeforeYear 10000 = 3652059 := by decide
    omega
  have hmonth := date.month_le
  have hmonthPos := date.month_pos
  have hdayPos := date.day_pos
  have hday := date.day_le.trans (monthLength_le _ _)
  refine ⟨date, hnumber, hlow, hhigh, ?_⟩
  have hmillis : (zeroPadded 3 ((0 : ℕ) : ℤ)).toList = ['0', '0', '0'] := by decide
  simp only [formatIso8601, hcivil, String.toList_append, hmillis]
  rw [toList_zeroPadded (by decide) hlow (by omega),
    toList_zeroPadded (by decide) (by omega) (by omega),
    toList_zeroPadded (by decide) (by omega) (by omega),
    toList_zeroPadded (by decide) (by omega) (by omega),
    toList_zeroPadded (by decide) (by omega) (by omega),
    toList_zeroPadded (by decide) (by omega) (by omega)]
  simp [isoChars]

/-- A later time is a later text. -/
theorem isoChars_lt {y m d h i s y' m' d' h' i' s' : ℕ} (hy : y' < 10000) (hm : m' < 100)
    (hd : d' < 100) (hh : h' < 100) (hi : i' < 100) (hs : s' < 100)
    (hlex : y < y' ∨ y = y' ∧ (m < m' ∨ m = m' ∧ (d < d' ∨ d = d' ∧ (h < h' ∨ h = h' ∧
      (i < i' ∨ i = i' ∧ s < s'))))) : isoChars y m d h i s < isoChars y' m' d' h' i' s' := by
  rw [isoChars, isoChars]
  refine field_lt hy (hlex.imp_right (And.imp_right fun hlex => List.cons_lt_cons_self.mpr ?_))
  refine field_lt hm (hlex.imp_right (And.imp_right fun hlex => List.cons_lt_cons_self.mpr ?_))
  refine field_lt hd (hlex.imp_right (And.imp_right fun hlex => List.cons_lt_cons_self.mpr ?_))
  refine field_lt hh (hlex.imp_right (And.imp_right fun hlex => List.cons_lt_cons_self.mpr ?_))
  refine field_lt hi (hlex.imp_right (And.imp_right fun hlex => List.cons_lt_cons_self.mpr ?_))
  exact field_lt hs (.inl hlex)

theorem formatIso8601_lt {s s' : ℤ} (hpos : 0 ≤ s) (hlt : s < s') (hmax : s' < maxBlockTimeExclusive) :
    formatIso8601 s 0 < formatIso8601 s' 0 := by
  obtain ⟨date, hnumber, hlow, hhigh, htext⟩ := toList_formatIso8601 hpos (hlt.trans hmax)
  obtain ⟨date', hnumber', hlow', hhigh', htext'⟩ := toList_formatIso8601 (hpos.trans hlt.le) hmax
  have hmonth := date.month_pos
  have hmonth' := date'.month_pos
  have hmonthLe' := date'.month_le
  have hday := date.day_pos
  have hday' := date'.day_pos
  have hdayLe' := date'.day_le.trans (monthLength_le _ _)
  rw [String.lt_iff_toList_lt, htext, htext']
  refine isoChars_lt (by omega) (by omega) (by omega) (by omega) (by omega) (by omega) ?_
  by_cases hdays : s / 86400 < s' / 86400
  · have hbefore : date.Before date' := before_iff.mpr (by omega)
    clear hnumber hnumber' hdays hlt hmax hpos htext htext'
    rcases hbefore with hyear | ⟨hyear, hmonths | ⟨hmonths, hday''⟩⟩
    · exact .inl (by omega)
    · exact .inr ⟨by omega, .inl (by omega)⟩
    · exact .inr ⟨by omega, .inr ⟨by omega, .inl (by omega)⟩⟩
  · have hsame : date = date' := number_injective (by omega)
    subst hsame
    refine .inr ⟨rfl, .inr ⟨rfl, .inr ⟨rfl, ?_⟩⟩⟩
    clear hnumber hnumber' htext htext' hlow hhigh hlow' hhigh'
    omega

/-- **The conversion is the calendar**: every number of days has one date, the one that is given,
and until the end of the year 9999 the texts of times are in the order of the times and denote
them. -/
theorem civilFromDays_calendar :
    (∀ d : ℤ, ∃ date : Date, civilFromDays d = (date.year, date.month, date.day) ∧
      DaysAfter d epoch date ∧ ∀ other, DaysAfter d epoch other → other = date) ∧
    (∀ s : ℤ, 0 ≤ s → s < maxBlockTimeExclusive →
      (formatIso8601 s 0).length = 24 ∧ readIso8601 (formatIso8601 s 0) = s) ∧
    ∀ s s' : ℤ, 0 ≤ s → s < s' → s' < maxBlockTimeExclusive →
      formatIso8601 s 0 < formatIso8601 s' 0 := by
  refine ⟨?_, ?_, fun s s' => formatIso8601_lt⟩
  · intro d
    obtain ⟨date, hcivil, hnumber⟩ := exists_date d
    refine ⟨date, hcivil, daysAfter_epoch_iff.mpr hnumber, ?_⟩
    intro other hother
    exact number_injective ((daysAfter_epoch_iff.mp hother).trans hnumber.symm)
  · intro s hpos hlt
    obtain ⟨date, hnumber, hlow, hhigh, htext⟩ := toList_formatIso8601 hpos hlt
    have hmonth := date.month_pos
    have hmonthLe := date.month_le
    have hday := date.day_pos
    have hdayLe := date.day_le.trans (monthLength_le _ _)
    have htext' := congrArg String.ofList htext
    rw [String.ofList_toList] at htext'
    constructor
    · rw [← String.length_toList, htext, length_isoChars]
    · rw [htext', readIso8601_isoChars (by omega) (by omega) (by omega) (by omega) (by omega)
        (by omega)]
      rw [Int.toNat_of_nonneg hlow, Int.toNat_of_nonneg (by omega), Int.toNat_of_nonneg (by omega),
        Int.toNat_of_nonneg (by omega), Int.toNat_of_nonneg (by omega),
        Int.toNat_of_nonneg (by omega)]
      rw [Date.number] at hnumber
      rw [hnumber]
      omega

/-- The end of a leap day. -/
theorem civilFromDays_calendar_leap_day :
    civilFromDays 11016 = (2000, 2, 29) ∧ formatIso8601 951868799 0 < formatIso8601 951868800 0 :=
  ⟨by decide, civilFromDays_calendar.2.2 951868799 951868800 (by decide) (by decide) (by decide)⟩

end Label309
