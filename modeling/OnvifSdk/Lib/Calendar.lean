import Mathlib

namespace OnvifSdk.Lib.Calendar

def Leap (y : ℤ) : Prop := y % 4 = 0 ∧ (y % 100 ≠ 0 ∨ y % 400 = 0)

instance (y : ℤ) : Decidable (Leap y) := inferInstanceAs (Decidable (_ ∧ _))

def monthLength (y m : ℤ) : ℤ :=
  if m = 2 then if Leap y then 29 else 28
  else if m = 4 ∨ m = 6 ∨ m = 9 ∨ m = 11 then 30
  else 31

structure Date where
  year : ℤ
  month : ℤ
  day : ℤ
  deriving DecidableEq

structure Date.Valid (d : Date) : Prop where
  month : 1 ≤ d.month ∧ d.month ≤ 12
  day : 1 ≤ d.day ∧ d.day ≤ monthLength d.year d.month

-- Years and months are counted from March, so that the leap day is the last day of a year.
def yearDays (y : ℤ) : ℤ := 365 * y + y / 4 - y / 100 + y / 400

def monthDays (k : ℤ) : ℤ := (153 * k + 2) / 5

def epochDay : ℤ := 719468

/-- The days from 1970-01-01 to a date; month and day may be out of range, as for `timegm`. -/
def dayNumber (y m d : ℤ) : ℤ :=
  let k := 12 * y + m - 3
  yearDays (k / 12) + monthDays (k % 12) + d - 1 - epochDay

def yearOf (z : ℤ) : ℤ :=
  let y := 400 * z / 146097
  if yearDays (y + 1) ≤ z then y + 1 else y

def monthOf (d : ℤ) : ℤ := (5 * d + 2) / 153

def dateOf (z : ℤ) : Date :=
  let y := yearOf (z + epochDay)
  let k := monthOf (z + epochDay - yearDays y)
  { year := if k < 10 then y else y + 1
    month := if k < 10 then k + 3 else k - 9
    day := z + epochDay - yearDays y - monthDays k + 1 }

theorem yearDays_step (y : ℤ) :
    yearDays (y + 1) = yearDays y + if Leap (y + 1) then 366 else 365 := by
  simp only [yearDays, Leap]
  split_ifs <;> omega

theorem yearDays_bounds (y : ℤ) :
    146097 * y - 600 ≤ 400 * yearDays y ∧ 400 * yearDays y < 146097 * y + 400 := by
  simp only [yearDays]
  omega

theorem yearDays_lt {y y' : ℤ} (h : y < y') : yearDays y + 365 ≤ yearDays y' := by
  simp only [yearDays]
  omega

theorem yearOf_days (z : ℤ) : yearDays (yearOf z) ≤ z ∧ z < yearDays (yearOf z + 1) := by
  obtain ⟨y, hy⟩ : ∃ y, y = 400 * z / 146097 := ⟨_, rfl⟩
  have h₀ := yearDays_bounds y
  have h₂ := yearDays_bounds (y + 1 + 1)
  simp only [yearOf, ← hy]
  split_ifs with h
  · exact ⟨h, by omega⟩
  · exact ⟨by omega, by omega⟩

theorem yearOf_eq {y z : ℤ} (h : yearDays y ≤ z) (h' : z < yearDays (y + 1)) : yearOf z = y := by
  obtain ⟨hl, hu⟩ := yearOf_days z
  rcases lt_trichotomy (yearOf z) y with hlt | heq | hgt
  · rcases (show yearOf z + 1 < y ∨ yearOf z + 1 = y by omega) with hy | rfl
    · have := yearDays_lt hy
      omega
    · omega
  · exact heq
  · rcases (show y + 1 < yearOf z ∨ y + 1 = yearOf z by omega) with hy | hy
    · have := yearDays_lt hy
      omega
    · rw [hy] at h'
      omega

theorem monthOf_days (d : ℤ) : monthDays (monthOf d) ≤ d ∧ d < monthDays (monthOf d + 1) := by
  simp only [monthOf, monthDays]
  omega

theorem monthOf_eq {k d : ℤ} (h : monthDays k ≤ d) (h' : d < monthDays (k + 1)) : monthOf d = k := by
  simp only [monthOf, monthDays] at *
  omega

theorem monthDays_succ {y m : ℤ} (hm : 1 ≤ m ∧ m ≤ 12) (h₂ : m ≠ 2) :
    monthDays ((m + 9) % 12 + 1) = monthDays ((m + 9) % 12) + monthLength y m := by
  obtain ⟨hl, hu⟩ := hm
  simp only [monthLength, if_neg h₂]
  interval_cases m <;> first | exact absurd rfl h₂ | decide

theorem dayNumber_add (y m d n : ℤ) : dayNumber y m (d + n) = dayNumber y m d + n := by
  simp only [dayNumber]
  omega

theorem dayNumber_dateOf (z : ℤ) :
    dayNumber (dateOf z).year (dateOf z).month (dateOf z).day = z := by
  obtain ⟨hl, hu⟩ := yearOf_days (z + epochDay)
  obtain ⟨y, hy⟩ : ∃ y, y = yearOf (z + epochDay) := ⟨_, rfl⟩
  obtain ⟨k, hk⟩ : ∃ k, k = monthOf (z + epochDay - yearDays y) := ⟨_, rfl⟩
  rw [← hy] at hl hu
  have hstep := yearDays_step y
  have hk₁₂ : 0 ≤ k ∧ k < 12 := by
    simp only [monthOf] at hk
    split_ifs at hstep <;> omega
  simp only [dayNumber, dateOf, ← hy, ← hk]
  split_ifs with h10
  · have h₁ : (12 * y + (k + 3) - 3) / 12 = y := by omega
    have h₂ : (12 * y + (k + 3) - 3) % 12 = k := by omega
    rw [h₁, h₂]
    omega
  · have h₁ : (12 * (y + 1) + (k - 9) - 3) / 12 = y := by omega
    have h₂ : (12 * (y + 1) + (k - 9) - 3) % 12 = k := by omega
    rw [h₁, h₂]
    omega

theorem dateOf_valid (z : ℤ) : (dateOf z).Valid := by
  obtain ⟨hl, hu⟩ := yearOf_days (z + epochDay)
  obtain ⟨y, hy⟩ : ∃ y, y = yearOf (z + epochDay) := ⟨_, rfl⟩
  obtain ⟨d, hd⟩ : ∃ d, d = z + epochDay - yearDays y := ⟨_, rfl⟩
  obtain ⟨k, hk⟩ : ∃ k, k = monthOf d := ⟨_, rfl⟩
  rw [← hy] at hl hu
  obtain ⟨hkl, hku⟩ := monthOf_days d
  rw [← hk] at hkl hku
  have hstep := yearDays_step y
  have hk₁₂ : 0 ≤ k ∧ k < 12 := by
    simp only [monthOf] at hk
    split_ifs at hstep <;> omega
  have hm : 1 ≤ (dateOf z).month ∧ (dateOf z).month ≤ 12 := by
    simp only [dateOf, ← hy, ← hd, ← hk]
    split_ifs <;> omega
  refine ⟨hm, ?_⟩
  by_cases hlast : k = 11
  · subst hlast
    have h11 : monthDays 11 = 337 := by decide
    simp only [dateOf, ← hy, ← hd, ← hk, show ¬ (11 : ℤ) < 10 by omega, ↓reduceIte, monthLength,
      show (11 : ℤ) - 9 = 2 by omega]
    split_ifs at hstep ⊢ <;> omega
  · have h₂ : (dateOf z).month ≠ 2 := by
      simp only [dateOf, ← hy, ← hd, ← hk]
      split_ifs <;> omega
    have hlen := monthDays_succ (y := (dateOf z).year) hm h₂
    have hk' : ((dateOf z).month + 9) % 12 = k := by
      simp only [dateOf, ← hy, ← hd, ← hk]
      split_ifs <;> omega
    have hday : (dateOf z).day = d - monthDays k + 1 := by simp only [dateOf, ← hy, ← hd, ← hk]
    rw [hk'] at hlen
    omega

theorem dateOf_dayNumber {d : Date} (h : d.Valid) : dateOf (dayNumber d.year d.month d.day) = d := by
  obtain ⟨⟨hm, hm'⟩, hd, hd'⟩ := h
  obtain ⟨y, hy⟩ : ∃ y, y = (12 * d.year + d.month - 3) / 12 := ⟨_, rfl⟩
  obtain ⟨k, hk⟩ : ∃ k, k = (12 * d.year + d.month - 3) % 12 := ⟨_, rfl⟩
  have hkm : (d.month + 9) % 12 = k := by omega
  have hz : dayNumber d.year d.month d.day + epochDay = yearDays y + monthDays k + d.day - 1 := by
    simp only [dayNumber, ← hy, ← hk]
    omega
  have hk0 : 0 ≤ monthDays k := by simp only [monthDays]; omega
  have hstep := yearDays_step y
  have hfits : monthDays k + d.day - 1 < monthDays (k + 1) ∧
      yearDays y + monthDays k + d.day - 1 < yearDays (y + 1) := by
    by_cases h₂ : d.month = 2
    · have hk11 : k = 11 := by omega
      have hy1 : y + 1 = d.year := by omega
      subst hk11
      have h11 : monthDays 11 = 337 := by decide
      have h12 : monthDays (11 + 1) = 367 := by decide
      simp only [monthLength, h₂, ↓reduceIte, ← hy1] at hd'
      split_ifs at hstep hd' <;> omega
    · have hlen := monthDays_succ (y := d.year) ⟨hm, hm'⟩ h₂
      rw [hkm] at hlen
      have hk10 : k ≤ 10 := by omega
      have hk11 : monthDays (k + 1) ≤ 337 := by simp only [monthDays]; omega
      split_ifs at hstep <;> omega
  have hyear : yearOf (dayNumber d.year d.month d.day + epochDay) = y := by
    apply yearOf_eq <;> omega
  have hmonth : monthOf (dayNumber d.year d.month d.day + epochDay - yearDays y) = k := by
    apply monthOf_eq <;> omega
  have hday : (if k < 10 then y else y + 1) = d.year ∧ (if k < 10 then k + 3 else k - 9) = d.month := by
    split_ifs <;> omega
  have hlast : dayNumber d.year d.month d.day + epochDay - yearDays y - monthDays k + 1 = d.day := by omega
  simp only [dateOf, hyear, hmonth, hday.1, hday.2, hlast]

theorem dateOf_year {z : ℤ} (h : 0 ≤ z) : 1970 ≤ (dateOf z).year := by
  obtain ⟨hl, hu⟩ := yearOf_days (z + epochDay)
  obtain ⟨y, hy⟩ : ∃ y, y = yearOf (z + epochDay) := ⟨_, rfl⟩
  have h1969 : yearDays 1969 = 719162 := by decide
  have he : epochDay = 719468 := rfl
  rw [← hy] at hl hu
  simp only [dateOf, ← hy]
  rcases lt_trichotomy y 1969 with hlt | rfl | hgt
  · rcases (show y + 1 < 1969 ∨ y + 1 = 1969 by omega) with hy' | hy'
    · have := yearDays_lt hy'
      omega
    · rw [hy'] at hu
      omega
  · have hk : ¬ monthOf (z + epochDay - yearDays 1969) < 10 := by
      simp only [monthOf]
      omega
    simp only [hk, ↓reduceIte]
    omega
  · split_ifs <;> omega

theorem dayNumber_nonneg {y m d : ℤ} (hy : 1970 ≤ y) (hm : 1 ≤ m) (hd : 1 ≤ d) : 0 ≤ dayNumber y m d := by
  obtain ⟨k, hk⟩ : ∃ k, k = 12 * y + m - 3 := ⟨_, rfl⟩
  have h1969 : yearDays 1969 = 719162 := by decide
  have he : epochDay = 719468 := rfl
  have hmonth : 0 ≤ monthDays (k % 12) := by
    simp only [monthDays]
    omega
  simp only [dayNumber, ← hk]
  rcases (show k / 12 = 1969 ∨ 1969 < k / 12 by omega) with hq | hq
  · have hlate : 306 ≤ monthDays (k % 12) := by
      have : 10 ≤ k % 12 := by omega
      simp only [monthDays]
      omega
    rw [hq]
    omega
  · have := yearDays_lt hq
    omega

end OnvifSdk.Lib.Calendar
