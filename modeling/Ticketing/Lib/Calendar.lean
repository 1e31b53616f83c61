import Mathlib.Algebra.Order.Group.Nat
import Mathlib.Data.Prod.Lex
import Mathlib.Tactic.IntervalCases
import Mathlib.Tactic.Ring

/-! The proleptic Gregorian calendar, with days counted from the first of January of the year 1. -/

namespace Calendar

def IsLeap (year : ℕ) : Prop := year % 4 = 0 ∧ (year % 100 ≠ 0 ∨ year % 400 = 0)

instance (year : ℕ) : Decidable (IsLeap year) := inferInstanceAs (Decidable (_ ∧ _))

def daysBeforeYear (year : ℕ) : ℕ := (year - 1) * 365 + (year - 1) / 4 - (year - 1) / 100 + (year - 1) / 400

def monthDays : List ℕ := [0, 31, 28, 31, 30, 31, 30, 31, 31, 30, 31, 30, 31]

def monthStarts : List ℕ := [0, 0, 31, 59, 90, 120, 151, 181, 212, 243, 273, 304, 334]

/-- The length of a month, in a leap year or not. -/
def daysInMonth (leap : Bool) (month : ℕ) : ℕ := if month = 2 ∧ leap then 29 else monthDays.getD month 0

def daysBeforeMonth (leap : Bool) (month : ℕ) : ℕ :=
  monthStarts.getD month 0 + if 2 < month ∧ leap then 1 else 0

structure Date where
  year : ℕ
  month : ℕ
  day : ℕ
  valid : 1 ≤ year ∧ 1 ≤ month ∧ month ≤ 12 ∧ 1 ≤ day ∧ day ≤ daysInMonth (IsLeap year) month
  deriving DecidableEq

namespace Date

def toOrdinal (d : Date) : ℕ := daysBeforeYear d.year + daysBeforeMonth (IsLeap d.year) d.month + d.day

/-- The month and the day of a day of the year, counted from 0. -/
def monthOf (leap : Bool) (n : ℕ) : ℕ × ℕ :=
  let month := (n + 50) / 32
  let preceding := daysBeforeMonth leap month
  if n < preceding then (month - 1, n - (preceding - daysInMonth leap (month - 1)) + 1)
  else (month, n - preceding + 1)

/-- The year of a day, with the day of the year, by the cycles of 400, 100 and 4 years. -/
def yearOf (n : ℕ) : ℕ × ℕ :=
  let n400 := n / 146097
  let n100 := n % 146097 / 36524
  let n4 := n % 146097 % 36524 / 1461
  let n1 := n % 146097 % 36524 % 1461 / 365
  let year := n400 * 400 + 1 + n100 * 100 + n4 * 4 + n1
  if n1 = 4 ∨ n100 = 4 then (year - 1, if IsLeap (year - 1) then 365 else 364)
  else (year, n % 146097 % 36524 % 1461 % 365)

end Date

theorem succ_div_of_dvd {n k : ℕ} (h : (n + 1) % k = 0) : (n + 1) / k = n / k + 1 := by
  rw [Nat.succ_div, if_pos (Nat.dvd_of_mod_eq_zero h)]

theorem succ_div_of_not_dvd {n k : ℕ} (h : (n + 1) % k ≠ 0) : (n + 1) / k = n / k := by
  rw [Nat.succ_div, if_neg fun hdvd => h (Nat.mod_eq_zero_of_dvd hdvd), Nat.add_zero]

theorem daysBeforeYear_succ {year : ℕ} (h : 1 ≤ year) :
    daysBeforeYear (year + 1) = daysBeforeYear year + if IsLeap year then 366 else 365 := by
  obtain ⟨n, rfl⟩ : ∃ n, year = n + 1 := ⟨year - 1, by omega⟩
  have hbound : n / 100 ≤ n / 4 := by omega
  simp only [daysBeforeYear, Nat.add_sub_cancel]
  by_cases h4 : (n + 1) % 4 = 0
  · by_cases h100 : (n + 1) % 100 = 0
    · by_cases h400 : (n + 1) % 400 = 0
      · rw [if_pos ⟨h4, .inr h400⟩, succ_div_of_dvd h4, succ_div_of_dvd h100, succ_div_of_dvd h400]
        omega
      · rw [if_neg fun hleap => hleap.2.elim (· h100) h400, succ_div_of_dvd h4, succ_div_of_dvd h100,
          succ_div_of_not_dvd h400]
        omega
    · have h400 : (n + 1) % 400 ≠ 0 := by omega
      rw [if_pos ⟨h4, .inl h100⟩, succ_div_of_dvd h4, succ_div_of_not_dvd h100, succ_div_of_not_dvd h400]
      omega
  · have h100 : (n + 1) % 100 ≠ 0 := by omega
    have h400 : (n + 1) % 400 ≠ 0 := by omega
    rw [if_neg fun hleap => h4 hleap.1, succ_div_of_not_dvd h4, succ_div_of_not_dvd h100, succ_div_of_not_dvd h400]
    omega

theorem daysBeforeYear_mono {year year' : ℕ} (h : 1 ≤ year) (hlt : year < year') :
    daysBeforeYear year + (if IsLeap year then 366 else 365) ≤ daysBeforeYear year' := by
  induction year', hlt using Nat.le_induction with
  | base => exact (daysBeforeYear_succ h).ge
  | succ year' hle ih =>
      rw [daysBeforeYear_succ (by omega)]
      exact ih.trans (Nat.le_add_right _ _)

theorem daysBeforeMonth_mono (leap : Bool) {month month' : ℕ} (h : 1 ≤ month) (hlt : month < month') (h' : month' ≤ 12) :
    daysBeforeMonth leap month + daysInMonth leap month ≤ daysBeforeMonth leap month' := by
  revert leap
  interval_cases month' <;> interval_cases month <;> decide

theorem daysBeforeMonth_year (leap : Bool) {month : ℕ} (h : 1 ≤ month) (h' : month ≤ 12) :
    daysBeforeMonth leap month + daysInMonth leap month ≤ if leap then 366 else 365 := by
  revert leap
  interval_cases month <;> decide

theorem daysInMonth_le (leap : Bool) {month : ℕ} (h : month ≤ 12) : daysInMonth leap month ≤ 31 := by
  revert leap
  interval_cases month <;> decide

/-- The days before the year that starts `c` cycles of four years and `d` years after a century. -/
theorem daysBeforeYear_cycles {a b c d : ℕ} (hb : b ≤ 3) (hc : c ≤ 24) (hd : d ≤ 3) :
    daysBeforeYear (a * 400 + 1 + b * 100 + c * 4 + d) = a * 146097 + b * 36524 + c * 1461 + d * 365 := by
  unfold daysBeforeYear
  have h4 : (a * 400 + 1 + b * 100 + c * 4 + d - 1) / 4 = a * 100 + b * 25 + c := by omega
  have h100 : (a * 400 + 1 + b * 100 + c * 4 + d - 1) / 100 = a * 4 + b := by omega
  have h400 : (a * 400 + 1 + b * 100 + c * 4 + d - 1) / 400 = a := by omega
  rw [h4, h100, h400]
  omega

theorem isLeap_cycles {a b c d : ℕ} (hb : b ≤ 3) (hc : c ≤ 24) (hd : d ≤ 3) :
    IsLeap (a * 400 + 1 + b * 100 + c * 4 + d) ↔ d = 3 ∧ (c ≠ 24 ∨ b = 3) := by
  unfold IsLeap
  omega

theorem yearOf_spec (n : ℕ) : 1 ≤ (Date.yearOf n).1 ∧
    (Date.yearOf n).2 < (if IsLeap (Date.yearOf n).1 then 366 else 365) ∧
    n = daysBeforeYear (Date.yearOf n).1 + (Date.yearOf n).2 := by
  obtain ⟨a, ha⟩ : ∃ a, a = n / 146097 := ⟨_, rfl⟩
  obtain ⟨b, hb⟩ : ∃ b, b = n % 146097 / 36524 := ⟨_, rfl⟩
  obtain ⟨c, hc⟩ : ∃ c, c = n % 146097 % 36524 / 1461 := ⟨_, rfl⟩
  obtain ⟨d, hd⟩ : ∃ d, d = n % 146097 % 36524 % 1461 / 365 := ⟨_, rfl⟩
  obtain ⟨e, he⟩ : ∃ e, e = n % 146097 % 36524 % 1461 % 365 := ⟨_, rfl⟩
  have hn : n = a * 146097 + b * 36524 + c * 1461 + d * 365 + e := by omega
  have hb' : b ≤ 4 := by omega
  have hc' : c ≤ 24 := by omega
  have hd' : d ≤ 4 := by omega
  have he' : e < 365 := by omega
  have hcentury : b = 4 → c = 0 ∧ d = 0 ∧ e = 0 := by omega
  have hcycle : d = 4 → e = 0 ∧ c ≠ 24 := by omega
  simp only [Date.yearOf, ← ha, ← hb, ← hc, ← hd, ← he]
  clear ha hb hc hd he
  by_cases h4 : d = 4 ∨ b = 4
  · simp only [if_pos h4]
    -- the last day of a cycle of 4 or of 400 years, a leap year both times
    obtain ⟨b', c', hb3, hyear, hlast, hleap⟩ : ∃ b' c', b' ≤ 3 ∧ b * 100 + c * 4 + d = b' * 100 + c' * 4 + 4 ∧
        b * 36524 + c * 1461 + d * 365 + e = b' * 36524 + c' * 1461 + 1460 ∧ c' ≤ 24 ∧ (c' ≠ 24 ∨ b' = 3) := by
      obtain rfl | rfl := h4
      · obtain ⟨rfl, hne⟩ := hcycle rfl
        refine ⟨b, c, ?_, by omega, by omega, hc', .inl hne⟩
        by_contra hcontra
        have := hcentury (by omega)
        omega
      · obtain ⟨rfl, rfl, rfl⟩ := hcentury rfl
        exact ⟨3, 24, le_rfl, by omega, by omega, le_rfl, .inr rfl⟩
    have hprev : a * 400 + 1 + b * 100 + c * 4 + d - 1 = a * 400 + 1 + b' * 100 + c' * 4 + 3 := by omega
    have hisLeap := (isLeap_cycles hb3 hleap.1 le_rfl (a := a)).2 ⟨rfl, hleap.2⟩
    rw [hprev, if_pos hisLeap, if_pos hisLeap, daysBeforeYear_cycles hb3 hleap.1 le_rfl]
    refine ⟨Nat.le_add_left _ _, Nat.lt_succ_self _, ?_⟩
    calc n = a * 146097 + (b * 36524 + c * 1461 + d * 365 + e) := by rw [hn]; ring
      _ = a * 146097 + b' * 36524 + c' * 1461 + 3 * 365 + 365 := by rw [hlast]; ring
  · simp only [if_neg h4]
    refine ⟨by omega, ?_, ?_⟩
    · split_ifs <;> omega
    · rw [daysBeforeYear_cycles (by omega) hc' (by omega)]
      exact hn

theorem daysBeforeMonth_guess (leap : Bool) (month : ℕ) (h : 1 ≤ month) (h' : month ≤ 12) :
    (2 ≤ month → daysBeforeMonth leap month = daysBeforeMonth leap (month - 1) + daysInMonth leap (month - 1) ∧
        daysBeforeMonth leap (month - 1) + 50 ≤ 32 * month) ∧
      (month = 1 → daysBeforeMonth leap month = 0) ∧
      (month ≤ 11 → 32 * month ≤ daysBeforeMonth leap month + daysInMonth leap month + 18) ∧
      (month = 12 → daysBeforeMonth leap month + daysInMonth leap month = if leap then 366 else 365) := by
  revert leap
  interval_cases month <;> decide

theorem monthOf_spec (leap : Bool) {n : ℕ} (h : n < if leap then 366 else 365) :
    1 ≤ (Date.monthOf leap n).1 ∧ (Date.monthOf leap n).1 ≤ 12 ∧ 1 ≤ (Date.monthOf leap n).2 ∧
      (Date.monthOf leap n).2 ≤ daysInMonth leap (Date.monthOf leap n).1 ∧
      n + 1 = daysBeforeMonth leap (Date.monthOf leap n).1 + (Date.monthOf leap n).2 := by
  obtain ⟨month, hmonth⟩ : ∃ month, month = (n + 50) / 32 := ⟨_, rfl⟩
  have hlt : n < 366 := h.trans_le (by split <;> omega)
  have hlow : 32 * month ≤ n + 50 := by omega
  have hhigh : n + 50 < 32 * month + 32 := by omega
  obtain ⟨hprev, hfirst, hmiddle, hlast⟩ := daysBeforeMonth_guess leap month (by omega) (by omega)
  simp only [Date.monthOf, ← hmonth]
  by_cases hn : n < daysBeforeMonth leap month
  · obtain ⟨hstart, hguess⟩ := hprev (by by_contra hone; have := hfirst (by omega); omega)
    rw [if_pos hn]
    refine ⟨?_, ?_, ?_, ?_, ?_⟩ <;> dsimp only
    · by_contra hone
      have := hfirst (by omega)
      omega
    all_goals omega
  · rw [if_neg hn]
    have hinside : n < daysBeforeMonth leap month + daysInMonth leap month := by
      by_cases hdecember : month = 12
      · rw [hlast hdecember]
        exact h
      · have := hmiddle (by omega)
        omega
    refine ⟨?_, ?_, ?_, ?_, ?_⟩ <;> dsimp only <;> omega

/-- The date of a day: `date.fromordinal`. -/
def Date.fromOrdinal (n : ℕ) : Date where
  year := (yearOf (n - 1)).1
  month := (monthOf (IsLeap (yearOf (n - 1)).1) (yearOf (n - 1)).2).1
  day := (monthOf (IsLeap (yearOf (n - 1)).1) (yearOf (n - 1)).2).2
  valid := by
    obtain ⟨hyear, hday, -⟩ := yearOf_spec (n - 1)
    obtain ⟨hmonth, hmonth', hfirst, hlast, -⟩ :=
      monthOf_spec (IsLeap (yearOf (n - 1)).1) (n := (yearOf (n - 1)).2) (by simpa only [decide_eq_true_eq] using hday)
    exact ⟨hyear, hmonth, hmonth', hfirst, hlast⟩

namespace Date

theorem toOrdinal_fromOrdinal {n : ℕ} (h : 1 ≤ n) : (fromOrdinal n).toOrdinal = n := by
  obtain ⟨-, hday, hn⟩ := yearOf_spec (n - 1)
  obtain ⟨-, -, -, -, hmonth⟩ :=
    monthOf_spec (IsLeap (yearOf (n - 1)).1) (n := (yearOf (n - 1)).2) (by simpa only [decide_eq_true_eq] using hday)
  calc (fromOrdinal n).toOrdinal = daysBeforeYear (yearOf (n - 1)).1 +
        daysBeforeMonth (IsLeap (yearOf (n - 1)).1) (monthOf (IsLeap (yearOf (n - 1)).1) (yearOf (n - 1)).2).1 +
        (monthOf (IsLeap (yearOf (n - 1)).1) (yearOf (n - 1)).2).2 := rfl
    _ = n := by omega

/-- The days of a year lie between those before it and those before the next. -/
theorem toOrdinal_le (d : Date) : d.toOrdinal ≤ daysBeforeYear d.year + if IsLeap d.year then 366 else 365 := by
  obtain ⟨-, hmonth, hmonth', -, hday⟩ := d.valid
  have := daysBeforeMonth_year (IsLeap d.year) hmonth hmonth'
  simp only [decide_eq_true_eq] at this
  unfold toOrdinal
  omega

theorem daysBeforeYear_lt (d : Date) : daysBeforeYear d.year < d.toOrdinal := by
  have := d.valid.2.2.2.1
  unfold toOrdinal
  omega

/-- Days are counted in the order of their year, month and day. -/
theorem toOrdinal_lt {d d' : Date} (h : d.year < d'.year ∨ d.year = d'.year ∧
    (d.month < d'.month ∨ d.month = d'.month ∧ d.day < d'.day)) : d.toOrdinal < d'.toOrdinal := by
  obtain hyear | ⟨hyear, hmonth | ⟨hmonth, hday⟩⟩ := h
  · calc d.toOrdinal ≤ daysBeforeYear d.year + if IsLeap d.year then 366 else 365 := d.toOrdinal_le
      _ ≤ daysBeforeYear d'.year := daysBeforeYear_mono d.valid.1 hyear
      _ < d'.toOrdinal := d'.daysBeforeYear_lt
  · have hstart := daysBeforeMonth_mono (IsLeap d.year) d.valid.2.1 hmonth d'.valid.2.2.1
    have hday := d.valid.2.2.2.2
    have hday' := d'.valid.2.2.2.1
    simp only [toOrdinal, ← hyear]
    omega
  · simp only [toOrdinal, ← hyear, ← hmonth]
    omega

theorem toOrdinal_lt_iff {d d' : Date} : d.toOrdinal < d'.toOrdinal ↔ d.year < d'.year ∨ d.year = d'.year ∧
    (d.month < d'.month ∨ d.month = d'.month ∧ d.day < d'.day) := by
  refine ⟨fun h => ?_, toOrdinal_lt⟩
  by_contra hcontra
  by_cases hsame : d'.year < d.year ∨ d'.year = d.year ∧ (d'.month < d.month ∨ d'.month = d.month ∧ d'.day < d.day)
  · exact absurd (toOrdinal_lt hsame) (by omega)
  · obtain ⟨hyear, hmonth, hday⟩ : d.year = d'.year ∧ d.month = d'.month ∧ d.day = d'.day := by omega
    simp only [toOrdinal, hyear, hmonth, hday] at h
    omega

theorem toOrdinal_inj {d d' : Date} :
    d.toOrdinal = d'.toOrdinal ↔ d.year = d'.year ∧ d.month = d'.month ∧ d.day = d'.day := by
  have h : d.toOrdinal < d'.toOrdinal ↔ _ := toOrdinal_lt_iff
  have h' : d'.toOrdinal < d.toOrdinal ↔ _ := toOrdinal_lt_iff
  omega

end Date

end Calendar
