import Ticketing.Lib.Calendar
import Ticketing.Lib.TextOrder
import Ticketing.TicketingApi.Service

namespace Ticketing.TicketingApi

open Python Calendar TextOrder

/-! ### Datetimes -/

structure Time where
  hour : ℕ
  minute : ℕ
  second : ℕ
  microsecond : ℕ
  valid : hour < 24 ∧ minute < 60 ∧ second < 60 ∧ microsecond < 1000000
  deriving DecidableEq

def microsecondsPerDay : ℕ := 86400000000

def Time.toMicroseconds (t : Time) : ℕ := ((t.hour * 60 + t.minute) * 60 + t.second) * 1000000 + t.microsecond

theorem Time.toMicroseconds_lt (t : Time) : t.toMicroseconds < microsecondsPerDay := by
  have := t.valid
  unfold Time.toMicroseconds microsecondsPerDay
  omega

theorem Time.toMicroseconds_lt_iff {a b : Time} : a.toMicroseconds < b.toMicroseconds ↔
    a.hour < b.hour ∨ a.hour = b.hour ∧ (a.minute < b.minute ∨ a.minute = b.minute ∧
      (a.second < b.second ∨ a.second = b.second ∧ a.microsecond < b.microsecond)) := by
  have := a.valid
  have := b.valid
  unfold Time.toMicroseconds
  omega

def Time.ofMicroseconds (n : ℕ) : Time where
  hour := n / 3600000000 % 24
  minute := n / 60000000 % 60
  second := n / 1000000 % 60
  microsecond := n % 1000000
  valid := ⟨Nat.mod_lt _ (by decide), Nat.mod_lt _ (by decide), Nat.mod_lt _ (by decide), Nat.mod_lt _ (by decide)⟩

theorem Time.toMicroseconds_ofMicroseconds {n : ℕ} (h : n < microsecondsPerDay) :
    (Time.ofMicroseconds n).toMicroseconds = n := by
  simp only [Time.ofMicroseconds, Time.toMicroseconds]
  unfold microsecondsPerDay at h
  omega

def maxYear : ℕ := 9999

def maxOrdinal : ℕ := 3652059

/-- A `datetime`: `utcoffset` is in microseconds, and `none` where the value is naive. -/
structure DateTime where
  date : Date
  time : Time
  utcoffset : Option ℤ
  year_le : date.year ≤ maxYear
  utcoffset_lt : ∀ offset ∈ utcoffset, |offset| < microsecondsPerDay
  deriving DecidableEq

namespace DateTime

/-- Microseconds from the first of January of the year 1, on the clock of the value. -/
def toMicroseconds (value : DateTime) : ℤ :=
  ((value.date.toOrdinal - 1) * microsecondsPerDay + value.time.toMicroseconds : ℤ)

theorem toMicroseconds_lt_iff {a b : DateTime} : a.toMicroseconds < b.toMicroseconds ↔
    a.date.toOrdinal < b.date.toOrdinal ∨
      a.date.toOrdinal = b.date.toOrdinal ∧ a.time.toMicroseconds < b.time.toMicroseconds := by
  have := a.time.toMicroseconds_lt
  have := b.time.toMicroseconds_lt
  simp only [toMicroseconds, microsecondsPerDay] at *
  omega

/-- The point in time of the value in UTC; a naive value means UTC. -/
def instant (value : DateTime) : ℤ := value.toMicroseconds - value.utcoffset.getD 0

/-- The years 1 to 9999. -/
def Representable (instant : ℤ) : Prop := 0 ≤ instant ∧ instant < maxOrdinal * microsecondsPerDay

instance (instant : ℤ) : Decidable (Representable instant) := inferInstanceAs (Decidable (_ ∧ _))

theorem fromOrdinal_year_le {n : ℕ} (h : 1 ≤ n) (hn : n ≤ maxOrdinal) : (Date.fromOrdinal n).year ≤ maxYear := by
  have hlt := (Date.fromOrdinal n).daysBeforeYear_lt
  rw [Date.toOrdinal_fromOrdinal h] at hlt
  by_contra hcontra
  have hmono := daysBeforeYear_mono (show 1 ≤ maxYear by decide) (not_le.1 hcontra)
  exact absurd (hlt.trans_le hn) (not_lt.2 (le_trans (by decide) hmono))

/-- The value in UTC at a point in time. -/
def utc (instant : ℤ) (h : Representable instant) : DateTime where
  date := Date.fromOrdinal ((instant / microsecondsPerDay).toNat + 1)
  time := Time.ofMicroseconds (instant % microsecondsPerDay).toNat
  utcoffset := some 0
  year_le := by
    refine fromOrdinal_year_le (Nat.le_add_left _ _) ?_
    obtain ⟨hlow, hhigh⟩ := h
    unfold maxOrdinal microsecondsPerDay at hhigh
    unfold maxOrdinal microsecondsPerDay
    omega
  utcoffset_lt := by
    rintro _ ⟨⟩
    decide

theorem toMicroseconds_utc {instant : ℤ} (h : Representable instant) : (utc instant h).toMicroseconds = instant := by
  have hnonneg : 0 ≤ instant / microsecondsPerDay := Int.ediv_nonneg h.1 (by decide)
  have hmod : 0 ≤ instant % microsecondsPerDay := Int.emod_nonneg _ (by decide)
  have hlt : instant % microsecondsPerDay < microsecondsPerDay := Int.emod_lt_of_pos _ (by decide)
  have hday : (utc instant h).date.toOrdinal = (instant / microsecondsPerDay).toNat + 1 :=
    Date.toOrdinal_fromOrdinal (Nat.le_add_left _ _)
  have htime : (utc instant h).time.toMicroseconds = (instant % microsecondsPerDay).toNat :=
    Time.toMicroseconds_ofMicroseconds (by omega)
  rw [toMicroseconds, hday, htime]
  push_cast
  rw [Int.toNat_of_nonneg hnonneg, Int.toNat_of_nonneg hmod, add_sub_cancel_right]
  exact Int.ediv_mul_add_emod instant microsecondsPerDay

/-- `value.astimezone(timezone.utc)` of a value that is not naive. -/
def astimezone (value : DateTime) : Except Error DateTime :=
  if h : Representable value.instant then .ok (utc value.instant h)
  else .error ⟨.overflowError, "date value out of range"⟩

/-! ### Texts -/

def isoformatTime (t : Time) : List Char :=
  padded 2 t.hour ++ ':' :: (padded 2 t.minute ++ ':' :: (padded 2 t.second ++
    if t.microsecond = 0 then [] else '.' :: padded 6 t.microsecond))

/-- `+HH:MM`, with seconds and microseconds where they are not zero. -/
def formatUtcoffset (offset : ℤ) : List Char :=
  let n := offset.natAbs
  (if offset < 0 then '-' else '+') :: (padded 2 (n / 3600000000) ++ ':' :: (padded 2 (n / 60000000 % 60) ++
    if n % 60000000 = 0 then []
    else ':' :: (padded 2 (n / 1000000 % 60) ++ if n % 1000000 = 0 then [] else '.' :: padded 6 (n % 1000000))))

def isoformat (value : DateTime) : String :=
  String.ofList (padded 4 value.date.year ++ '-' :: (padded 2 value.date.month ++ '-' :: (padded 2 value.date.day ++
    'T' :: (isoformatTime value.time ++ (value.utcoffset.map formatUtcoffset).getD []))))

theorem fraction_lt_iff {n m : ℕ} (hn : n < 1000000) (hm : m < 1000000) {cs : List Char} :
    (if n = 0 then [] else '.' :: padded 6 n) ++ '+' :: cs < (if m = 0 then [] else '.' :: padded 6 m) ++ '+' :: cs ↔
      n < m := by
  have hpoint : '+' < '.' := by decide
  by_cases hn0 : n = 0
  · by_cases hm0 : m = 0
    · simp [hn0, hm0]
    · simp only [hn0, hm0, if_true, if_false, List.nil_append, List.cons_append, List.cons_lt_cons_iff, hpoint, true_or,
        true_iff]
      exact Nat.pos_of_ne_zero hm0
  · by_cases hm0 : m = 0
    · simp [hn0, hm0, List.cons_lt_cons_iff]
    · simp only [hn0, hm0, if_false, List.cons_append, List.cons_lt_cons_self]
      rw [padded_append_lt_iff hn hm]
      simp

/-- In UTC, texts are ordered as the times they stand for. -/
theorem isoformat_lt_iff {a b : DateTime} (ha : a.utcoffset = some 0) (hb : b.utcoffset = some 0) :
    a.isoformat < b.isoformat ↔ a.toMicroseconds < b.toMicroseconds := by
  obtain ⟨-, -, hmonth, -, hday⟩ := a.date.valid
  obtain ⟨-, -, hmonth', -, hday'⟩ := b.date.valid
  have hday31 := hday.trans (daysInMonth_le _ hmonth)
  have hday31' := hday'.trans (daysInMonth_le _ hmonth')
  obtain ⟨hhour, hminute, hsecond, hmicrosecond⟩ := a.time.valid
  obtain ⟨hhour', hminute', hsecond', hmicrosecond'⟩ := b.time.valid
  have hyear := a.year_le
  have hyear' := b.year_le
  unfold maxYear at hyear hyear'
  have hoffset : formatUtcoffset 0 = ['+', '0', '0', ':', '0', '0'] := by decide
  rw [String.lt_iff_toList_lt, isoformat, isoformat, String.toList_ofList, String.toList_ofList, ha, hb, Option.map_some,
    Option.getD_some, hoffset]
  simp only [isoformatTime, List.append_assoc, List.cons_append]
  rw [padded_append_lt_iff (by omega) (by omega), List.cons_lt_cons_self, padded_append_lt_iff (by omega) (by omega),
    List.cons_lt_cons_self, padded_append_lt_iff (by omega) (by omega), List.cons_lt_cons_self,
    padded_append_lt_iff (by omega) (by omega), List.cons_lt_cons_self, padded_append_lt_iff (by omega) (by omega),
    List.cons_lt_cons_self, padded_append_lt_iff (by omega) (by omega), fraction_lt_iff hmicrosecond hmicrosecond']
  rw [toMicroseconds_lt_iff, Date.toOrdinal_lt_iff, Date.toOrdinal_inj, Time.toMicroseconds_lt_iff]
  simp only [and_or_left, or_assoc, and_assoc]

theorem isoformat_le_iff {a b : DateTime} (ha : a.utcoffset = some 0) (hb : b.utcoffset = some 0) :
    a.isoformat ≤ b.isoformat ↔ a.toMicroseconds ≤ b.toMicroseconds := by
  rw [← not_lt, isoformat_lt_iff hb ha, not_lt]

theorem instant_utc {value : DateTime} (h : value.utcoffset = some 0) : value.instant = value.toMicroseconds := by
  rw [instant, h, Option.getD_some, sub_zero]

/-- `value.replace(tzinfo=timezone.utc)` -/
def replaceUtc (value : DateTime) : DateTime :=
  { value with utcoffset := some 0, utcoffset_lt := by rintro _ ⟨⟩; decide }

end DateTime

/-! ### Normalized timestamps -/

def normalizeTimestamp (value : DateTime) : Except Error String := do
  let value := if value.utcoffset = none then value.replaceUtc else value
  return (← value.astimezone).isoformat

theorem normalizeTimestamp_eq (value : DateTime) : normalizeTimestamp value =
    if h : DateTime.Representable value.instant then .ok (DateTime.utc value.instant h).isoformat
    else .error ⟨.overflowError, "date value out of range"⟩ := by
  have hinstant : (if value.utcoffset = none then value.replaceUtc else value).instant = value.instant := by
    split
    next hnaive =>
      rw [DateTime.instant, DateTime.instant, hnaive]
      rfl
    next => rfl
  simp only [normalizeTimestamp, DateTime.astimezone, hinstant]
  split <;> rfl

theorem normalizeTimestamp_ok {value : DateTime} {text : String} (h : normalizeTimestamp value = .ok text) :
    ∃ u : DateTime, u.utcoffset = some 0 ∧ u.toMicroseconds = value.instant ∧ text = u.isoformat := by
  rw [normalizeTimestamp_eq] at h
  split at h
  next hrep =>
    cases h
    exact ⟨DateTime.utc value.instant hrep, rfl, DateTime.toMicroseconds_utc hrep, rfl⟩
  next => cases h

theorem exists_normalizeTimestamp {value : DateTime} (h : DateTime.Representable value.instant) :
    ∃ text, normalizeTimestamp value = .ok text := by
  rw [normalizeTimestamp_eq, dif_pos h]
  exact ⟨_, rfl⟩

section Order

variable {a b now : DateTime} {x y : String}

theorem text_le_iff (hx : normalizeTimestamp a = .ok x) (hy : normalizeTimestamp b = .ok y) :
    x ≤ y ↔ a.instant ≤ b.instant := by
  obtain ⟨u, hu, hua, rfl⟩ := normalizeTimestamp_ok hx
  obtain ⟨v, hv, hvb, rfl⟩ := normalizeTimestamp_ok hy
  rw [DateTime.isoformat_le_iff hu hv, hua, hvb]

theorem text_eq_iff (hx : normalizeTimestamp a = .ok x) (hy : normalizeTimestamp b = .ok y) :
    x = y ↔ a.instant = b.instant := by
  rw [le_antisymm_iff, text_le_iff hx hy, text_le_iff hy hx, le_antisymm_iff]

/-- A text against the time of the clock, which is read in UTC. -/
theorem text_le_now_iff (hx : normalizeTimestamp a = .ok x) (hnow : now.utcoffset = some 0) :
    x ≤ now.isoformat ↔ a.instant ≤ now.instant := by
  obtain ⟨u, hu, hua, rfl⟩ := normalizeTimestamp_ok hx
  rw [DateTime.isoformat_le_iff hu hnow, hua, DateTime.instant_utc hnow]

end Order

end Ticketing.TicketingApi
