import Mathlib.Data.Nat.Notation
import Mathlib.Tactic.NormNum

set_option autoImplicit false

/-! # The calendar

Day numbers and dates of the proleptic Gregorian calendar, the first of January of the year 1 being
day 1. `ofOrdinal` takes cycles of 400, 100, 4 and 1 years off a day number and looks the month up in
what is left. -/

namespace Calendar

structure Date where
  year : ℕ
  month : ℕ
  day : ℕ
deriving DecidableEq, Repr

def isLeap (year : ℕ) : Bool :=
  year % 4 = 0 && (year % 100 ≠ 0 || year % 400 = 0)

/-- The days of the years before this one. -/
def daysBeforeYear (year : ℕ) : ℕ :=
  let y := year - 1
  y * 365 + y / 4 - y / 100 + y / 400

def daysInMonth (leap : Bool) (month : ℕ) : ℕ :=
  if month = 2 ∧ leap = true then 29
  else [0, 31, 28, 31, 30, 31, 30, 31, 31, 30, 31, 30, 31].getD month 0

/-- The days of the months before this one. -/
def daysBeforeMonth (leap : Bool) (month : ℕ) : ℕ :=
  [0, 0, 31, 59, 90, 120, 151, 181, 212, 243, 273, 304, 334].getD month 0 +
    if 2 < month ∧ leap = true then 1 else 0

def Date.Valid (date : Date) : Prop :=
  1 ≤ date.year ∧ date.year ≤ 9999 ∧ 1 ≤ date.month ∧ date.month ≤ 12 ∧
    1 ≤ date.day ∧ date.day ≤ daysInMonth (isLeap date.year) date.month

instance (date : Date) : Decidable date.Valid := inferInstanceAs (Decidable (_ ∧ _))

def Date.ordinal (date : Date) : ℕ :=
  daysBeforeYear date.year + daysBeforeMonth (isLeap date.year) date.month + date.day

/-- The month and the day of a day of the year, counted from 0: an estimate that is the month or the
    one behind it. -/
def monthOf (leap : Bool) (n : ℕ) : ℕ × ℕ :=
  let month := (n + 50) / 32
  let month := if n < daysBeforeMonth leap month then month - 1 else month
  (month, n - daysBeforeMonth leap month + 1)

def ofDayOfYear (year n : ℕ) : Date :=
  ⟨year, (monthOf (isLeap year) n).1, (monthOf (isLeap year) n).2⟩

def ofOrdinal (ordinal : ℕ) : Date :=
  let n := ordinal - 1
  let n400 := n / 146097
  let n := n % 146097
  let n100 := n / 36524
  let n := n % 36524
  let n4 := n / 1461
  let n := n % 1461
  let n1 := n / 365
  let n := n % 365
  let year := n400 * 400 + n100 * 100 + n4 * 4 + n1 + 1
  -- the last day of a leap year closes a cycle
  if n1 = 4 ∨ n100 = 4 then ⟨year - 1, 12, 31⟩
  else
    ofDayOfYear year n

def maxOrdinal : ℕ := 3652059

theorem monthOf_spec (leap : Bool) {n : ℕ} (hn : n < 365) :
    daysBeforeMonth leap (monthOf leap n).1 + (monthOf leap n).2 = n + 1 ∧
      1 ≤ (monthOf leap n).1 ∧ (monthOf leap n).1 ≤ 12 ∧ 1 ≤ (monthOf leap n).2 ∧
      (monthOf leap n).2 ≤ daysInMonth leap (monthOf leap n).1 := by
  have hall : ∀ leap : Bool, ∀ n < 365,
      daysBeforeMonth leap (monthOf leap n).1 + (monthOf leap n).2 = n + 1 ∧
        1 ≤ (monthOf leap n).1 ∧ (monthOf leap n).1 ≤ 12 ∧ 1 ≤ (monthOf leap n).2 ∧
        (monthOf leap n).2 ≤ daysInMonth leap (monthOf leap n).1 := by decide +kernel
  exact hall leap n hn

/-- The cycles of a day number: whole years, or years and the last day of a leap year. -/
theorem ofOrdinal_cases (n : ℕ) :
    ∃ a b c d e, n = 146097 * a + 36524 * b + 1461 * c + 365 * d + e ∧ c ≤ 24 ∧ e < 365 ∧
      (b ≤ 3 ∧ d ≤ 3 ∧
          ofOrdinal (n + 1) = ofDayOfYear (400 * a + 100 * b + 4 * c + d + 1) e ∨
        e = 0 ∧ (d = 4 ∧ b ≤ 3 ∧ c ≤ 23 ∨ b = 4 ∧ c = 0 ∧ d = 0) ∧
          ofOrdinal (n + 1) = ⟨400 * a + 100 * b + 4 * c + d, 12, 31⟩) := by
  have hyear : ∀ a b c d : ℕ, a * 400 + b * 100 + c * 4 + d = 400 * a + 100 * b + 4 * c + d := by
    intro a b c d
    omega
  refine ⟨n / 146097, n % 146097 / 36524, n % 146097 % 36524 / 1461,
    n % 146097 % 36524 % 1461 / 365, n % 146097 % 36524 % 1461 % 365, by omega, by omega, by omega, ?_⟩
  unfold ofOrdinal
  simp only [Nat.add_sub_cancel, hyear]
  split
  · next hclosing =>
      refine .inr ⟨?_, ?_, rfl⟩
      · omega
      · omega
  · next hwhole =>
      refine .inl ⟨?_, ?_, rfl⟩
      · omega
      · omega

theorem ordinal_ofDayOfYear {y e : ℕ} (he : e < 365) :
    (ofDayOfYear (y + 1) e).ordinal = y * 365 + y / 4 - y / 100 + y / 400 + e + 1 := by
  have hmonth := (monthOf_spec (isLeap (y + 1)) he).1
  show daysBeforeYear (y + 1) + daysBeforeMonth (isLeap (y + 1)) (monthOf (isLeap (y + 1)) e).1 +
    (monthOf (isLeap (y + 1)) e).2 = _
  rw [Nat.add_assoc, hmonth]
  rfl

/-- The last day of a leap year. -/
theorem ordinal_lastDay {y : ℕ} (hleap : isLeap y = true) :
    Date.ordinal ⟨y, 12, 31⟩ =
      (y - 1) * 365 + (y - 1) / 4 - (y - 1) / 100 + (y - 1) / 400 + 366 := by
  show daysBeforeYear y + daysBeforeMonth (isLeap y) 12 + 31 = _
  rw [hleap]
  rfl

theorem ordinal_ofOrdinal {ordinal : ℕ} (hpos : 1 ≤ ordinal) :
    (ofOrdinal ordinal).ordinal = ordinal := by
  obtain ⟨n, rfl⟩ := Nat.exists_eq_add_of_le' hpos
  obtain ⟨a, b, c, d, e, hn, hc, he, ⟨hb, hd, hdate⟩ | ⟨rfl, hlast, hdate⟩⟩ := ofOrdinal_cases n
  · rw [hdate, ordinal_ofDayOfYear he, hn]
    omega
  · have hleap : isLeap (400 * a + 100 * b + 4 * c + d) = true := by
      simp only [isLeap, Bool.and_eq_true, Bool.or_eq_true, decide_eq_true_eq]
      omega
    rw [hdate, ordinal_lastDay hleap, hn]
    omega

theorem ofOrdinal_valid {ordinal : ℕ} (hpos : 1 ≤ ordinal) (hmax : ordinal ≤ maxOrdinal) :
    (ofOrdinal ordinal).Valid := by
  obtain ⟨n, rfl⟩ := Nat.exists_eq_add_of_le' hpos
  have hmax : n + 1 ≤ 3652059 := hmax
  obtain ⟨a, b, c, d, e, hn, hc, he, ⟨hb, hd, hdate⟩ | ⟨rfl, hlast, hdate⟩⟩ := ofOrdinal_cases n
  · rw [hdate]
    obtain ⟨-, hmonth⟩ := monthOf_spec (isLeap (400 * a + 100 * b + 4 * c + d + 1)) he
    refine ⟨?_, ?_, hmonth⟩
    · show 1 ≤ 400 * a + 100 * b + 4 * c + d + 1
      omega
    · show 400 * a + 100 * b + 4 * c + d + 1 ≤ 9999
      omega
  · rw [hdate]
    refine ⟨?_, ?_, (by omega : 1 ≤ 12), (by omega : 12 ≤ 12), (by omega : 1 ≤ 31), ?_⟩
    · show 1 ≤ 400 * a + 100 * b + 4 * c + d
      omega
    · show 400 * a + 100 * b + 4 * c + d ≤ 9999
      omega
    · show 31 ≤ daysInMonth (isLeap _) 12
      cases isLeap (400 * a + 100 * b + 4 * c + d) <;> decide

end Calendar
