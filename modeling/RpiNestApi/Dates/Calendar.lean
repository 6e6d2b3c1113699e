/-
The Gregorian calendar.

Days are counted from 1 January 1970, in both directions.  A year has a first day, and a
day has the year between whose first day and the next year's it lies.  Within a year, the
months are found one after the other.
-/
import Mathlib.Algebra.BigOperators.Group.List.Basic
import Mathlib.Algebra.Order.Ring.Int
import Mathlib.Tactic.Linarith

namespace Calendar

/-- The first day of the year. -/
def yearStart (y : ℤ) : ℤ :=
  365 * (y - 1970) + (y - 1969) / 4 - (y - 1901) / 100 + (y - 1601) / 400

def isLeap (y : ℤ) : Bool := y % 4 = 0 && (y % 100 ≠ 0 || y % 400 = 0)

def yearLength (y : ℤ) : ℤ := if isLeap y then 366 else 365

/-- The year of the day.  The average length of a year leads to it or next to it. -/
def yearOf (day : ℤ) : ℤ :=
  let y := 400 * day / 146097 + 1970
  if day < yearStart y then y - 1
  else if yearStart (y + 1) ≤ day then y + 1
  else y

theorem yearStart_succ (y : ℤ) : yearStart (y + 1) = yearStart y + yearLength y := by
  simp only [yearStart, yearLength, isLeap, Bool.and_eq_true, Bool.or_eq_true, decide_eq_true_eq]
  split <;> omega

theorem yearStart_le_of_average (day : ℤ) : yearStart (400 * day / 146097 + 1969) ≤ day := by
  unfold yearStart
  omega

theorem lt_yearStart_of_average (day : ℤ) : day < yearStart (400 * day / 146097 + 1972) := by
  unfold yearStart
  omega

/-- A day lies between the first day of its year and that of the next year. -/
theorem yearOf_spec (day : ℤ) :
    yearStart (yearOf day) ≤ day ∧ day < yearStart (yearOf day + 1) := by
  have hlow := yearStart_le_of_average day
  have hhigh := lt_yearStart_of_average day
  unfold yearOf
  dsimp only
  split
  · rename_i hbefore
    rw [sub_add_cancel]
    exact ⟨by rwa [add_sub_assoc], hbefore⟩
  · rename_i hfrom
    split
    · rename_i hnext
      refine ⟨hnext, ?_⟩
      rwa [add_assoc, add_assoc]
    · rename_i hbefore
      exact ⟨not_lt.mp hfrom, not_le.mp hbefore⟩

/-! ## Months -/

def monthLengths (leap : Bool) : List ℕ :=
  [31, if leap then 29 else 28, 31, 30, 31, 30, 31, 31, 30, 31, 30, 31]

/-- The part in which the place lies, of parts with these lengths, and how far in it. -/
def locate : List ℕ → ℕ → ℕ × ℕ
  | [], n => (0, n)
  | length :: lengths, n =>
    if n < length then (0, n)
    else ((locate lengths (n - length)).1 + 1, (locate lengths (n - length)).2)

theorem locate_spec {lengths : List ℕ} {n : ℕ} (h : n < lengths.sum) :
    ∃ length, lengths[(locate lengths n).1]? = some length ∧ (locate lengths n).2 < length ∧
      (lengths.take (locate lengths n).1).sum + (locate lengths n).2 = n := by
  induction lengths generalizing n with
  | nil => exact absurd h (Nat.not_lt_zero n)
  | cons first lengths ih =>
      rw [locate]
      split
      · rename_i hlt
        exact ⟨first, rfl, hlt, by simp⟩
      · rename_i hle
        have hrest : n - first < lengths.sum := by
          rw [List.sum_cons] at h
          omega
        obtain ⟨length, hlength, hlt, hsum⟩ := ih hrest
        refine ⟨length, by rwa [List.getElem?_cons_succ], hlt, ?_⟩
        rw [List.take_succ_cons, List.sum_cons]
        omega

/-! ## Dates -/

/-- A date, with the months and the days counted from zero. -/
structure Date where
  year : ℤ
  month : ℕ
  day : ℕ
  deriving DecidableEq, Repr

/-- The month has the day. -/
def Date.isValid (d : Date) : Bool :=
  (monthLengths (isLeap d.year))[d.month]?.any fun length => d.day < length

def Date.toDay (d : Date) : ℤ :=
  yearStart d.year + (((monthLengths (isLeap d.year)).take d.month).sum + d.day : ℕ)

def Date.ofDay (day : ℤ) : Date :=
  let place := locate (monthLengths (isLeap (yearOf day))) (day - yearStart (yearOf day)).toNat
  { year := yearOf day, month := place.1, day := place.2 }

theorem sum_monthLengths (y : ℤ) : ((monthLengths (isLeap y)).sum : ℤ) = yearLength y := by
  rw [yearLength]
  cases isLeap y <;> rfl

theorem dayOfYear_lt (day : ℤ) :
    (day - yearStart (yearOf day)).toNat < (monthLengths (isLeap (yearOf day))).sum := by
  obtain ⟨hlow, hhigh⟩ := yearOf_spec day
  have hsum := sum_monthLengths (yearOf day)
  rw [yearStart_succ] at hhigh
  omega

theorem Date.isValid_ofDay (day : ℤ) : (Date.ofDay day).isValid = true := by
  obtain ⟨length, hlength, hlt, _⟩ := locate_spec (dayOfYear_lt day)
  rw [Date.isValid, Date.ofDay]
  dsimp only
  rw [hlength]
  exact decide_eq_true hlt

theorem length_le_of_mem {leap : Bool} {length : ℕ} (h : length ∈ monthLengths leap) :
    length ≤ 31 := by
  cases leap <;> simp [monthLengths] at h <;> omega

theorem Date.lt_of_isValid {d : Date} (h : d.isValid = true) : d.month < 12 ∧ d.day < 31 := by
  rw [Date.isValid, Option.any_eq_true] at h
  obtain ⟨length, hlength, hday⟩ := h
  obtain ⟨hmonth, _⟩ := List.getElem?_eq_some_iff.mp hlength
  have hle := length_le_of_mem (List.mem_of_getElem? hlength)
  exact ⟨hmonth, (of_decide_eq_true hday).trans_le hle⟩

/-- A day is the day of its date. -/
theorem Date.toDay_ofDay (day : ℤ) : (Date.ofDay day).toDay = day := by
  obtain ⟨_, _, _, hsum⟩ := locate_spec (dayOfYear_lt day)
  have hlow := (yearOf_spec day).1
  rw [Date.toDay, Date.ofDay]
  dsimp only
  rw [hsum]
  omega

end Calendar
