import RpiNestApi.Dates.Calendar
import RpiNestApi.Numbers.Numerals

/-
Times of JavaScript, and how they are printed.
-/

namespace RpiNestApi

open Calendar

/-- A time in milliseconds since 1 January 1970, as dates have it. -/
structure Time where
  ms : ℤ
  inRange : |ms| ≤ 8640000000000000

def msPerMinute : ℤ := 60000

def msPerDay : ℤ := 86400000

namespace Time

/-- The day, in UTC. -/
def day (t : Time) : ℤ := t.ms / msPerDay

/-- The time since the beginning of the day, in UTC. -/
def inDay (t : Time) : ℤ := t.ms % msPerDay

/-- The year, in UTC. -/
def year (t : Time) : ℤ := yearOf t.day

/-- `date.getTime()`, where an invalid date has no time. -/
def getTime : Option Time → Number
  | some time => .finite time.ms
  | none => .nan

/-- Years that have no four digits have a sign and six. -/
def yearText (y : ℤ) : List Char :=
  if 0 ≤ y ∧ y ≤ 9999 then padded 4 y.toNat
  else (if y < 0 then '-' else '+') :: padded 6 y.natAbs

def dateText (d : Date) : List Char :=
  yearText d.year ++ '-' :: (padded 2 (d.month + 1) ++ '-' :: padded 2 (d.day + 1))

/-- `date.toISOString()`. -/
def toISOString (t : Time) : String :=
  let ms := t.inDay.toNat
  String.ofList (dateText (.ofDay t.day) ++ 'T' :: (padded 2 (ms / 3600000) ++ ':' ::
    (padded 2 (ms / 60000 % 60) ++ ':' :: (padded 2 (ms / 1000 % 60) ++ '.' ::
      (padded 3 (ms % 1000) ++ ['Z'])))))

theorem ms_eq (t : Time) : t.ms = t.day * msPerDay + t.inDay :=
  (Int.ediv_mul_add_emod t.ms msPerDay).symm

/-- The date is the first ten characters of a year with four digits. -/
theorem take_toISOString {t : Time} (hyear : 0 ≤ t.year ∧ t.year ≤ 9999) :
    t.toISOString.toList.take 10 = dateText (.ofDay t.day) := by
  have hlength : (dateText (.ofDay t.day)).length = 10 := by
    have hfour : 0 ≤ (Date.ofDay t.day).year ∧ (Date.ofDay t.day).year ≤ 9999 := hyear
    simp only [dateText, yearText, if_pos hfour, List.length_append, List.length_cons,
      length_padded]
  rw [toISOString, String.toList_ofList, List.take_append_of_le_length hlength.ge,
    List.take_of_length_le hlength.le]

end Time

end RpiNestApi
