import RpiNestApi.Dates.Time

/-
Times of JavaScript, read from texts.

The form that `toISOString` prints is read part by part, and every time is read back.
-/

namespace RpiNestApi

open Calendar

/-! ## Parts -/

/-- The number whose digits are the first `width` characters, and the rest. -/
def readNumeral (width : ℕ) (text : List Char) : Option (ℕ × List Char) :=
  let digits := text.take width
  if digits.length = width ∧ digits.all Char.isDigit then some (natOf digits, text.drop width)
  else none

/-- What comes after the character. -/
def readChar (c : Char) : List Char → Option (List Char)
  | [] => none
  | c' :: text => if c' = c then some text else none

@[simp] theorem readChar_cons (c : Char) (text : List Char) :
    readChar c (c :: text) = some text := if_pos rfl

@[simp] theorem readNumeral_padded {width n : ℕ} (h : n < 10 ^ width) (text : List Char) :
    readNumeral width (padded width n ++ text) = some (n, text) := by
  have htake : (padded width n ++ text).take width = padded width n :=
    List.take_left' (length_padded width n)
  have hdrop : (padded width n ++ text).drop width = text :=
    List.drop_left' (length_padded width n)
  have hdigits : (padded width n).all Char.isDigit = true := by
    rw [List.all_eq_true]
    rcases Nat.eq_zero_or_pos width with rfl | hwidth
    · intro c hc
      cases hc
    · exact (isNumeral_padded hwidth n).digits
  rw [readNumeral, htake, hdrop, if_pos ⟨length_padded width n, hdigits⟩, natOf_padded h]

namespace Time

/-- `new Date(ms)`, unless it is invalid. -/
def ofMs (ms : ℤ) : Option Time :=
  if h : |ms| ≤ 8640000000000000 then some { ms, inRange := h } else none

@[simp] theorem ofMs_ms (t : Time) : ofMs t.ms = some t := dif_pos t.inRange

theorem ofMs_eq_some {ms : ℤ} {t : Time} : ofMs ms = some t ↔ t.ms = ms := by
  constructor
  · intro h
    unfold ofMs at h
    split at h
    · rw [← Option.some.inj h]
    · cases h
  · rintro rfl
    exact ofMs_ms t

theorem ofMs_eq_none {ms : ℤ} : ofMs ms = none ↔ ¬ |ms| ≤ 8640000000000000 := by
  unfold ofMs
  split
  · rename_i hrange
    exact iff_of_false (Option.some_ne_none _) (not_not_intro hrange)
  · rename_i hrange
    exact iff_of_true rfl hrange

/-- Four digits, or a sign and six.  The year zero has no sign. -/
def readYear : List Char → Option (ℤ × List Char)
  | '+' :: text => (readNumeral 6 text).map fun p => ((p.1 : ℤ), p.2)
  | '-' :: text => (readNumeral 6 text).bind fun p =>
    if p.1 = 0 then none else some (-(p.1 : ℤ), p.2)
  | text => (readNumeral 4 text).map fun p => ((p.1 : ℤ), p.2)

def readDate (text : List Char) : Option (Date × List Char) := do
  let (year, text) ← readYear text
  let (month, text) ← readNumeral 2 (← readChar '-' text)
  let (day, text) ← readNumeral 2 (← readChar '-' text)
  let date : Date := { year, month := month - 1, day := day - 1 }
  if 1 ≤ month ∧ 1 ≤ day ∧ date.isValid then return (date, text) else none

/-- The milliseconds since midnight.  The day may end with the hour 24. -/
def inDayOf (hour minute second ms : ℕ) : Option ℕ :=
  let inDay := hour * 3600000 + minute * 60000 + second * 1000 + ms
  if inDay ≤ 86400000 ∧ minute < 60 ∧ second < 60 then some inDay else none

def readInDay (text : List Char) : Option (ℕ × List Char) := do
  let (hour, text) ← readNumeral 2 text
  let (minute, text) ← readNumeral 2 (← readChar ':' text)
  let (second, text) ← readNumeral 2 (← readChar ':' text)
  let (ms, text) ← readNumeral 3 (← readChar '.' text)
  return (← inDayOf hour minute second ms, text)

/-- `new Date(text)` for the texts that `toISOString` prints. -/
def parseISO (text : String) : Option Time := do
  let (date, text) ← readDate text.toList
  let (inDay, text) ← readInDay (← readChar 'T' text)
  if text = ['Z'] then ofMs (date.toDay * msPerDay + inDay) else none

/-! ## Printed times -/

theorem readYear_yearText {y : ℤ} (hy : |y| < 1000000) (text : List Char) :
    readYear (yearText y ++ text) = some (y, text) := by
  have hrange := abs_lt.mp hy
  unfold yearText
  split
  · rename_i hfour
    have hlt : y.toNat < 10 ^ 4 := by omega
    have hnumeral : IsNumeral (padded 4 y.toNat) := isNumeral_padded (by decide) _
    obtain ⟨c, cs, hcs⟩ := List.exists_cons_of_ne_nil hnumeral.ne_nil
    have hdigit : c.isDigit = true := hnumeral.digits c (hcs ▸ List.mem_cons_self)
    have hread := readNumeral_padded hlt text
    rw [hcs, List.cons_append] at hread ⊢
    unfold readYear
    split
    · rename_i heq
      rw [(List.cons.inj heq).1] at hdigit
      cases hdigit
    · rename_i heq
      rw [(List.cons.inj heq).1] at hdigit
      cases hdigit
    · rw [hread, Option.map_some, Int.toNat_of_nonneg hfour.1]
  · have hlt : y.natAbs < 10 ^ 6 := by omega
    split
    · rename_i hnot hneg
      have hne : y.natAbs ≠ 0 := by omega
      rw [List.cons_append, readYear, readNumeral_padded hlt, Option.bind_some, if_neg hne]
      simp only [Option.some.injEq, Prod.mk.injEq, and_true]
      omega
    · rename_i hnot hneg
      rw [List.cons_append, readYear, readNumeral_padded hlt, Option.map_some]
      simp only [Option.some.injEq, Prod.mk.injEq, and_true]
      omega

theorem readDate_dateText {d : Date} (hvalid : d.isValid = true) (hyear : |d.year| < 1000000)
    (text : List Char) : readDate (dateText d ++ text) = some (d, text) := by
  obtain ⟨hmonth, hday⟩ := Date.lt_of_isValid hvalid
  have hmonth' : d.month + 1 < 10 ^ 2 := by omega
  have hday' : d.day + 1 < 10 ^ 2 := by omega
  simp only [readDate, dateText, List.append_assoc, List.cons_append, readYear_yearText hyear,
    Option.bind_eq_bind, Option.bind_some, readChar_cons, readNumeral_padded hmonth',
    readNumeral_padded hday', Nat.add_sub_cancel]
  exact if_pos ⟨Nat.le_add_left 1 _, Nat.le_add_left 1 _, hvalid⟩

theorem readInDay_padded {hour minute second ms inDay : ℕ} (hhour : hour < 10 ^ 2)
    (hminute : minute < 10 ^ 2) (hsecond : second < 10 ^ 2) (hms : ms < 10 ^ 3)
    (h : inDayOf hour minute second ms = some inDay) (text : List Char) :
    readInDay (padded 2 hour ++ ':' :: (padded 2 minute ++ ':' :: (padded 2 second ++ '.' ::
      (padded 3 ms ++ text)))) = some (inDay, text) := by
  simp only [readInDay, Option.bind_eq_bind, Option.bind_eq_some_iff]
  exact ⟨_, readNumeral_padded hhour _, _, readChar_cons .., _, readNumeral_padded hminute _,
    _, readChar_cons .., _, readNumeral_padded hsecond _, _, readChar_cons ..,
    _, readNumeral_padded hms _, _, h, rfl⟩

theorem inDayOf_of_sum {hour minute second ms inDay : ℕ}
    (hsum : hour * 3600000 + minute * 60000 + second * 1000 + ms = inDay)
    (hinDay : inDay ≤ 86400000) (hminute : minute < 60) (hsecond : second < 60) :
    inDayOf hour minute second ms = some inDay := by
  subst hsum
  rw [inDayOf, if_pos ⟨hinDay, hminute, hsecond⟩]

theorem inDayOf_parts {ms : ℕ} (hms : ms < 86400000) :
    inDayOf (ms / 3600000) (ms / 60000 % 60) (ms / 1000 % 60) (ms % 1000) = some ms :=
  inDayOf_of_sum (by omega) hms.le (Nat.mod_lt _ (by decide)) (Nat.mod_lt _ (by decide))

/-- The years of times have six digits at most. -/
theorem abs_year_lt (t : Time) : |t.year| < 1000000 := by
  obtain ⟨hlow, hhigh⟩ := yearOf_spec t.day
  have hrange := abs_le.mp t.inRange
  have hms := t.ms_eq
  have hinDay : 0 ≤ t.inDay ∧ t.inDay < msPerDay :=
    ⟨Int.emod_nonneg _ (by decide), Int.emod_lt_of_pos _ (by decide)⟩
  rw [msPerDay] at hms hinDay
  rw [year, abs_lt]
  unfold yearStart at hlow hhigh
  omega

theorem inDay_lt (t : Time) : t.inDay.toNat < 86400000 := by
  have hlt : t.inDay < msPerDay := Int.emod_lt_of_pos _ (by decide)
  rw [msPerDay] at hlt
  omega

/-- Every time is read back. -/
theorem parseISO_toISOString (t : Time) : parseISO t.toISOString = some t := by
  have hnonneg : 0 ≤ t.inDay := Int.emod_nonneg _ (by decide)
  have hlt := t.inDay_lt
  rw [parseISO, toISOString, String.toList_ofList,
    readDate_dateText (Date.isValid_ofDay t.day) t.abs_year_lt]
  simp only [Option.bind_eq_bind, Option.bind_some, readChar_cons]
  rw [readInDay_padded (by omega) (by omega) (by omega) (by omega) (inDayOf_parts hlt),
    Option.bind_some]
  dsimp only
  rw [if_pos rfl, Date.toDay_ofDay, Int.toNat_of_nonneg hnonneg, ← ms_eq, ofMs_ms]

end Time

end RpiNestApi
