import RpiNestApi.Numbers.Number

/-
Numerals in texts.
-/

namespace RpiNestApi

/-- A sign that the text begins with, and the rest. -/
def sign : List Char → Bool × List Char
  | '-' :: cs => (true, cs)
  | '+' :: cs => (false, cs)
  | cs => (false, cs)

def natOf (digits : List Char) : ℕ := Nat.ofDigitChars 10 digits 0

/-- The integer that the text begins with, after white space. -/
def integerPrefix (text : List Char) : Option ℤ :=
  let (negative, rest) := sign (text.dropWhile isWhiteSpace)
  let digits := rest.takeWhile Char.isDigit
  if digits.isEmpty then none
  else some (if negative then -(natOf digits : ℤ) else natOf digits)

/-- `parseInt(text, 10)`. -/
def parseInt (text : String) : Number :=
  match integerPrefix text.toList with
  | some n => .ofRat n
  | none => .nan

/-- The exponent of ten that the text begins with, or zero. -/
def exponentPrefix : List Char → ℤ
  | [] => 0
  | c :: cs =>
    if c = 'e' ∨ c = 'E' then
      let (negative, rest) := sign cs
      let digits := rest.takeWhile Char.isDigit
      if negative then -(natOf digits : ℤ) else natOf digits
    else 0

/-- `Number.parseFloat(text)`. -/
def parseFloat (text : String) : Number :=
  let (negative, rest) := sign (text.toList.dropWhile isWhiteSpace)
  if "Infinity".toList.isPrefixOf rest then .infinite negative
  else
    let whole := rest.takeWhile Char.isDigit
    let (fraction, rest) := match rest.dropWhile Char.isDigit with
      | '.' :: cs => (cs.takeWhile Char.isDigit, cs.dropWhile Char.isDigit)
      | cs => ([], cs)
    if whole.isEmpty && fraction.isEmpty then .nan
    else
      let q := (natOf (whole ++ fraction) : ℚ) * 10 ^ (exponentPrefix rest - fraction.length)
      .ofRat (if negative then -q else q)

/-- A text of digits only. -/
structure IsNumeral (text : List Char) : Prop where
  ne_nil : text ≠ []
  digits : ∀ c ∈ text, c.isDigit = true

instance (text : List Char) : Decidable (IsNumeral text) :=
  decidable_of_iff ((!text.isEmpty && text.all Char.isDigit) = true) (by
    rw [Bool.and_eq_true, Bool.not_eq_true', List.isEmpty_eq_false_iff, List.all_eq_true]
    exact ⟨fun h => ⟨h.1, h.2⟩, fun h => ⟨h.ne_nil, h.digits⟩⟩)

theorem IsNumeral.notMem {text : List Char} (h : IsNumeral text) {c : Char}
    (hc : c.isDigit = false) : c ∉ text := by
  intro hmem
  rw [h.digits c hmem] at hc
  cases hc

theorem isNumeral_repr (n : ℕ) : IsNumeral n.repr.toList where
  ne_nil := by
    rw [Nat.toList_repr]
    exact Nat.toDigits_ne_nil
  digits c hc := by
    rw [Nat.toList_repr] at hc
    exact Nat.isDigit_of_mem_toDigits (by decide) (by decide) hc

theorem natOf_repr (n : ℕ) : natOf n.repr.toList = n := by
  rw [natOf, Nat.toList_repr, Nat.ofDigitChars_ten_toDigits]

theorem isWhiteSpace_digit {c : Char} (h : c.isDigit = true) : isWhiteSpace c = false := by
  have hdigit : 48 ≤ c.val.toNat ∧ c.val.toNat ≤ 57 := by
    simpa [Char.isDigit, UInt32.le_iff_toNat_le] using h
  simp only [isWhiteSpace, UInt32.le_iff_toNat_le, ← UInt32.toNat_inj, List.mem_cons,
    List.not_mem_nil, UInt32.reduceToNat, Bool.or_eq_false_iff, Bool.and_eq_false_iff,
    decide_eq_false_iff_not, or_false]
  omega

theorem sign_digit {c : Char} (h : c.isDigit = true) (cs : List Char) :
    sign (c :: cs) = (false, c :: cs) := by
  unfold sign
  split
  · rename_i heq
    cases heq
    cases h
  · rename_i heq
    cases heq
    cases h
  · rfl

theorem integerPrefix_numeral {text : List Char} (h : IsNumeral text) :
    integerPrefix text = some (natOf text : ℤ) := by
  have htake : text.takeWhile Char.isDigit = text := List.takeWhile_eq_self_iff.mpr h.digits
  cases text with
  | nil => exact absurd rfl h.ne_nil
  | cons c cs =>
      have hc := h.digits c List.mem_cons_self
      have hdrop : (c :: cs).dropWhile isWhiteSpace = c :: cs :=
        List.dropWhile_cons_of_neg (by simp [isWhiteSpace_digit hc])
      rw [integerPrefix, hdrop, sign_digit hc]
      simp only [htake]
      rfl

theorem parseInt_numeral {text : List Char} (h : IsNumeral text) :
    parseInt (String.ofList text) = .ofRat (natOf text) := by
  rw [parseInt, String.toList_ofList, integerPrefix_numeral h]
  simp

/-- A text is read as an integer if it begins with one that is not too large. -/
theorem isInteger_parseInt {text : String} : (parseInt text).isInteger = true ↔
    ∃ n : ℤ, integerPrefix text.toList = some n ∧ |(n : ℚ)| < Number.limit := by
  rw [parseInt]
  cases integerPrefix text.toList with
  | none => simp [Number.isInteger]
  | some n => simp [Number.isInteger_ofRat]

/-! ## Padded numerals -/

/-- The last `width` digits of the number. -/
def padded : ℕ → ℕ → List Char
  | 0, _ => []
  | width + 1, n => padded width (n / 10) ++ [Nat.digitChar (n % 10)]

@[simp] theorem length_padded (width n : ℕ) : (padded width n).length = width := by
  induction width generalizing n with
  | zero => rfl
  | succ width ih => rw [padded, List.length_append, ih, List.length_singleton]

theorem isNumeral_padded {width : ℕ} (h : 0 < width) (n : ℕ) : IsNumeral (padded width n) where
  ne_nil := by
    rw [← List.length_pos_iff, length_padded]
    exact h
  digits := by
    induction width generalizing n with
    | zero => exact absurd h (Nat.lt_irrefl 0)
    | succ width ih =>
        intro c hc
        rw [padded, List.mem_append, List.mem_singleton] at hc
        rcases hc with hc | rfl
        · rcases Nat.eq_zero_or_pos width with rfl | hpos
          · cases hc
          · exact ih hpos _ c hc
        · rw [Nat.isDigit_digitChar]
          exact decide_eq_true (Nat.mod_lt n (by decide))

theorem natOf_padded {width n : ℕ} (h : n < 10 ^ width) : natOf (padded width n) = n := by
  induction width generalizing n with
  | zero =>
      rw [pow_zero, Nat.lt_one_iff] at h
      rw [h]
      rfl
  | succ width ih =>
      have hdigit := Nat.mod_lt n (show 10 > 0 by decide)
      have hlt : n / 10 < 10 ^ width := Nat.div_lt_of_lt_mul (by rwa [← pow_succ'])
      have hrest := ih hlt
      rw [natOf] at hrest
      rw [natOf, padded, Nat.ofDigitChars_append, hrest,
        Nat.ofDigitChars_cons_digitChar_of_lt_ten hdigit, Nat.ofDigitChars_nil]
      omega

/-! ## Decimal numerals -/

/-- A numeral with a decimal point between digits. -/
structure Decimal where
  whole : List Char
  fraction : List Char
  isNumeral_whole : IsNumeral whole
  isNumeral_fraction : IsNumeral fraction

namespace Decimal

def text (n : Decimal) : List Char := n.whole ++ '.' :: n.fraction

def value (n : Decimal) : ℚ := natOf (n.whole ++ n.fraction) / 10 ^ n.fraction.length

theorem value_nonneg (n : Decimal) : 0 ≤ n.value := by
  rw [value]
  positivity

end Decimal

theorem takeWhile_digits {text : List Char} (h : IsNumeral text) (rest : List Char) :
    (text ++ '.' :: rest).takeWhile Char.isDigit = text := by
  rw [List.takeWhile_append_of_pos h.digits, List.takeWhile_cons_of_neg (by decide),
    List.append_nil]

theorem dropWhile_digits {text : List Char} (h : IsNumeral text) (rest : List Char) :
    (text ++ '.' :: rest).dropWhile Char.isDigit = '.' :: rest := by
  rw [List.dropWhile_append_of_pos h.digits, List.dropWhile_cons_of_neg (by decide)]

/-- The beginning of a text that begins with a numeral. -/
theorem sign_numeral {text : List Char} (h : IsNumeral text) (rest : List Char) :
    sign ((text ++ rest).dropWhile isWhiteSpace) = (false, text ++ rest) ∧
      "Infinity".toList.isPrefixOf (text ++ rest) = false := by
  cases text with
  | nil => exact absurd rfl h.ne_nil
  | cons c cs =>
      have hc := h.digits c List.mem_cons_self
      rw [List.cons_append, List.dropWhile_cons_of_neg (by simp [isWhiteSpace_digit hc]),
        sign_digit hc]
      refine ⟨rfl, Bool.eq_false_iff.mpr fun hprefix => ?_⟩
      obtain ⟨tail, htail⟩ := List.isPrefixOf_iff_prefix.mp hprefix
      rw [← (List.cons.inj htail).1] at hc
      cases hc

theorem parseFloat_decimal (n : Decimal) :
    parseFloat (String.ofList n.text) = .ofRat n.value := by
  obtain ⟨hsign, hinfinity⟩ := sign_numeral n.isNumeral_whole ('.' :: n.fraction)
  have hne : n.whole.isEmpty = false := by simpa using n.isNumeral_whole.ne_nil
  have htake : n.fraction.takeWhile Char.isDigit = n.fraction :=
    List.takeWhile_eq_self_iff.mpr n.isNumeral_fraction.digits
  have hdrop : n.fraction.dropWhile Char.isDigit = [] :=
    List.dropWhile_eq_nil_iff.mpr n.isNumeral_fraction.digits
  rw [parseFloat, String.toList_ofList, Decimal.text, hsign]
  simp only [hinfinity, Bool.false_eq_true, if_false, takeWhile_digits n.isNumeral_whole,
    dropWhile_digits n.isNumeral_whole, htake, hdrop, hne, Bool.false_and, exponentPrefix]
  rw [zero_sub, zpow_neg, zpow_natCast, ← div_eq_mul_inv, Decimal.value]

end RpiNestApi
