import RpiNestApi.Numbers.Rounding
import RpiNestApi.Strings

/-
The numbers of JavaScript, and how texts are read as numbers.

A number is a double.  `parseInt` and `parseFloat` read as much of a text as looks like a
numeral, and round it.
-/

namespace RpiNestApi

open Rounding

/-- The two zeros are not told apart. -/
inductive Number where
  | nan
  | infinite (negative : Bool)
  | finite (q : ℚ)
  deriving DecidableEq

namespace Number

/-- The number that is nearest to `q`. -/
def ofRat (q : ℚ) : Number :=
  if |binary64.round q| < 2 ^ binary64.maxExponent then .finite (binary64.round q)
  else .infinite (decide (q < 0))

/-- `Number.isInteger(x)`. -/
def isInteger : Number → Bool
  | .finite q => q.den == 1
  | _ => false

/-- `Number.isNaN(x)`. -/
def isNaN : Number → Bool
  | .nan => true
  | _ => false

/-- `Number.isFinite(x)`. -/
def isFinite : Number → Bool
  | .finite _ => true
  | _ => false

/-- `x - y`. -/
def sub : Number → Number → Number
  | .nan, _ => .nan
  | _, .nan => .nan
  | .finite a, .finite b => .ofRat (a - b)
  | .finite _, .infinite negative => .infinite (!negative)
  | .infinite negative, .finite _ => .infinite negative
  | .infinite negative, .infinite negative' =>
    if negative = negative' then .nan else .infinite negative

/-- `x * d` for a positive number `d`. -/
def mul : Number → ℚ → Number
  | .nan, _ => .nan
  | .finite a, d => .ofRat (a * d)
  | .infinite negative, _ => .infinite negative

/-- `BigInt(x)`, which takes nothing but integers. -/
def bigInt : Number → Option ℤ
  | .finite q => if q.den = 1 then some q.num else none
  | _ => none

/-- `x / d` for a positive number `d`. -/
def div : Number → ℚ → Number
  | .nan, _ => .nan
  | .finite a, d => .ofRat (a / d)
  | .infinite negative, _ => .infinite negative

/-- What is read as a finite number is less than this. -/
def limit : ℚ := 2 ^ 1024 - 2 ^ 970

theorem bound_eq : (2 : ℚ) ^ binary64.maxExponent = 2 ^ 1024 := by
  have hbound : binary64.maxExponent = ((1024 : ℕ) : ℤ) := rfl
  rw [hbound, zpow_natCast]

theorem limit_eq : binary64.limit = limit := by
  have hunit : binary64.maxExponent - binary64.precision - 1 = ((970 : ℕ) : ℤ) := rfl
  rw [Format.limit, hunit, bound_eq, zpow_natCast, limit]

/-- There is room below the limit. -/
theorem lt_limit {q : ℚ} {k : ℕ} (hk : k ≤ 1023) (h : q ≤ 2 ^ k) : q < limit := by
  have hdouble : (2 : ℚ) ^ 1024 = 2 * 2 ^ 1023 := pow_succ' 2 1023
  have hsmall : (2 : ℚ) ^ 970 < 2 ^ 1023 := pow_lt_pow_right₀ (by norm_num) (by norm_num)
  have hle : (2 : ℚ) ^ k ≤ 2 ^ 1023 := pow_le_pow_right₀ (by norm_num) hk
  calc q ≤ 2 ^ 1023 := h.trans hle
    _ = 2 * 2 ^ 1023 - 2 ^ 1023 := by rw [two_mul, add_sub_cancel_right]
    _ < 2 * 2 ^ 1023 - 2 ^ 970 := sub_lt_sub_left hsmall _
    _ = limit := by rw [limit, hdouble]

/-- The half of anything below the bound is below the limit. -/
theorem half_lt_limit {q : ℚ} (h : q < 2 ^ 1024) : q / 2 < limit := by
  refine lt_limit (le_refl 1023) ((div_le_iff₀ two_pos).mpr ?_)
  rw [← pow_succ]
  exact h.le

theorem ofRat_of_lt {q : ℚ} (h : |q| < limit) : ofRat q = .finite (binary64.round q) := by
  rw [← limit_eq] at h
  exact if_pos ((binary64.abs_round_lt_iff q).mpr h)

theorem ofRat_of_le {q : ℚ} (h : limit ≤ |q|) : ofRat q = .infinite (decide (q < 0)) := by
  rw [← limit_eq, ← not_lt] at h
  exact if_neg (mt (binary64.abs_round_lt_iff q).mp h)

theorem isFinite_ofRat (q : ℚ) : (ofRat q).isFinite = true ↔ |q| < limit := by
  rcases lt_or_ge |q| limit with h | h
  · exact iff_of_true (by rw [ofRat_of_lt h]; rfl) h
  · exact iff_of_false (by rw [ofRat_of_le h]; simp [isFinite]) (not_lt.mpr h)

theorem isNaN_ofRat (q : ℚ) : (ofRat q).isNaN = false := by
  rcases lt_or_ge |q| limit with h | h
  · rw [ofRat_of_lt h]
    rfl
  · rw [ofRat_of_le h]
    rfl

/-- A rounded number is below the bound. -/
theorem abs_lt_of_ofRat {q r : ℚ} (h : ofRat q = .finite r) : |r| < 2 ^ 1024 := by
  rw [← bound_eq]
  rcases lt_or_ge |q| limit with hlt | hle
  · rw [ofRat_of_lt hlt] at h
    rw [← Number.finite.inj h]
    exact (binary64.abs_round_lt_iff q).mpr (by rwa [limit_eq])
  · rw [ofRat_of_le hle] at h
    cases h

/-- A double is read as itself, and nothing else is. -/
theorem ofRat_eq_self {q : ℚ} : ofRat q = .finite q ↔ binary64.Representable q := by
  constructor
  · intro h
    have hbound := abs_lt_of_ofRat h
    rw [← bound_eq] at hbound
    rcases lt_or_ge |q| limit with hlt | hle
    · rw [ofRat_of_lt hlt] at h
      have hround := Number.finite.inj h
      have hrepresentable := binary64.representable_round (by rwa [hround])
      rwa [hround] at hrepresentable
    · rw [ofRat_of_le hle] at h
      cases h
  · intro h
    have hround := binary64.round_of_representable h
    rw [ofRat, if_pos (by rw [hround]; exact h.1), hround]

@[simp] theorem bigInt_intCast (n : ℤ) : (finite n).bigInt = some n := by
  rw [bigInt, if_pos (Rat.den_intCast n), Rat.num_intCast]

/-- An integer of at most 63 digits is rounded to one that is near, and one of at most 53
digits to itself. -/
theorem exists_bigInt_ofRat {n : ℤ} (hn : |n| < 2 ^ 63) :
    ∃ m, (ofRat n).bigInt = some m ∧ |m - n| ≤ 512 ∧ (|n| < 2 ^ 53 → m = n) := by
  have hcast : |(n : ℚ)| < 2 ^ 63 := by exact_mod_cast hn
  obtain ⟨m, hm⟩ := binary64.exists_round_intCast n
  have hround : ofRat n = .finite m := by
    rw [ofRat_of_lt (lt_limit (k := 63) (by decide) hcast.le), hm]
  refine ⟨m, by rw [hround, bigInt_intCast], ?_, fun hsmall => ?_⟩
  · have herror := binary64.abs_round_sub_le (e := 10) (by decide)
      (q := n) (by rw [show (10 : ℤ) + binary64.precision = ((63 : ℕ) : ℤ) from rfl,
        zpow_natCast]; exact hcast)
    rw [hm] at herror
    have hle : |((m - n : ℤ) : ℚ)| ≤ 512 := by
      push_cast
      norm_num at herror
      exact herror
    exact_mod_cast hle
  · have hself : ofRat n = .finite (n : ℚ) := ofRat_eq_self.mpr
      (binary64.representable_intCast (by decide) (by decide) hsmall)
    rw [hround] at hself
    exact_mod_cast Number.finite.inj hself

/-- An integer is read as one unless it is too large. -/
theorem isInteger_ofRat (n : ℤ) : (ofRat n).isInteger = true ↔ |(n : ℚ)| < limit := by
  rcases lt_or_ge |(n : ℚ)| limit with h | h
  · refine iff_of_true ?_ h
    obtain ⟨m, hm⟩ := binary64.exists_round_intCast n
    rw [ofRat_of_lt h, hm]
    exact beq_iff_eq.mpr (Rat.den_intCast m)
  · exact iff_of_false (by rw [ofRat_of_le h]; simp [isInteger]) (not_lt.mpr h)

end Number

end RpiNestApi
