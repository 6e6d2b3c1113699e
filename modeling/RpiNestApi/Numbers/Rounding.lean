/-
Rounding to a binary floating-point format.

A format has a precision, the exponent of its least unit and a bound.  A rational is
rounded to the nearest multiple of its unit, and of two nearest ones to the even one.
What is rounded to the bound or beyond becomes infinite, and what the format has is not
changed.
-/
import Mathlib.Algebra.Order.Field.Power
import Mathlib.Data.Int.Log
import Mathlib.Data.Rat.Floor
import Mathlib.Tactic.Linarith
import Mathlib.Tactic.NormNum
import Mathlib.Tactic.Positivity
import Mathlib.Tactic.Ring

namespace Rounding

/-! ## Rounding to integers -/

/-- The nearest integer, and the even one of two. -/
def roundHalfEven (x : ℚ) : ℤ :=
  if Int.fract x < 1 / 2 then ⌊x⌋
  else if 1 / 2 < Int.fract x then ⌊x⌋ + 1
  else if ⌊x⌋ % 2 = 0 then ⌊x⌋
  else ⌊x⌋ + 1

@[simp] theorem roundHalfEven_intCast (n : ℤ) : roundHalfEven n = n := by
  simp [roundHalfEven]

@[simp] theorem roundHalfEven_zero : roundHalfEven 0 = 0 := roundHalfEven_intCast 0

theorem floor_le_roundHalfEven (x : ℚ) : ⌊x⌋ ≤ roundHalfEven x := by
  unfold roundHalfEven
  split
  · exact le_rfl
  · split
    · omega
    · split <;> omega

theorem le_roundHalfEven {n : ℤ} {x : ℚ} (h : n ≤ x) : n ≤ roundHalfEven x :=
  (Int.le_floor.mpr h).trans (floor_le_roundHalfEven x)

theorem roundHalfEven_le {n : ℤ} {x : ℚ} (h : x ≤ n) : roundHalfEven x ≤ n := by
  have hfloor : (⌊x⌋ : ℚ) + Int.fract x = x := Int.floor_add_fract x
  by_cases hfract : Int.fract x < 1 / 2
  · rw [roundHalfEven, if_pos hfract]
    have hle : (⌊x⌋ : ℚ) ≤ n := (Int.floor_le x).trans h
    exact_mod_cast hle
  · have hlt : (⌊x⌋ : ℚ) < n := by linarith
    have hlt' : ⌊x⌋ < n := by exact_mod_cast hlt
    unfold roundHalfEven
    rw [if_neg hfract]
    split
    · omega
    · split <;> omega

/-- A tie below an even integer goes to that integer. -/
theorem roundHalfEven_lt_iff {n : ℤ} (hn : n % 2 = 0) {x : ℚ} :
    roundHalfEven x < n ↔ x < n - 1 / 2 := by
  have hfloor : (⌊x⌋ : ℚ) + Int.fract x = x := Int.floor_add_fract x
  have hone := Int.fract_lt_one x
  have hnonneg := Int.fract_nonneg x
  unfold roundHalfEven
  split
  · rename_i hlt
    rw [← Int.le_sub_one_iff]
    constructor
    · intro h
      have h' : (⌊x⌋ : ℚ) ≤ n - 1 := by exact_mod_cast h
      linarith
    · intro h
      have h' : (⌊x⌋ : ℚ) < n := by linarith
      exact Int.le_sub_one_iff.mpr (by exact_mod_cast h')
  · rename_i hge
    have hup : ⌊x⌋ + 1 < n ↔ x < n - 1 / 2 := by
      constructor
      · intro h
        have hle : ⌊x⌋ + 2 ≤ n := by omega
        have h' : (⌊x⌋ : ℚ) + 2 ≤ n := by exact_mod_cast hle
        linarith
      · intro h
        have h' : (⌊x⌋ : ℚ) + 1 < n := by linarith
        exact_mod_cast h'
    split
    · exact hup
    · split
      · rename_i heven
        rw [← hup]
        omega
      · exact hup

/-- A number is moved by one half at most. -/
theorem abs_roundHalfEven_sub_le (x : ℚ) : |roundHalfEven x - x| ≤ 1 / 2 := by
  have hfloor : (⌊x⌋ : ℚ) + Int.fract x = x := Int.floor_add_fract x
  have hone := Int.fract_lt_one x
  have hnonneg := Int.fract_nonneg x
  rw [abs_le]
  unfold roundHalfEven
  split
  · constructor <;> linarith
  · split
    · push_cast
      constructor <;> linarith
    · split
      · constructor <;> linarith
      · push_cast
        constructor <;> linarith

/-! ## Formats -/

/-- Of all multiples of a unit, a format has those with as many digits as its precision.
The units are powers of two from the one of `minExponent` on, and everything is below that
of `maxExponent`. -/
structure Format where
  precision : ℕ
  minExponent : ℤ
  maxExponent : ℤ
  precision_pos : 0 < precision
  exponent_le : minExponent + precision ≤ maxExponent

def binary64 : Format where
  precision := 53
  minExponent := -1074
  maxExponent := 1024
  precision_pos := by decide
  exponent_le := by decide

namespace Format

variable (F : Format) {q : ℚ}

/-- The exponent of the unit of `q`, which is not negative. -/
def exponent (q : ℚ) : ℤ := max F.minExponent (Int.log 2 q + 1 - F.precision)

/-- The multiple of its unit that is nearest to `q`. -/
def roundAbs (q : ℚ) : ℚ := roundHalfEven (q / 2 ^ F.exponent q) * 2 ^ F.exponent q

/-- What is rounded below it stays below the bound. -/
def limit : ℚ := 2 ^ F.maxExponent - 2 ^ (F.maxExponent - F.precision - 1)

/-- The format has the number. -/
def Representable (q : ℚ) : Prop :=
  |q| < 2 ^ F.maxExponent ∧
    ∃ m e : ℤ, |m| < 2 ^ F.precision ∧ F.minExponent ≤ e ∧ q = m * 2 ^ e

theorem lt_two_zpow_exponent (q : ℚ) : q < 2 ^ (F.exponent q + F.precision) := by
  have hlog : q < (2 : ℕ) ^ (Int.log 2 q + 1) := Int.lt_zpow_succ_log_self (by decide) q
  refine lt_of_lt_of_le hlog ?_
  rw [Nat.cast_ofNat]
  refine zpow_le_zpow_right₀ (by norm_num) ?_
  have hle := le_max_right F.minExponent (Int.log 2 q + 1 - F.precision)
  rw [exponent]
  omega

theorem two_zpow_exponent_le (hq : 0 < q) (h : F.minExponent < F.exponent q) :
    2 ^ (F.exponent q + F.precision - 1) ≤ q := by
  have hlog : ((2 : ℕ) : ℚ) ^ Int.log 2 q ≤ q := Int.zpow_log_le_self (by decide) hq
  rw [Nat.cast_ofNat] at hlog
  have hexponent : F.exponent q + F.precision - 1 = Int.log 2 q := by
    rw [exponent] at h ⊢
    omega
  rwa [hexponent]

theorem minExponent_le (q : ℚ) : F.minExponent ≤ F.exponent q := le_max_left _ _

theorem two_zpow_pos (e : ℤ) : (0 : ℚ) < 2 ^ e := by positivity

theorem roundAbs_nonneg (hq : 0 ≤ q) : 0 ≤ F.roundAbs q := by
  have hpos := two_zpow_pos (F.exponent q)
  have hdiv : ((0 : ℤ) : ℚ) ≤ q / 2 ^ F.exponent q := by
    rw [Int.cast_zero]
    exact div_nonneg hq hpos.le
  have hround : (0 : ℚ) ≤ roundHalfEven (q / 2 ^ F.exponent q) := by
    exact_mod_cast le_roundHalfEven hdiv
  exact mul_nonneg hround hpos.le

theorem two_zpow_add (e : ℤ) (k : ℕ) : (2 : ℚ) ^ (e + k) = ((2 ^ k : ℤ) : ℚ) * 2 ^ e := by
  rw [zpow_add₀ two_ne_zero, zpow_natCast, mul_comm]
  push_cast
  rfl

/-- There are at most `2 ^ F.precision` units. -/
theorem round_units_le (q : ℚ) : roundHalfEven (q / 2 ^ F.exponent q) ≤ 2 ^ F.precision := by
  refine roundHalfEven_le ?_
  rw [div_le_iff₀ (two_zpow_pos _), ← two_zpow_add]
  exact (F.lt_two_zpow_exponent q).le

/-- A number is moved by half a unit at most. -/
theorem abs_roundAbs_sub_le (q : ℚ) : |F.roundAbs q - q| ≤ 2 ^ F.exponent q / 2 := by
  have hpos := two_zpow_pos (F.exponent q)
  have hunits : F.roundAbs q - q =
      (roundHalfEven (q / 2 ^ F.exponent q) - q / 2 ^ F.exponent q) * 2 ^ F.exponent q := by
    rw [roundAbs, sub_mul, div_mul_cancel₀ _ hpos.ne']
  have hhalf := mul_le_mul_of_nonneg_right
    (abs_roundHalfEven_sub_le (q / 2 ^ F.exponent q)) hpos.le
  rw [hunits, abs_mul, abs_of_pos hpos]
  linarith

/-- Numbers with few digits have small units. -/
theorem exponent_le_of_lt {e : ℤ} (hq : 0 < q) (he : F.minExponent ≤ e)
    (h : q < 2 ^ (e + F.precision)) : F.exponent q ≤ e := by
  have hlog := (Int.lt_zpow_iff_log_lt (b := 2) (by decide) hq).mp (by exact_mod_cast h)
  rw [exponent]
  omega

theorem limit_pos : 0 < F.limit := by
  have hlt : (2 : ℚ) ^ (F.maxExponent - F.precision - 1) < 2 ^ F.maxExponent :=
    zpow_lt_zpow_right₀ (by norm_num) (by omega)
  rw [limit]
  linarith

theorem roundAbs_zero : F.roundAbs 0 = 0 := by
  rw [roundAbs, zero_div, roundHalfEven_zero, Int.cast_zero, zero_mul]

/-- In units that begin at the bound or beyond it, everything is rounded there. -/
theorem le_roundAbs (hq : 0 < q) (h : F.maxExponent < F.exponent q + F.precision) :
    2 ^ F.maxExponent ≤ q ∧ 2 ^ F.maxExponent ≤ F.roundAbs q := by
  have hpos := two_zpow_pos (F.exponent q)
  have hexponent : F.minExponent < F.exponent q := by
    have hle := F.exponent_le
    omega
  have hlower := F.two_zpow_exponent_le hq hexponent
  have hbound : (2 : ℚ) ^ F.maxExponent ≤ 2 ^ (F.exponent q + F.precision - 1) :=
    zpow_le_zpow_right₀ (by norm_num) (by omega)
  obtain ⟨k, hk⟩ := Nat.exists_eq_succ_of_ne_zero (Nat.pos_iff_ne_zero.mp F.precision_pos)
  have hpred : F.exponent q + F.precision - 1 = F.exponent q + (k : ℕ) := by
    rw [hk]
    push_cast
    ring
  refine ⟨hbound.trans hlower, hbound.trans ?_⟩
  rw [hpred, two_zpow_add] at hlower ⊢
  rw [roundAbs]
  refine mul_le_mul_of_nonneg_right ?_ hpos.le
  exact_mod_cast le_roundHalfEven ((le_div_iff₀ hpos).mpr hlower)

/-- The result is below the bound if and only if the number is below the limit. -/
theorem roundAbs_lt_iff (hq : 0 ≤ q) : F.roundAbs q < 2 ^ F.maxExponent ↔ q < F.limit := by
  rcases hq.eq_or_lt with rfl | hq
  · rw [roundAbs_zero]
    exact iff_of_true (two_zpow_pos _) F.limit_pos
  have hpos := two_zpow_pos (F.exponent q)
  have hupper := F.lt_two_zpow_exponent q
  rcases lt_trichotomy (F.exponent q + F.precision) F.maxExponent with hlt | heq | hgt
  · -- Both are below the next smaller power of two.
    have hhalf : (2 : ℚ) ^ F.maxExponent = 2 * 2 ^ (F.maxExponent - 1) := by
      rw [zpow_sub_one₀ two_ne_zero]
      ring
    have hsmall : (2 : ℚ) ^ (F.maxExponent - F.precision - 1) ≤ 2 ^ (F.maxExponent - 1) :=
      zpow_le_zpow_right₀ (by norm_num) (by omega)
    have hbelow : (2 : ℚ) ^ (F.exponent q + F.precision) ≤ 2 ^ (F.maxExponent - 1) :=
      zpow_le_zpow_right₀ (by norm_num) (by omega)
    have hround : F.roundAbs q ≤ 2 ^ (F.exponent q + F.precision) := by
      rw [two_zpow_add, roundAbs]
      exact mul_le_mul_of_nonneg_right (by exact_mod_cast F.round_units_le q) hpos.le
    have hpos' := two_zpow_pos (F.maxExponent - 1)
    refine iff_of_true (by linarith) ?_
    rw [limit]
    linarith
  · -- The units are those at the bound, and a tie goes to it.
    have heven : (2 ^ F.precision : ℤ) % 2 = 0 := by
      obtain ⟨k, hk⟩ := Nat.exists_eq_succ_of_ne_zero (Nat.pos_iff_ne_zero.mp F.precision_pos)
      rw [hk, pow_succ]
      omega
    have hunit : (2 : ℚ) ^ (F.maxExponent - F.precision - 1) = 2 ^ F.exponent q / 2 := by
      rw [← heq, add_sub_cancel_right, zpow_sub_one₀ two_ne_zero]
      ring
    rw [limit, hunit, ← heq, two_zpow_add, roundAbs, mul_lt_mul_iff_left₀ hpos, Int.cast_lt,
      roundHalfEven_lt_iff heven, div_lt_iff₀ hpos, sub_mul]
    constructor <;> intro h <;> linarith
  · obtain ⟨hbound, hround⟩ := F.le_roundAbs hq hgt
    have hpos' := two_zpow_pos (F.maxExponent - F.precision - 1)
    refine iff_of_false (not_lt.mpr hround) (not_lt.mpr ?_)
    rw [limit]
    linarith

/-- What the format has is not changed. -/
theorem roundAbs_of_representable (hq : 0 ≤ q) (h : F.Representable q) : F.roundAbs q = q := by
  rcases hq.eq_or_lt with rfl | hq
  · exact F.roundAbs_zero
  obtain ⟨_, m, e, hm, he, hme⟩ := h
  have hpos := two_zpow_pos (F.exponent q)
  -- The unit divides that of the number.
  have hle : F.exponent q ≤ e := by
    have hm' : (m : ℚ) < ((2 ^ F.precision : ℤ) : ℚ) := by
      exact_mod_cast (le_abs_self m).trans_lt hm
    have hlt : q < 2 ^ (e + F.precision) := by
      rw [two_zpow_add, hme]
      exact mul_lt_mul_of_pos_right hm' (two_zpow_pos e)
    have hlog := (Int.lt_zpow_iff_log_lt (b := 2) (by decide) hq).mp (by exact_mod_cast hlt)
    rw [exponent]
    omega
  obtain ⟨k, hk⟩ := Int.eq_ofNat_of_zero_le (sub_nonneg.mpr hle)
  have hsplit : e = F.exponent q + (k : ℕ) := by omega
  have hunits : q / 2 ^ F.exponent q = ((m * 2 ^ k : ℤ) : ℚ) := by
    rw [div_eq_iff hpos.ne', Int.cast_mul, mul_assoc, ← two_zpow_add, ← hsplit]
    exact hme
  rw [roundAbs, hunits, roundHalfEven_intCast, ← hunits, div_mul_cancel₀ _ hpos.ne']

/-- The result is a number of the format unless it reaches the bound. -/
theorem representable_roundAbs (hq : 0 ≤ q) (h : F.roundAbs q < 2 ^ F.maxExponent) :
    F.Representable (F.roundAbs q) := by
  refine ⟨by rwa [abs_of_nonneg (F.roundAbs_nonneg hq)], ?_⟩
  have hnonneg : 0 ≤ roundHalfEven (q / 2 ^ F.exponent q) := by
    refine le_roundHalfEven ?_
    rw [Int.cast_zero]
    exact div_nonneg hq (two_zpow_pos _).le
  rcases (F.round_units_le q).lt_or_eq with hlt | heq
  · exact ⟨_, _, by rwa [abs_of_nonneg hnonneg], F.minExponent_le q, rfl⟩
  · -- A carry: the number is half as many units of twice the size.
    obtain ⟨k, hk⟩ := Nat.exists_eq_succ_of_ne_zero (Nat.pos_iff_ne_zero.mp F.precision_pos)
    have hlt : (2 ^ k : ℤ) < 2 ^ F.precision := by
      rw [hk]
      exact pow_lt_pow_right₀ (by norm_num) (Nat.lt_succ_self k)
    have hle := F.minExponent_le q
    refine ⟨2 ^ k, F.exponent q + 1, by rwa [abs_of_nonneg (by positivity)], by omega, ?_⟩
    rw [roundAbs, heq, hk, zpow_add_one₀ two_ne_zero, pow_succ]
    push_cast
    ring

/-- An integer stays one. -/
theorem exists_roundAbs_intCast (n : ℤ) : ∃ m : ℤ, F.roundAbs n = m := by
  have hpos := two_zpow_pos (F.exponent n)
  rcases le_total 0 (F.exponent n) with hle | hle
  · obtain ⟨k, hk⟩ := Int.eq_ofNat_of_zero_le hle
    refine ⟨roundHalfEven (n / 2 ^ F.exponent n) * 2 ^ k, ?_⟩
    rw [roundAbs, hk, zpow_natCast]
    push_cast
    rfl
  · -- The unit divides one.
    obtain ⟨k, hk⟩ := Int.eq_ofNat_of_zero_le (neg_nonneg.mpr hle)
    have hneg : F.exponent n = -(k : ℤ) := by omega
    have hunits : (n : ℚ) / 2 ^ F.exponent n = ((n * 2 ^ k : ℤ) : ℚ) := by
      rw [hneg, zpow_neg, div_inv_eq_mul, zpow_natCast]
      push_cast
      rfl
    exact ⟨n, by rw [roundAbs, hunits, roundHalfEven_intCast, ← hunits,
      div_mul_cancel₀ _ hpos.ne']⟩

/-! ## Signed numbers -/

/-- Numbers are rounded alike on both sides of zero. -/
def round (q : ℚ) : ℚ := if q < 0 then -F.roundAbs |q| else F.roundAbs |q|

theorem abs_round (q : ℚ) : |F.round q| = F.roundAbs |q| := by
  have hnonneg := F.roundAbs_nonneg (abs_nonneg q)
  unfold round
  split
  · rw [abs_neg, abs_of_nonneg hnonneg]
  · rw [abs_of_nonneg hnonneg]

/-- The error of numbers with units of `2 ^ e` or smaller ones. -/
theorem abs_round_sub_le {e : ℤ} (he : F.minExponent ≤ e) (h : |q| < 2 ^ (e + F.precision)) :
    |F.round q - q| ≤ 2 ^ e / 2 := by
  have hround : |F.round q - q| = abs (F.roundAbs |q| - |q|) := by
    unfold round
    split
    · rename_i hneg
      rw [abs_of_neg hneg, sub_neg_eq_add, ← abs_neg, neg_sub, sub_neg_eq_add, add_comm]
    · rename_i hge
      rw [abs_of_nonneg (not_lt.mp hge)]
  rw [hround]
  rcases (abs_nonneg q).eq_or_lt with hzero | hpos
  · rw [← hzero, roundAbs_zero, sub_zero, abs_zero]
    exact (half_pos (two_zpow_pos e)).le
  · have hexponent := F.exponent_le_of_lt hpos he h
    have hunit : (2 : ℚ) ^ F.exponent |q| ≤ 2 ^ e := zpow_le_zpow_right₀ (by norm_num) hexponent
    exact (F.abs_roundAbs_sub_le |q|).trans (by linarith)

theorem abs_round_lt_iff (q : ℚ) : |F.round q| < 2 ^ F.maxExponent ↔ |q| < F.limit := by
  rw [abs_round, F.roundAbs_lt_iff (abs_nonneg q)]

theorem Representable.neg {F : Format} (h : F.Representable q) : F.Representable (-q) := by
  obtain ⟨hbound, m, e, hm, he, hme⟩ := h
  refine ⟨by rwa [abs_neg], -m, e, by rwa [abs_neg], he, ?_⟩
  rw [hme]
  push_cast
  ring

theorem Representable.abs {F : Format} (h : F.Representable q) : F.Representable |q| := by
  rcases abs_choice q with habs | habs
  · rwa [habs]
  · rw [habs]
    exact h.neg

/-- The integers that have as many digits as the precision. -/
theorem representable_intCast {n : ℤ} (hmin : F.minExponent ≤ 0)
    (hmax : (F.precision : ℤ) ≤ F.maxExponent) (h : |n| < 2 ^ F.precision) :
    F.Representable n := by
  refine ⟨?_, n, 0, h, hmin, by rw [zpow_zero, mul_one]⟩
  have hcast : |(n : ℚ)| < 2 ^ F.precision := by exact_mod_cast h
  rw [← zpow_natCast] at hcast
  exact hcast.trans_le (zpow_le_zpow_right₀ (by norm_num) hmax)

theorem round_of_representable (h : F.Representable q) : F.round q = q := by
  rw [round, F.roundAbs_of_representable (abs_nonneg q) h.abs]
  split
  · rename_i hneg
    rw [abs_of_neg hneg, neg_neg]
  · rename_i hge
    exact abs_of_nonneg (not_lt.mp hge)

theorem representable_round (h : |F.round q| < 2 ^ F.maxExponent) :
    F.Representable (F.round q) := by
  rw [abs_round] at h
  have hrepresentable := F.representable_roundAbs (abs_nonneg q) h
  unfold round
  split
  · exact hrepresentable.neg
  · exact hrepresentable

theorem exists_round_intCast (n : ℤ) : ∃ m : ℤ, F.round n = m := by
  obtain ⟨m, hm⟩ := F.exists_roundAbs_intCast |n|
  rw [Int.cast_abs] at hm
  rw [round, hm]
  split
  · exact ⟨-m, (Int.cast_neg m).symm⟩
  · exact ⟨m, rfl⟩

end Format

end Rounding
