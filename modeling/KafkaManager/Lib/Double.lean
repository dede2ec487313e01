import Mathlib.Data.Int.Log
import Mathlib.Data.Rat.Floor
import Mathlib.Tactic.Linarith
import Mathlib.Tactic.NormNum

/-!
# Numbers of binary64

A finite number of binary64 is at most 53 bits times a power of two that is not
below the smallest one. `toDouble` rounds a rational number to the nearest of
them, and to the one with an even significand if there are two; what would need
a larger exponent than there is has none. Zero has no sign here.
-/

namespace Lib

def IsDouble (x : ℚ) : Prop :=
  ∃ m e : Int, |m| < 2 ^ 53 ∧ -1074 ≤ e ∧ x = m * 2 ^ e ∧ |x| < 2 ^ 1024

/-- A finite number. -/
@[ext]
structure Double where
  value : ℚ
  isDouble : IsDouble value

/-- The nearest integer, the even one if there are two. -/
def roundEven (q : ℚ) : Int :=
  if Int.fract q < 1 / 2 ∨ (Int.fract q = 1 / 2 ∧ ⌊q⌋ % 2 = 0) then ⌊q⌋ else ⌊q⌋ + 1

theorem roundEven_intCast (n : Int) : roundEven n = n := by
  rw [roundEven, Int.fract_intCast, Int.floor_intCast, if_pos (.inl (by norm_num))]

/-- Rounding does not go past an integer. -/
theorem roundEven_le {q : ℚ} {n : Int} (h : q ≤ n) : roundEven q ≤ n := by
  unfold roundEven
  split
  · exact Int.cast_le.1 ((Int.floor_le q).trans h)
  · next hup =>
      -- an integer is not rounded up
      have hne : q ≠ n := by
        rintro rfl
        exact hup (.inl (by rw [Int.fract_intCast]; norm_num))
      exact Int.add_one_le_of_lt (Int.floor_lt.2 (lt_of_le_of_ne h hne))

theorem le_roundEven {q : ℚ} {n : Int} (h : n ≤ q) : n ≤ roundEven q := by
  have hfloor : n ≤ ⌊q⌋ := Int.le_floor.2 h
  unfold roundEven
  split
  · exact hfloor
  · omega

/-- The exponent of the last bit a number has. -/
def lastBit (q : ℚ) : Int := max (Int.log 2 |q| - 52) (-1074)

def roundDouble (q : ℚ) : ℚ := roundEven (q / 2 ^ lastBit q) * 2 ^ lastBit q

theorem two_zpow_pos (e : Int) : (0 : ℚ) < 2 ^ e := zpow_pos (by norm_num) e

theorem two_zpow_add (a b : Int) : (2 : ℚ) ^ (a + b) = 2 ^ a * 2 ^ b :=
  zpow_add₀ (by norm_num) a b

/-- The significand has 53 bits. -/
theorem significand_lt (q : ℚ) : |q / 2 ^ lastBit q| < 2 ^ 53 := by
  have hpos := two_zpow_pos (lastBit q)
  have hlog : Int.log 2 |q| + 1 ≤ 53 + lastBit q := by
    unfold lastBit
    omega
  rw [abs_div, abs_of_pos hpos, div_lt_iff₀ hpos]
  calc |q| < 2 ^ (Int.log 2 |q| + 1) := Int.lt_zpow_succ_log_self (by norm_num) |q|
    _ ≤ 2 ^ (53 + lastBit q) := zpow_le_zpow_right₀ (by norm_num) hlog
    _ = 2 ^ 53 * 2 ^ lastBit q := two_zpow_add 53 (lastBit q)

theorem roundDouble_form (q : ℚ) :
    ∃ m e : Int, |m| < 2 ^ 53 ∧ -1074 ≤ e ∧ roundDouble q = m * 2 ^ e := by
  obtain ⟨hlow, hhigh⟩ := abs_lt.1 (significand_lt q)
  have habove : roundEven (q / 2 ^ lastBit q) ≤ 2 ^ 53 :=
    roundEven_le (by push_cast; exact hhigh.le)
  have hbelow : -2 ^ 53 ≤ roundEven (q / 2 ^ lastBit q) :=
    le_roundEven (by push_cast; exact hlow.le)
  have hbit : -1074 ≤ lastBit q := le_max_right _ _
  rcases lt_or_eq_of_le (abs_le.2 ⟨hbelow, habove⟩) with hlt | hcarry
  · exact ⟨_, _, hlt, hbit, rfl⟩
  · -- a carry out of the significand
    rcases eq_or_eq_neg_of_abs_eq hcarry with hm | hm
    · refine ⟨2 ^ 52, lastBit q + 1, by norm_num, by omega, ?_⟩
      rw [roundDouble, hm, two_zpow_add]
      norm_num
      ring
    · refine ⟨-2 ^ 52, lastBit q + 1, by norm_num, by omega, ?_⟩
      rw [roundDouble, hm, two_zpow_add]
      norm_num
      ring

/-- What is a number of this form is left as it is. -/
theorem roundDouble_eq {m e : Int} (hm : |m| < 2 ^ 53) (he : -1074 ≤ e) :
    roundDouble (m * 2 ^ e) = m * 2 ^ e := by
  rcases eq_or_ne m 0 with rfl | hne
  · simp [roundDouble, roundEven]
  · have hpos := two_zpow_pos e
    have habs : |(m * 2 ^ e : ℚ)| = |(m : ℚ)| * 2 ^ e := by rw [abs_mul, abs_of_pos hpos]
    have hm' : |(m : ℚ)| < 2 ^ 53 := by exact_mod_cast hm
    -- the last bit is not above the exponent, so that the quotient is an integer
    have hlog : Int.log 2 |(m * 2 ^ e : ℚ)| < 53 + e := by
      rw [← Int.lt_zpow_iff_log_lt (by norm_num) (by rw [habs]; positivity), habs]
      calc |(m : ℚ)| * 2 ^ e < 2 ^ 53 * 2 ^ e := by gcongr
        _ = ((2 : Nat) : ℚ) ^ (53 + e) := by rw [Nat.cast_ofNat, two_zpow_add]; rfl
    have hbit : lastBit (m * 2 ^ e) ≤ e := by
      unfold lastBit
      omega
    obtain ⟨k, hk⟩ := Int.le.dest hbit
    have hquotient : (m * 2 ^ e : ℚ) / 2 ^ lastBit (m * 2 ^ e) = ((m * 2 ^ k : Int) : ℚ) := by
      rw [div_eq_iff (two_zpow_pos _).ne']
      push_cast
      rw [mul_assoc, ← zpow_natCast, ← two_zpow_add, add_comm (k : Int), hk]
    rw [roundDouble, hquotient, roundEven_intCast, ← hquotient, div_mul_cancel₀]
    exact (two_zpow_pos _).ne'

/-- Rounding does not go below a number that needs none. -/
theorem le_roundDouble {m e : Int} {q : ℚ} (hm : |m| < 2 ^ 53) (he : -1074 ≤ e)
    (h : (m * 2 ^ e : ℚ) ≤ q) : (m * 2 ^ e : ℚ) ≤ roundDouble q := by
  have hbitPos := two_zpow_pos (lastBit q)
  rcases le_or_gt (lastBit q) e with hbit | hbit
  · -- a multiple of the last bit
    obtain ⟨k, hk⟩ := Int.le.dest hbit
    have hmultiple : (m * 2 ^ e : ℚ) = ((m * 2 ^ k : Int) : ℚ) * 2 ^ lastBit q := by
      push_cast
      rw [mul_assoc, ← zpow_natCast, ← two_zpow_add, add_comm (k : Int), hk]
    rw [hmultiple] at h ⊢
    rw [roundDouble]
    have hround := le_roundEven ((le_div_iff₀ hbitPos).2 h)
    have hcast : ((m * 2 ^ k : Int) : ℚ) ≤ (roundEven (q / 2 ^ lastBit q) : ℚ) := by
      exact_mod_cast hround
    gcongr
  · rcases eq_or_ne q 0 with rfl | hne
    · simpa [roundDouble, roundEven] using h
    · -- the significand of `q` is used to its first bit
      have hlog : Int.log 2 |q| = 52 + lastBit q := by
        unfold lastBit at hbit ⊢
        omega
      have hfull : (2 : ℚ) ^ 52 * 2 ^ lastBit q ≤ |q| := by
        have hle := Int.zpow_log_le_self (b := 2) (by norm_num) (abs_pos.2 hne)
        rw [hlog, Nat.cast_ofNat, two_zpow_add] at hle
        exact hle
      have hcoarse : (2 : ℚ) ^ 53 * 2 ^ e ≤ 2 ^ 52 * 2 ^ lastBit q := by
        have hexp : (2 : ℚ) ^ (53 + e) ≤ 2 ^ (52 + lastBit q) :=
          zpow_le_zpow_right₀ (by norm_num) (by omega)
        rw [two_zpow_add, two_zpow_add] at hexp
        exact hexp
      have hsmall : |(m * 2 ^ e : ℚ)| < 2 ^ 53 * 2 ^ e := by
        have hm' : |(m : ℚ)| < 2 ^ 53 := by exact_mod_cast hm
        rw [abs_mul, abs_of_pos (two_zpow_pos e)]
        exact mul_lt_mul_of_pos_right hm' (two_zpow_pos e)
      have hqpos : 0 < q := by
        by_contra hneg
        rw [abs_of_nonpos (not_lt.1 hneg)] at hfull
        linarith [neg_abs_le (m * 2 ^ e : ℚ)]
      rw [abs_of_pos hqpos] at hfull
      have hround : 2 ^ 52 ≤ roundEven (q / 2 ^ lastBit q) :=
        le_roundEven (by push_cast; exact (le_div_iff₀ hbitPos).2 hfull)
      have hcast : (2 : ℚ) ^ 52 ≤ (roundEven (q / 2 ^ lastBit q) : ℚ) := by exact_mod_cast hround
      calc (m * 2 ^ e : ℚ) ≤ |(m * 2 ^ e : ℚ)| := le_abs_self _
        _ ≤ 2 ^ 52 * 2 ^ lastBit q := hsmall.le.trans hcoarse
        _ ≤ roundDouble q := mul_le_mul_of_nonneg_right hcast hbitPos.le

theorem roundEven_error (q : ℚ) : |(roundEven q : ℚ) - q| ≤ 1 / 2 := by
  have hsplit := Int.floor_add_fract q
  have hnonneg := Int.fract_nonneg q
  have hlt := Int.fract_lt_one q
  rw [abs_le]
  unfold roundEven
  split
  · next h =>
      have hle : Int.fract q ≤ 1 / 2 := by
        rcases h with h | ⟨h, -⟩
        · exact h.le
        · exact h.le
      constructor <;> linarith
  · next h =>
      have hge : 1 / 2 ≤ Int.fract q := not_lt.1 fun hlt => h (.inl hlt)
      push_cast
      constructor <;> linarith

theorem roundDouble_error (q : ℚ) : |roundDouble q - q| ≤ 2 ^ lastBit q / 2 := by
  have hpos := two_zpow_pos (lastBit q)
  have hscaled : roundDouble q - q =
      ((roundEven (q / 2 ^ lastBit q) : ℚ) - q / 2 ^ lastBit q) * 2 ^ lastBit q := by
    rw [roundDouble, sub_mul, div_mul_cancel₀ _ hpos.ne']
  rw [hscaled, abs_mul, abs_of_pos hpos]
  calc |(roundEven (q / 2 ^ lastBit q) : ℚ) - q / 2 ^ lastBit q| * 2 ^ lastBit q
      ≤ 1 / 2 * 2 ^ lastBit q := mul_le_mul_of_nonneg_right (roundEven_error _) hpos.le
    _ = 2 ^ lastBit q / 2 := by ring

theorem roundEven_neg (q : ℚ) : roundEven (-q) = -roundEven q := by
  rcases eq_or_ne (Int.fract q) 0 with hint | hne
  · obtain ⟨n, rfl⟩ := Int.fract_eq_zero_iff.1 hint
    rw [← Int.cast_neg, roundEven_intCast, roundEven_intCast]
  · have hfract : Int.fract (-q) = 1 - Int.fract q := Int.fract_neg hne
    have hfloor : ⌊-q⌋ = -⌊q⌋ - 1 := by
      have hsplit := Int.floor_add_fract (-q)
      have hsplit' := Int.floor_add_fract q
      have hcast : ((⌊-q⌋ : Int) : ℚ) = ((-⌊q⌋ - 1 : Int) : ℚ) := by
        push_cast
        linarith
      exact Int.cast_injective hcast
    rw [roundEven, roundEven, hfract, hfloor]
    rcases lt_trichotomy (Int.fract q) (1 / 2) with hlt | heq | hgt
    · rw [if_neg (by rintro (h | ⟨h, -⟩) <;> linarith), if_pos (.inl hlt)]
      omega
    · -- one of two neighbours is even
      have hhalf : (1 : ℚ) - 1 / 2 = 1 / 2 := by norm_num
      rw [heq, hhalf]
      simp only [lt_irrefl, true_and, false_or]
      split
      · next h =>
          rw [if_neg (by omega)]
          omega
      · next h =>
          rw [if_pos (by omega)]
          omega
    · rw [if_pos (.inl (by linarith)), if_neg (by rintro (h | ⟨h, -⟩) <;> linarith)]
      omega

theorem roundDouble_neg (q : ℚ) : roundDouble (-q) = -roundDouble q := by
  have hbit : lastBit (-q) = lastBit q := by rw [lastBit, lastBit, abs_neg]
  rw [roundDouble, roundDouble, hbit, neg_div, roundEven_neg]
  push_cast
  ring

/-- The number a rational number is rounded to. -/
def toDouble (q : ℚ) : Option Double :=
  if h : |roundDouble q| < 2 ^ 1024 then
    some
      { value := roundDouble q
        isDouble := by
          obtain ⟨m, e, hm, he, heq⟩ := roundDouble_form q
          exact ⟨m, e, hm, he, heq, h⟩ }
  else none

/-- A number is rounded to itself. -/
theorem toDouble_value (x : Double) : toDouble x.value = some x := by
  obtain ⟨m, e, hm, he, heq, hlt⟩ := x.isDouble
  have hround : roundDouble x.value = x.value := by
    rw [heq]
    exact roundDouble_eq hm he
  rw [toDouble, dif_pos (by rw [hround]; exact hlt)]
  exact congrArg some (Double.ext hround)

theorem IsDouble.abs {x : ℚ} (h : IsDouble x) : IsDouble |x| := by
  obtain ⟨m, e, hm, he, heq, hlt⟩ := h
  refine ⟨|m|, e, by rwa [abs_abs], he, ?_, by rwa [abs_abs]⟩
  rw [heq, abs_mul, abs_of_pos (two_zpow_pos e), Int.cast_abs]

theorem IsDouble.neg {x : ℚ} (h : IsDouble x) : IsDouble (-x) := by
  obtain ⟨m, e, hm, he, heq, hlt⟩ := h
  refine ⟨-m, e, by rwa [abs_neg], he, ?_, by rwa [abs_neg]⟩
  rw [heq, Int.cast_neg, neg_mul]

namespace Double

def abs (x : Double) : Double := ⟨|x.value|, x.isDouble.abs⟩

def neg (x : Double) : Double := ⟨-x.value, x.isDouble.neg⟩

end Double

theorem toDouble_neg (q : ℚ) : toDouble (-q) = (toDouble q).map Double.neg := by
  unfold toDouble
  split
  · next h =>
      rw [roundDouble_neg, abs_neg] at h
      rw [dif_pos h, Option.map_some]
      exact congrArg some (Double.ext (roundDouble_neg q))
  · next h =>
      rw [roundDouble_neg, abs_neg] at h
      rw [dif_neg h, Option.map_none]

theorem isDouble_intCast {n : Int} (h : |n| < 2 ^ 53) : IsDouble n := by
  refine ⟨n, 0, h, by decide, by simp, ?_⟩
  have hn : |(n : ℚ)| < 2 ^ 53 := by exact_mod_cast h
  exact hn.trans (pow_lt_pow_right₀ (by norm_num) (by norm_num))

/-- Integers of so many bits are not rounded. -/
theorem toDouble_intCast {n : Int} (h : |n| < 2 ^ 53) :
    ∃ x : Double, toDouble n = some x ∧ x.value = n :=
  ⟨_, toDouble_value ⟨n, isDouble_intCast h⟩, rfl⟩

end Lib
