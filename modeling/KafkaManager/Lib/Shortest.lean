import KafkaManager.Lib.JsNumber
import Mathlib.Tactic.Positivity

/-!
# Decimals that every implementation writes

`Number::toString` writes as few digits as it can. What it writes for a number
that came from a decimal is that decimal again if no other one of as few digits
is rounded to the same number, and only then: where there is a choice, an
implementation may make it either way. Integers below `2^53` have no such
neighbours.
-/

namespace Lib

/-- A number of binary64 is a decimal. -/
theorem Double.exists_decimal {x : Double} (h : 0 < x.value) :
    ∃ (s : Nat) (e : Int), 0 < s ∧ (s : ℚ) * 10 ^ e = x.value := by
  obtain ⟨m, e, -, -, heq, -⟩ := x.isDouble
  have hm : 0 < m := by
    have hpos : (0 : ℚ) < m := by
      rw [heq] at h
      exact (mul_pos_iff_of_pos_right (two_zpow_pos e)).1 h
    exact_mod_cast hpos
  obtain ⟨m, rfl⟩ := Int.eq_ofNat_of_zero_le hm.le
  have hm' : 0 < m := by omega
  rcases Int.le_total 0 e with he | he
  · obtain ⟨k, rfl⟩ := Int.eq_ofNat_of_zero_le he
    refine ⟨m * 2 ^ k, 0, by positivity, ?_⟩
    rw [heq]
    push_cast
    rw [zpow_natCast, mul_one]
  · -- a power of one half is a power of five and one of ten
    obtain ⟨k, hk⟩ := Int.eq_ofNat_of_zero_le (Int.neg_nonneg.2 he)
    obtain rfl : e = -(k : Int) := by omega
    refine ⟨m * 5 ^ k, -(k : Int), by positivity, ?_⟩
    have hten : (10 : ℚ) ^ k = 5 ^ k * 2 ^ k := by rw [← mul_pow]; norm_num
    rw [heq]
    push_cast
    rw [zpow_neg, zpow_neg, zpow_natCast, zpow_natCast, hten]
    field_simp

theorem Shortest.of_length_le {x : Double} {s s' : Nat} {e e' : Int} (h : Shortest x s e)
    (hpos : 0 < s') (hrounds : toDouble ((s' : ℚ) * 10 ^ e') = some x)
    (hle : (Nat.toDigits 10 s').length ≤ (Nat.toDigits 10 s).length) : Shortest x s' e' :=
  ⟨hpos, hrounds, fun t f ht hf => hle.trans (h.least t f ht hf)⟩

theorem exists_shortest {x : Double} (h : 0 < x.value) : ∃ s e, Shortest x s e := by
  obtain ⟨s, e, hs, heq⟩ := Double.exists_decimal h
  have hexists : ∃ (k s : Nat) (e : Int), 0 < s ∧ toDouble ((s : ℚ) * 10 ^ e) = some x ∧
      (Nat.toDigits 10 s).length = k :=
    ⟨_, s, e, hs, by rw [heq, toDouble_value], rfl⟩
  classical
  obtain ⟨s, e, hs, hrounds, hlength⟩ := Nat.find_spec hexists
  refine ⟨s, e, hs, hrounds, ?_⟩
  intro s' e' hs' hrounds'
  rw [hlength]
  exact Nat.find_min' hexists ⟨s', e', hs', hrounds', rfl⟩

/-- Whatever is as short as can be, some implementation writes it. -/
theorem exists_numberText {x : Double} {s : Nat} {e : Int} (h : Shortest x s e) :
    ∃ T : NumberText, T.digits x = (s, e) := by
  classical
  have hsome : ∀ y : Double, ∃ d : Nat × Int, 0 < y.value → Shortest y d.1 d.2 := by
    intro y
    by_cases hy : 0 < y.value
    · obtain ⟨s, e, hs⟩ := exists_shortest hy
      exact ⟨(s, e), fun _ => hs⟩
    · exact ⟨(0, 0), fun hpos => absurd hpos hy⟩
  choose digits hdigits using hsome
  refine ⟨⟨fun y => if y = x then (s, e) else digits y, ?_⟩, if_pos rfl⟩
  intro y hy
  split
  · next hyx =>
      rw [hyx]
      exact h
  · exact hdigits y hy

theorem numberText_nonempty : Nonempty NumberText := by
  obtain ⟨x, -, hx⟩ := toDouble_intCast (n := 1) (by norm_num)
  obtain ⟨s, e, hs⟩ := exists_shortest (x := x) (by rw [hx]; norm_num)
  obtain ⟨T, -⟩ := exists_numberText hs
  exact ⟨T⟩

/-! ## What is written is what was read -/

/-- The number is zero, or there are digits for it such that no other decimal of
no more digits is rounded to the same number. -/
def Sole (v : ℚ) : Prop :=
  v = 0 ∨ ∃ (s : Nat) (e : Int), |v| = s * 10 ^ e ∧
    ∀ (s' : Nat) (e' : Int), 0 < s' → toDouble ((s' : ℚ) * 10 ^ e') = toDouble |v| →
      (Nat.toDigits 10 s').length ≤ (Nat.toDigits 10 s).length → (s' : ℚ) * 10 ^ e' = |v|

/-- Integers are not rounded to zero. -/
theorem toDouble_pos {v : ℚ} {x : Double} (hv : 1 ≤ v) (h : toDouble v = some x) : 0 < x.value := by
  unfold toDouble at h
  split at h
  · obtain rfl := Option.some.inj h
    have hone := le_roundDouble (m := 1) (e := 0) (q := v) (by norm_num) (by norm_num)
      (by simpa using hv)
    norm_num at hone
    exact lt_of_lt_of_le one_pos hone
  · cases h

/-- The sign is kept. -/
theorem toDouble_abs {v : ℚ} {x : Double} (hv : 1 ≤ |v|) (h : toDouble v = some x) :
    toDouble |v| = some x.abs ∧ (x.value < 0 ↔ v < 0) ∧ 0 < |x.value| := by
  rcases le_or_gt 0 v with hpos | hneg
  · rw [abs_of_nonneg hpos] at hv ⊢
    have hx := toDouble_pos hv h
    refine ⟨?_, ⟨fun hlt => absurd hx hlt.not_gt, fun hlt => absurd hpos hlt.not_ge⟩,
      abs_pos.2 hx.ne'⟩
    rw [h]
    exact congrArg some (Double.ext (abs_of_pos hx).symm)
  · rw [abs_of_neg hneg] at hv ⊢
    have hminus : toDouble (-v) = some x.neg := by rw [toDouble_neg, h, Option.map_some]
    have hx : 0 < -x.value := toDouble_pos hv hminus
    refine ⟨?_, ⟨fun _ => hneg, fun _ => by linarith⟩, abs_pos.2 (by linarith)⟩
    rw [hminus]
    exact congrArg some (Double.ext (abs_of_neg (by linarith)).symm)

/-- An implementation writes a number as the decimal it came from if its digits
are those of the decimal. -/
theorem numeral_value (T : NumberText) {v : ℚ} {x : Double} (hv : 1 ≤ |v|)
    (h : toDouble v = some x) :
    (T.numeral x).value = v ↔ ((T.digits x.abs).1 : ℚ) * 10 ^ (T.digits x.abs).2 = |v| := by
  obtain ⟨-, hsign, hpos⟩ := toDouble_abs hv h
  rw [NumberText.numeral, dif_neg (abs_pos.1 hpos), Numeral.value_ofDecimal]
  rcases le_or_gt 0 v with hnonneg | hneg
  · rw [decide_eq_false (mt hsign.1 hnonneg.not_gt), if_neg (by simp), one_mul,
      abs_of_nonneg hnonneg]
  · rw [decide_eq_true (hsign.2 hneg), if_pos rfl, neg_one_mul, abs_of_neg hneg, neg_eq_iff_eq_neg]

/-- Every implementation writes the decimal again if and only if it is the only
one it might write. -/
theorem sole_iff {v : ℚ} {x : Double} (hv : v = 0 ∨ 1 ≤ |v|) (h : toDouble v = some x) :
    (∀ T : NumberText, (T.numeral x).value = v) ↔ Sole v := by
  rcases hv with rfl | hv
  · have hx : x.value = 0 := by
      obtain ⟨y, hy, hvalue⟩ := toDouble_intCast (n := 0) (by norm_num)
      rw [Int.cast_zero] at hy hvalue
      rw [Option.some.inj (h.symm.trans hy), hvalue]
    exact ⟨fun _ => .inl rfl, fun _ T => T.numeral_zero hx⟩
  · have hne : v ≠ 0 := by
      rintro rfl
      norm_num at hv
    obtain ⟨habs, -, hpos⟩ := toDouble_abs hv h
    have hpos' : 0 < x.abs.value := hpos
    constructor
    · intro hwritten
      obtain ⟨T⟩ := numberText_nonempty
      have hshortest := T.shortest x.abs hpos'
      refine .inr ⟨_, _, ((numeral_value T hv h).1 (hwritten T)).symm, ?_⟩
      intro s' e' hs' hrounds hlength
      rw [habs] at hrounds
      obtain ⟨T', hT'⟩ := exists_numberText (hshortest.of_length_le hs' hrounds hlength)
      have hvalue := (numeral_value T' hv h).1 (hwritten T')
      rwa [hT'] at hvalue
    · rintro (hzero | ⟨s, e, hvalue, hsole⟩) T
      · exact absurd hzero hne
      · have hshortest := T.shortest x.abs hpos'
        rw [numeral_value T hv h]
        refine hsole _ _ hshortest.pos (hshortest.rounds.trans habs.symm) ?_
        refine hshortest.least s e (Nat.pos_of_ne_zero ?_) (by rw [← hvalue, habs])
        rintro rfl
        norm_num at hvalue
        exact hne hvalue

/-! ## Integers of 53 bits -/

theorem roundDouble_of_toDouble {q : ℚ} {x : Double} (h : toDouble q = some x) :
    roundDouble q = x.value := by
  unfold toDouble at h
  split at h
  · rw [← Option.some.inj h]
  · cases h

/-- A number that needs a place behind the point and has no more digits than an
integer is not rounded to it. -/
theorem roundDouble_lt {a s : Nat} {e : Int} (ha : a < 2 ^ 53) (hpos : 0 < a) (hs : 0 < s)
    (he : e < 0) (hlength : (Nat.toDigits 10 s).length ≤ (Nat.toDigits 10 a).length) :
    roundDouble ((s : ℚ) * 10 ^ e) < a := by
  obtain ⟨d, hd⟩ : ∃ d, (Nat.toDigits 10 a).length = d + 1 :=
    Nat.exists_eq_succ_of_ne_zero Nat.length_toDigits_pos.ne'
  have hs' : s < 10 ^ (d + 1) :=
    (Nat.length_toDigits_le_iff (by decide) (by omega)).1 (hlength.trans hd.le)
  have ha' : 10 ^ d ≤ a := by
    rcases Nat.eq_zero_or_pos d with rfl | hdpos
    · exact hpos
    · by_contra hlt
      have := (Nat.length_toDigits_le_iff (b := 10) (by decide) hdpos).2 (not_le.1 hlt)
      omega
  have hd' : d ≤ 15 := by
    by_contra hlt
    have hpow : 10 ^ 16 ≤ 10 ^ d := Nat.pow_le_pow_right (by decide) (by omega)
    omega
  have hqpos : 0 < (s : ℚ) * 10 ^ e := mul_pos (by exact_mod_cast hs) (zpow_pos (by norm_num) e)
  have hsmall : (s : ℚ) * 10 ^ e + 1 / 10 ≤ 10 ^ d := by
    have hsucc : (s : ℚ) + 1 ≤ 10 ^ (d + 1) := by exact_mod_cast hs'
    have htenth : (10 : ℚ) ^ e ≤ 10 ^ (-1 : Int) := zpow_le_zpow_right₀ (by norm_num) (by omega)
    rw [zpow_neg_one] at htenth
    calc (s : ℚ) * 10 ^ e + 1 / 10 ≤ s * (10 : ℚ)⁻¹ + 1 / 10 := by gcongr
      _ = ((s : ℚ) + 1) / 10 := by ring
      _ ≤ 10 ^ (d + 1) / 10 := by gcongr
      _ = 10 ^ d := by rw [pow_succ, mul_div_cancel_right₀ _ (by norm_num)]
  have hlarge : (10 : ℚ) ^ d ≤ a := by exact_mod_cast ha'
  have hbit : lastBit ((s : ℚ) * 10 ^ e) ≤ -3 := by
    have hbound : (s : ℚ) * 10 ^ e < ((2 : Nat) : ℚ) ^ (50 : Int) := by
      have hpow : (10 : ℚ) ^ d ≤ 10 ^ 15 := pow_le_pow_right₀ (by norm_num) hd'
      norm_num at hpow ⊢
      linarith
    have hlog := (Int.lt_zpow_iff_log_lt (by norm_num) hqpos).1 hbound
    rw [lastBit, abs_of_pos hqpos]
    omega
  generalize (s : ℚ) * 10 ^ e = q at *
  have herror := roundDouble_error q
  have hhalf : (2 : ℚ) ^ lastBit q / 2 ≤ 1 / 16 := by
    have hle : (2 : ℚ) ^ lastBit q ≤ 2 ^ (-3 : Int) := zpow_le_zpow_right₀ (by norm_num) hbit
    norm_num at hle
    linarith
  have hup := (abs_le.1 herror).2
  linarith

theorem sole_intCast {n : Int} (h : |n| < 2 ^ 53) : Sole n := by
  rcases eq_or_ne n 0 with rfl | hne
  · exact .inl Int.cast_zero
  · have hcast : |(n : ℚ)| = (n.natAbs : ℚ) := by rw [← Int.cast_abs, Nat.cast_natAbs]
    have hlt : n.natAbs < 2 ^ 53 := by
      rw [Int.abs_eq_natAbs] at h
      omega
    obtain ⟨x, hx, hvalue⟩ := toDouble_intCast (n := n.natAbs) (by rw [Nat.abs_cast]; omega)
    rw [Int.cast_natCast] at hx hvalue
    refine .inr ⟨n.natAbs, 0, by rw [hcast, zpow_zero, mul_one], ?_⟩
    intro s e hs hrounds hlength
    rw [hcast] at hrounds ⊢
    rw [hx] at hrounds
    have hround := (roundDouble_of_toDouble hrounds).trans hvalue
    rcases lt_or_ge e 0 with he | he
    · exact absurd hround (roundDouble_lt hlt (by omega) hs he hlength).ne
    · -- an integer
      obtain ⟨k, rfl⟩ := Int.eq_ofNat_of_zero_le he
      have hinteger : (s : ℚ) * 10 ^ (k : Int) = ((s * 10 ^ k : Nat) : ℚ) := by
        push_cast
        rw [zpow_natCast]
      rw [hinteger] at hround hrounds ⊢
      generalize s * 10 ^ k = t at *
      rcases Nat.lt_or_ge t (2 ^ 53) with ht | ht
      · obtain ⟨y, hy, hvalue'⟩ := toDouble_intCast (n := t) (by rw [Nat.abs_cast]; omega)
        rw [Int.cast_natCast] at hy hvalue'
        rw [hy] at hrounds
        rw [← hvalue', ← hvalue, Option.some.inj hrounds]
      · have hlarge : (2 : ℚ) ^ 53 ≤ t := by exact_mod_cast ht
        have hle := le_roundDouble (m := 1) (e := 53) (q := t) (by norm_num) (by norm_num) (by
          norm_num at hlarge ⊢
          exact hlarge)
        have hsmall : (n.natAbs : ℚ) < 2 ^ 53 := by exact_mod_cast hlt
        norm_num at hle hsmall
        linarith

end Lib
