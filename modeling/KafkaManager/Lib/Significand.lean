import Mathlib.Tactic.Ring

/-!
# Integers with a significand of so many bits

An integer is representable in `p` bits if it is a number below `2^p` times a
power of two. `roundInt p` takes the representable integer nearest to its
argument, and of two at the same distance the one whose last bit is zero, as
the conversion of a literal to binary floating point does where the exponent
has room.

All that is used of it follows from two facts, that the result is representable
and that no representable integer is nearer: it keeps the order, and what is
representable it leaves as it is.
-/

namespace Lib

def Representable (p : Nat) (x : Int) : Prop := ∃ m e : Nat, m < 2 ^ p ∧ x.natAbs = m * 2 ^ e

/-- The bits that do not fit. -/
def spareBits (p n : Nat) : Nat := n.log2 + 1 - p

def roundNat (p n : Nat) : Nat :=
  let unit := 2 ^ spareBits p n
  let q := n / unit
  let r := n % unit
  if 2 * r < unit ∨ (2 * r = unit ∧ q % 2 = 0) then q * unit else (q + 1) * unit

def roundInt (p : Nat) (n : Int) : Int :=
  if n < 0 then -(roundNat p n.natAbs : Int) else roundNat p n.natAbs

section

variable {p : Nat}

/-- What is left of the significand fits. -/
theorem quotient_lt (p n : Nat) : n / 2 ^ spareBits p n < 2 ^ p := by
  refine Nat.div_lt_of_lt_mul ?_
  rw [← Nat.pow_add]
  refine Nat.lt_of_lt_of_le Nat.lt_log2_self (Nat.pow_le_pow_right (by decide) ?_)
  unfold spareBits
  omega

/-- If there are bits that do not fit, the significand is used to its first bit. -/
theorem quotient_ge (hp : 0 < p) {n : Nat} (hspare : 0 < spareBits p n) :
    2 ^ (p - 1) ≤ n / 2 ^ spareBits p n := by
  have hn : n ≠ 0 := by
    rintro rfl
    simp only [spareBits, Nat.log2_zero] at hspare
    omega
  rw [Nat.le_div_iff_mul_le (Nat.two_pow_pos _), ← Nat.pow_add]
  refine Nat.le_trans (Nat.pow_le_pow_right (by decide) ?_) (Nat.log2_self_le hn)
  unfold spareBits at hspare ⊢
  omega

/-- Between the two candidates nothing is representable. -/
theorem no_between (hp : 0 < p) (n : Nat) {m e : Nat} (hm : m < 2 ^ p) :
    m * 2 ^ e ≤ n / 2 ^ spareBits p n * 2 ^ spareBits p n ∨
      (n / 2 ^ spareBits p n + 1) * 2 ^ spareBits p n ≤ m * 2 ^ e := by
  rcases Nat.lt_or_ge e (spareBits p n) with hlt | hge
  · -- the unit is too fine for a number of this size
    left
    have hq := quotient_ge hp (n := n) (by omega)
    have hunit : 2 ^ spareBits p n = 2 * (2 ^ e * 2 ^ (spareBits p n - e - 1)) := by
      rw [← Nat.pow_add, ← Nat.pow_succ']
      congr 1
      omega
    have htwo : 2 ^ p = 2 * 2 ^ (p - 1) := by
      rw [← Nat.pow_succ']
      congr 1
      omega
    calc m * 2 ^ e ≤ 2 ^ p * 2 ^ e := Nat.mul_le_mul_right _ (Nat.le_of_lt hm)
      _ = 2 ^ (p - 1) * (2 * 2 ^ e) := by rw [htwo]; ring
      _ ≤ 2 ^ (p - 1) * 2 ^ spareBits p n := by
          refine Nat.mul_le_mul_left _ ?_
          rw [hunit]
          exact Nat.mul_le_mul_left 2 (Nat.le_mul_of_pos_right _ (Nat.two_pow_pos _))
      _ ≤ n / 2 ^ spareBits p n * 2 ^ spareBits p n := Nat.mul_le_mul_right _ hq
  · -- a multiple of the unit
    obtain ⟨k, rfl⟩ := Nat.exists_eq_add_of_le hge
    have hmul : m * 2 ^ (spareBits p n + k) = m * 2 ^ k * 2 ^ spareBits p n := by
      rw [Nat.pow_add]
      ring
    rw [hmul]
    rcases Nat.lt_or_ge (n / 2 ^ spareBits p n) (m * 2 ^ k) with hmk | hmk
    · exact .inr (Nat.mul_le_mul_right _ hmk)
    · exact .inl (Nat.mul_le_mul_right _ hmk)

theorem roundNat_representable (hp : 0 < p) (n : Nat) : Representable p (roundNat p n) := by
  have hlt := quotient_lt p n
  rw [Representable, Int.natAbs_natCast, roundNat]
  split
  · exact ⟨_, _, hlt, rfl⟩
  · rcases Nat.lt_or_eq_of_le (Nat.succ_le_of_lt hlt) with hsucc | hcarry
    · exact ⟨_, _, hsucc, rfl⟩
    · -- a carry out of the significand
      refine ⟨1, p + spareBits p n, Nat.one_lt_two_pow (by omega), ?_⟩
      rw [Nat.one_mul, Nat.pow_add]
      exact congrArg (· * 2 ^ spareBits p n) hcarry

theorem roundNat_nearest (hp : 0 < p) (n : Nat) {y : Int} (hy : Representable p y) :
    ((n : Int) - roundNat p n).natAbs ≤ ((n : Int) - y).natAbs := by
  obtain ⟨m, e, hm, habs⟩ := hy
  have hbetween := no_between hp n (e := e) hm
  rw [← habs] at hbetween
  have hsplit := Nat.div_add_mod' n (2 ^ spareBits p n)
  have hr := Nat.mod_lt n (Nat.two_pow_pos (spareBits p n))
  have hround : 2 * (n % 2 ^ spareBits p n) ≤ 2 ^ spareBits p n ∧
        roundNat p n = n / 2 ^ spareBits p n * 2 ^ spareBits p n ∨
      2 ^ spareBits p n ≤ 2 * (n % 2 ^ spareBits p n) ∧
        roundNat p n = (n / 2 ^ spareBits p n + 1) * 2 ^ spareBits p n := by
    simp only [roundNat]
    split
    · next h => exact .inl ⟨by omega, rfl⟩
    · next h => exact .inr ⟨by omega, rfl⟩
  rw [Nat.add_mul, Nat.one_mul] at hbetween hround
  generalize 2 ^ spareBits p n = unit at *
  generalize n / unit * unit = base at *
  generalize n % unit = r at *
  omega

theorem Representable.neg {x : Int} (h : Representable p x) : Representable p (-x) := by
  rw [Representable, Int.natAbs_neg]
  exact h

theorem roundInt_representable (hp : 0 < p) (n : Int) : Representable p (roundInt p n) := by
  unfold roundInt
  split
  · exact (roundNat_representable hp _).neg
  · exact roundNat_representable hp _

/-- No representable integer is nearer. -/
theorem roundInt_nearest (hp : 0 < p) (n : Int) {y : Int} (hy : Representable p y) :
    (n - roundInt p n).natAbs ≤ (n - y).natAbs := by
  unfold roundInt
  split
  · have h := roundNat_nearest hp n.natAbs hy.neg
    omega
  · have h := roundNat_nearest hp n.natAbs hy
    omega

/-- Rounding keeps the order. -/
theorem roundInt_mono (hp : 0 < p) {a b : Int} (h : a ≤ b) : roundInt p a ≤ roundInt p b := by
  rcases Int.lt_or_eq_of_le h with hlt | rfl
  · have ha := roundInt_nearest hp a (roundInt_representable hp b)
    have hb := roundInt_nearest hp b (roundInt_representable hp a)
    omega
  · exact Int.le_refl _

end

end Lib
