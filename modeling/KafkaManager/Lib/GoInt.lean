import Mathlib.Algebra.Ring.Int.Defs
import Mathlib.Algebra.Ring.Nat
import Mathlib.Data.Int.Basic

/-!
# Integers of `strconv`

An `int` and an `int64` are an `Int`. `formatInt` and `parseInt` are those of
`strconv`, base 10, for 64 bits.
-/

namespace Lib

/-- The number is one of 64 bits. -/
def fits64 (n : Int) : Bool := decide (-2 ^ 63 ≤ n ∧ n < 2 ^ 63)

theorem fits64_zero : fits64 0 = true := by decide

/-- What an operation on `int64`s gives of a number. -/
def wrap64 (n : Int) : Int := Int.bmod n (2 ^ 64)

theorem wrap64_fits {n : Int} (hlow : -2 ^ 63 ≤ n) (hhigh : n < 2 ^ 63) : wrap64 n = n := by
  unfold wrap64
  rw [Int.bmod_eq_of_le] <;> omega

theorem wrap64_range (n : Int) : -2 ^ 63 ≤ wrap64 n ∧ wrap64 n < 2 ^ 63 := by
  have hlow := Int.le_bmod (x := n) (m := 2 ^ 64) (by decide)
  have hhigh := Int.bmod_lt (x := n) (m := 2 ^ 64) (by decide)
  unfold wrap64
  omega

/-- What is too small comes out at the other end. -/
theorem wrap64_small {n : Int} (hlow : -2 ^ 64 ≤ n) (hhigh : n < -2 ^ 63) :
    wrap64 n = n + 2 ^ 64 := by
  have hcycle : wrap64 n = wrap64 (n + 2 ^ 64) := (Int.add_bmod_right n (2 ^ 64)).symm
  rw [hcycle, wrap64_fits (by omega) (by omega)]

/-- To wrap a part of a sum changes nothing. -/
theorem wrap64_add (a b : Int) : wrap64 (wrap64 a + b) = wrap64 (a + b) := Int.bmod_add_bmod

/-- What is left of a number in an `int32`. -/
def wrap32 (n : Int) : Int := Int.bmod n (2 ^ 32)

theorem wrap32_fits {n : Int} (hlow : -2 ^ 31 ≤ n) (hhigh : n < 2 ^ 31) : wrap32 n = n := by
  unfold wrap32
  rw [Int.bmod_eq_of_le] <;> omega

/-- `strconv.FormatInt(n, 10)` -/
def formatInt (n : Int) : List Char :=
  if n < 0 then '-' :: Nat.toDigits 10 n.natAbs else Nat.toDigits 10 n.natAbs

/-- The digits of `strconv.ParseUint(s, 10, _)`. -/
def parseDigits (s : List Char) : Option Nat :=
  if !s.isEmpty && s.all Char.isDigit then some (Nat.ofDigitChars 10 s 0) else none

/-- A sign and digits. -/
def parseSigned : List Char → Option Int
  | '-' :: s => (parseDigits s).map fun n : Nat => -(n : Int)
  | '+' :: s => (parseDigits s).map fun n : Nat => (n : Int)
  | s => (parseDigits s).map fun n : Nat => (n : Int)

/-- `strconv.ParseInt(s, 10, 64)` -/
def parseInt (s : List Char) : Option Int := (parseSigned s).filter fits64

theorem toDigits_digit (n : Nat) : (Nat.toDigits 10 n).all Char.isDigit = true := by
  rw [List.all_eq_true]
  intro c hc
  exact Nat.isDigit_of_mem_toDigits (by decide) (by decide) hc

theorem parseDigits_toDigits (n : Nat) : parseDigits (Nat.toDigits 10 n) = some n := by
  have hne : (Nat.toDigits 10 n).isEmpty = false := by
    rw [List.isEmpty_eq_false_iff]
    exact Nat.toDigits_ne_nil
  simp [parseDigits, hne, toDigits_digit]

/-- Digits do not begin with a sign. -/
theorem parseSigned_of_digits {s : List Char} (h : s.all Char.isDigit = true) :
    parseSigned s = (parseDigits s).map fun n : Nat => (n : Int) := by
  unfold parseSigned
  split
  · exact absurd h (by simp)
  · exact absurd h (by simp)
  · rfl

theorem parseSigned_formatInt (n : Int) : parseSigned (formatInt n) = some n := by
  unfold formatInt
  split
  · next h =>
      show (parseDigits (Nat.toDigits 10 n.natAbs)).map (fun m : Nat => -(m : Int)) = some n
      rw [parseDigits_toDigits, Option.map_some]
      congr
      omega
  · next h =>
      rw [parseSigned_of_digits (toDigits_digit _), parseDigits_toDigits, Option.map_some]
      congr
      omega

/-- What is formatted is read back. -/
theorem parseInt_formatInt {n : Int} (h : fits64 n = true) : parseInt (formatInt n) = some n := by
  rw [parseInt, parseSigned_formatInt, Option.filter_some, if_pos h]

end Lib
