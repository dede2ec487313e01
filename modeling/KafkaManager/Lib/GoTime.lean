import KafkaManager.Lib.GoInt

/-!
# Instants of package `time`

A wall-clock instant: the seconds since year 1, which are an `int64`, and the
nanoseconds within the second. A duration is an `Int` of nanoseconds.
-/

namespace Lib

def nanosPerSecond : Int := 1000000000

/-- The seconds from year 1 to 1970. -/
def unixToInternal : Int := 62135596800

/-- A `time.Time` without a location. -/
@[ext] structure Instant where
  sec : Int
  nsec : Int
  sec_fits : fits64 sec = true
  nsec_range : 0 ≤ nsec ∧ nsec < nanosPerSecond
deriving DecidableEq

theorem bmod_fits (n : Int) : fits64 (Int.bmod n (2 ^ 64)) = true := by
  have hlo := Int.le_bmod (x := n) (m := 2 ^ 64) (by decide)
  have hhi := Int.bmod_lt (x := n) (m := 2 ^ 64) (by decide)
  simp only [fits64, decide_eq_true_eq]
  omega

theorem bmod_of_fits {n : Int} (h : fits64 n = true) : Int.bmod n (2 ^ 64) = n := by
  simp only [fits64, decide_eq_true_eq] at h
  exact Int.bmod_eq_of_le (by omega) (by omega)

namespace Instant

theorem nsec_zero : 0 ≤ (0 : Int) ∧ (0 : Int) < nanosPerSecond := by decide

/-- `Unix` -/
def unix (t : Instant) : Int := Int.bmod (t.sec - unixToInternal) (2 ^ 64)

/-- `time.Unix(s, 0)` -/
def ofUnix (s : Int) : Instant where
  sec := Int.bmod (s + unixToInternal) (2 ^ 64)
  nsec := 0
  sec_fits := bmod_fits _
  nsec_range := ⟨Int.le_refl _, by decide⟩

/-- A sum of seconds; one that does not fit is the last that does. -/
def addSec (sec d : Int) : Int :=
  if sec + d ≥ 2 ^ 63 then 2 ^ 63 - 1 else if sec + d < -2 ^ 63 then -(2 ^ 63 - 1) else sec + d

theorem addSec_fits (sec d : Int) : fits64 (addSec sec d) = true := by
  have hrange : -2 ^ 63 ≤ addSec sec d ∧ addSec sec d < 2 ^ 63 := by
    unfold addSec
    split
    · omega
    · split <;> omega
  exact decide_eq_true hrange

/-- `Add` -/
def add (t : Instant) (d : Int) : Instant where
  sec := addSec t.sec ((t.nsec + d) / nanosPerSecond)
  nsec := (t.nsec + d) % nanosPerSecond
  sec_fits := addSec_fits _ _
  nsec_range := ⟨Int.emod_nonneg _ (by decide), Int.emod_lt_of_pos _ (by decide)⟩

/-- `Before` -/
def before (t u : Instant) : Bool := t.sec < u.sec || (t.sec == u.sec && t.nsec < u.nsec)

/-- Not after. -/
def le (t u : Instant) : Prop := u.before t = false

theorem before_ofUnix {t : Instant} {s : Int} :
    t.before (ofUnix s) = true ↔ t.sec < Int.bmod (s + unixToInternal) (2 ^ 64) := by
  have hnsec := t.nsec_range.1
  simp only [before, Bool.or_eq_true, Bool.and_eq_true, decide_eq_true_eq, beq_iff_eq]
  constructor
  · rintro (hlt | ⟨-, hlt⟩)
    · exact hlt
    · exact absurd hlt (Int.not_lt.2 hnsec)
  · exact .inl

/-- `Unix` and `time.Unix` are inverse on the second. -/
theorem before_ofUnix_unix {t u : Instant} :
    t.before (.ofUnix u.unix) = true ↔ t.sec < u.sec := by
  have hsec : Int.bmod (u.unix + unixToInternal) (2 ^ 64) = u.sec := by
    rw [unix, Int.bmod_add_bmod, Int.sub_add_cancel]
    exact bmod_of_fits u.sec_fits
  rw [before_ofUnix, hsec]

theorem le_refl (t : Instant) : t.le t := by
  simp [le, before]

theorem le_trans {t u v : Instant} (htu : t.le u) (huv : u.le v) : t.le v := by
  simp only [le, before, Bool.or_eq_false_iff, Bool.and_eq_false_iff, decide_eq_false_iff_not,
    beq_eq_false_iff_ne] at htu huv ⊢
  omega

end Instant

end Lib
