import KafkaManager.Lib.Civil
import KafkaManager.Lib.Json
import Mathlib.Data.List.TakeWhile

/-!
# Times in JSON

A `time.Time` is an instant and the offset it is shown with. `Marshal` writes
it in the format of RFC 3339, the fraction of the second without zeros at its
end, and what is written is read back. A text of another format is not read;
nothing the package writes is of another.
-/

namespace Lib

@[ext] structure Time where
  instant : Instant
  minutes : Int
  range : -1440 < minutes ∧ minutes < 1440

/-! ## Fields -/

/-- A field of digits, at most this much, and what is after it. -/
def readField (width most : Nat) (s : List Char) : Option (Nat × List Char) :=
  if s.length < width then none
  else
    match parseDigits (s.take width) with
    | none => none
    | some n => if n ≤ most then some (n, s.drop width) else none

theorem readField_padded (width most n : Nat) (hpos : 0 < width) (hn : n ≤ most)
    (hmost : most < 10 ^ width) (rest : List Char) :
    readField width most (padded width n ++ rest) = some (n, rest) := by
  have hlength : (padded width n).length = width := length_padded hpos (by omega)
  have hlong : ¬ (padded width n ++ rest).length < width := by
    rw [List.length_append]
    omega
  simp only [readField, if_neg hlong, List.take_left' hlength, List.drop_left' hlength,
    parseDigits_padded, if_pos hn]

def trimZeros (s : List Char) : List Char := (s.reverse.dropWhile fun c => c == '0').reverse

/-- Only zeros are cut off. -/
theorem trimZeros_append (s : List Char) : ∃ n, s = trimZeros s ++ List.replicate n '0' := by
  have hzeros : s.reverse.takeWhile (fun c => c == '0') =
      List.replicate (s.reverse.takeWhile fun c => c == '0').length '0' :=
    List.eq_replicate_iff.2 ⟨rfl, fun c hc => by simpa using List.mem_takeWhile_imp hc⟩
  refine ⟨(s.reverse.takeWhile fun c => c == '0').length, ?_⟩
  have hsplit := congrArg List.reverse
    (List.takeWhile_append_dropWhile (p := fun c => c == '0') (l := s.reverse))
  rw [List.reverse_append, List.reverse_reverse, hzeros, List.reverse_replicate] at hsplit
  exact hsplit.symm

/-- The nanoseconds of a second. -/
def writeFraction (n : Nat) : List Char := if n = 0 then [] else '.' :: trimZeros (padded 9 n)

/-- Nine digits count. -/
def readFraction : List Char → Nat × List Char
  | '.' :: rest =>
      let digits := rest.takeWhile Char.isDigit
      if digits.isEmpty then (0, '.' :: rest)
      else
        (Nat.ofDigitChars 10 (digits.take 9) 0 * 10 ^ (9 - digits.length),
          rest.drop digits.length)
  | s => (0, s)

/-- What is after a fraction. -/
def NoFraction : List Char → Prop
  | [] => True
  | c :: _ => c.isDigit = false ∧ c ≠ '.'

theorem readFraction_writeFraction {n : Nat} (hn : n < 10 ^ 9) {rest : List Char}
    (hrest : NoFraction rest) : readFraction (writeFraction n ++ rest) = (n, rest) := by
  unfold writeFraction
  split
  · next hzero =>
      rw [hzero, List.nil_append]
      unfold readFraction
      split
      · exact absurd rfl hrest.2
      · rfl
  · next hpos =>
      obtain ⟨k, hk⟩ := trimZeros_append (padded 9 n)
      obtain ⟨digits, hdigits⟩ : ∃ s, s = trimZeros (padded 9 n) := ⟨_, rfl⟩
      rw [← hdigits] at hk ⊢
      have hall := padded_digit 9 n
      have hlength := length_padded (by decide) hn
      have hvalue := parseDigits_padded 9 n
      rw [hk, List.all_append, Bool.and_eq_true] at hall
      rw [hk, List.length_append, List.length_replicate] at hlength
      have hn' : 10 ^ k * Nat.ofDigitChars 10 digits 0 = n := by
        unfold parseDigits at hvalue
        split at hvalue
        · rw [hk, Nat.ofDigitChars_append, Nat.ofDigitChars_replicate_zero] at hvalue
          exact Option.some.inj hvalue
        · cases hvalue
      have hne : digits.isEmpty = false := by
        rw [List.isEmpty_eq_false_iff]
        rintro rfl
        simp at hn'
        omega
      have htake : (digits ++ rest).takeWhile Char.isDigit = digits := by
        rw [List.takeWhile_append_of_pos (fun c hc => List.all_eq_true.1 hall.1 c hc)]
        cases rest with
        | nil => simp
        | cons c rest => rw [List.takeWhile_cons_of_neg (by simp [hrest.1]), List.append_nil]
      have hk' : 9 - digits.length = k := by omega
      simp only [List.cons_append, readFraction, htake, hne, Bool.false_eq_true, if_false,
        List.take_of_length_le (show digits.length ≤ 9 by omega), List.drop_left, hk']
      rw [Nat.mul_comm, hn']

def writeZone (minutes : Int) : List Char :=
  if minutes = 0 then ['Z']
  else (if minutes < 0 then '-' else '+') ::
    (padded 2 (minutes.natAbs / 60) ++ ':' :: padded 2 (minutes.natAbs % 60))

def readZone : List Char → Option Int
  | [] => none
  | sign :: s =>
      if sign = 'Z' ∧ s = [] then some 0
      else do
        let (hours, s) ← readField 2 23 s
        let s ← Json.expect ':' s
        let (minutes, s) ← readField 2 59 s
        if s ≠ [] then none
        else if sign = '-' then some (-(60 * hours + minutes))
        else if sign = '+' then some (60 * hours + minutes)
        else none

theorem readZone_writeZone {minutes : Int} (h : -1440 < minutes ∧ minutes < 1440) :
    readZone (writeZone minutes) = some minutes := by
  unfold writeZone
  split
  · next hzero =>
      rw [hzero]
      rfl
  · next hne =>
      have hhours := readField_padded 2 23 (minutes.natAbs / 60)
        (by decide) (by omega) (by decide) (':' :: padded 2 (minutes.natAbs % 60))
      have hminutes := readField_padded 2 59 (minutes.natAbs % 60)
        (by decide) (by omega) (by decide) []
      rw [List.append_nil] at hminutes
      have hsign : ¬ ((if minutes < 0 then '-' else '+') = 'Z' ∧
          padded 2 (minutes.natAbs / 60) ++ ':' :: padded 2 (minutes.natAbs % 60) = []) := by
        simp
      simp only [readZone, if_neg hsign, hhours, Json.expect_cons, hminutes, Option.bind_eq_bind,
        Option.bind_some]
      rw [if_neg (by simp)]
      by_cases hneg : minutes < 0
      · rw [if_pos hneg, if_pos rfl]
        exact congrArg some (by omega)
      · rw [if_neg hneg, if_neg (by decide), if_pos rfl]
        exact congrArg some (by omega)

theorem noFraction_writeZone (minutes : Int) : NoFraction (writeZone minutes) := by
  unfold writeZone
  split
  · exact ⟨by decide, by decide⟩
  · split
    · exact ⟨by decide, by decide⟩
    · exact ⟨by decide, by decide⟩

/-! ## Times -/

namespace Time

/-- What the clock on the wall shows, in seconds. -/
def civil (t : Time) : Int := t.instant.unix + 60 * t.minutes

def ofClock (z : Location) (now : Instant) : Time where
  instant := now
  minutes := z.minutes now.unix
  range := by
    obtain ⟨hlo, -, hhi⟩ := z.within now.unix
    have hleast := z.least_range
    omega

/-- `IsZero` -/
def isZero (t : Time) : Bool := t.instant.sec == 0 && t.instant.nsec == 0

/-- `After` -/
def after (t u : Time) : Bool := u.instant.before t.instant

/-- `MarshalJSON` between the quotes. -/
def text (t : Time) : Option (List Char) :=
  let date := Date.ofNumber (t.civil / 86400)
  let second := (t.civil % 86400).toNat
  if date.year < 0 ∨ 9999 < date.year then none
  else
    some (date.format ++ 'T' :: (padded 2 (second / 3600) ++ ':' :: (padded 2 (second / 60 % 60) ++
      ':' :: (padded 2 (second % 60) ++ (writeFraction t.instant.nsec.toNat ++
        writeZone t.minutes)))))

/-- `UnmarshalJSON` between the quotes. -/
def ofText (s : List Char) : Option Time := do
  let date ← Date.parse (s.take 10)
  let s ← Json.expect 'T' (s.drop 10)
  let (hour, s) ← readField 2 23 s
  let s ← Json.expect ':' s
  let (minute, s) ← readField 2 59 s
  let s ← Json.expect ':' s
  let (second, s) ← readField 2 59 s
  let (nsec, s) := readFraction s
  let minutes ← readZone s
  if h : nsec < 1000000000 ∧ -1440 < minutes ∧ minutes < 1440 then
    let unix := date.number * 86400 + hour * 3600 + minute * 60 + second - 60 * minutes
    let nsec_range : 0 ≤ (nsec : Int) ∧ (nsec : Int) < nanosPerSecond :=
      ⟨Int.natCast_nonneg nsec, Int.ofNat_lt.2 h.1⟩
    some ⟨{ Instant.ofUnix unix with nsec, nsec_range }, minutes, h.2⟩
  else none

/-- What is written is read back. -/
theorem ofText_text {t : Time} {s : List Char} (h : t.text = some s) : ofText s = some t := by
  obtain ⟨second, hsecond⟩ : ∃ n, n = (t.civil % 86400).toNat := ⟨_, rfl⟩
  obtain ⟨hvalid, hnumber⟩ := Date.ofNumber_spec (t.civil / 86400)
  obtain ⟨date, hdate⟩ : ∃ d, d = Date.ofNumber (t.civil / 86400) := ⟨_, rfl⟩
  rw [← hdate] at hvalid hnumber
  unfold text at h
  simp only [← hdate, ← hsecond] at h
  split at h
  · cases h
  · next hyear =>
      obtain rfl := Option.some.inj h
      have hnsec := t.instant.nsec_range
      have hnano : nanosPerSecond = 1000000000 := rfl
      have hlength := Date.length_format hvalid (by omega) (by omega)
      have hparse := Date.parse_format hvalid (by omega) (by omega)
      obtain ⟨unix, hunix⟩ : ∃ u : Int, u = date.number * 86400 + (second / 3600 : Nat) * 3600 +
          (second / 60 % 60 : Nat) * 60 + (second % 60 : Nat) - 60 * t.minutes := ⟨_, rfl⟩
      have hsame : unix = t.instant.unix := by
        have hcivil : t.civil = t.instant.unix + 60 * t.minutes := rfl
        omega
      have hsec : Int.bmod (unix + unixToInternal) (2 ^ 64) = t.instant.sec := by
        rw [hsame, Instant.unix, Int.bmod_add_bmod, Int.sub_add_cancel]
        exact bmod_of_fits t.instant.sec_fits
      have hrange := t.range
      simp only [ofText, List.take_left' hlength, List.drop_left' hlength, hparse,
        Json.expect_cons, Option.bind_eq_bind, Option.bind_some,
        readField_padded 2 23 _ (by decide)
          (show second / 3600 ≤ 23 by omega) (by decide),
        readField_padded 2 59 _ (by decide)
          (show second / 60 % 60 ≤ 59 by omega) (by decide),
        readField_padded 2 59 _ (by decide)
          (show second % 60 ≤ 59 by omega) (by decide),
        readFraction_writeFraction (show t.instant.nsec.toNat < 10 ^ 9 by omega)
          (noFraction_writeZone t.minutes), readZone_writeZone hrange]
      rw [dif_pos ⟨by omega, hrange⟩]
      refine congrArg some (Time.ext (Instant.ext ?_ (Int.toNat_of_nonneg hnsec.1)) rfl)
      rw [← hunix]
      exact hsec

end Time

end Lib
