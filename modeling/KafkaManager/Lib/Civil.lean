import KafkaManager.Lib.GoTime

/-!
# Dates and locations of package `time`

A day is a number, counted from 1970, and has a date of the Gregorian calendar.
What a clock on the wall shows in a location is the seconds of the instant and
the offset in force then. An offset is of whole minutes and less than a day,
and so is the difference between any two of a location: it has not changed
sides of the date line.

`Date` and `AddDate` calculate in `int64`.
-/

namespace Lib

/-! ## Digits -/

/-- `n` with zeros before it. -/
def padded (width n : Nat) : List Char :=
  List.replicate (width - (Nat.toDigits 10 n).length) '0' ++ Nat.toDigits 10 n

theorem padded_digit (width n : Nat) : (padded width n).all Char.isDigit = true := by
  rw [padded, List.all_append, toDigits_digit, Bool.and_true, List.all_replicate]
  simp

theorem parseDigits_padded (width n : Nat) : parseDigits (padded width n) = some n := by
  have hne : (padded width n).isEmpty = false := by
    simp [padded]
  rw [parseDigits, hne, padded_digit]
  simp [padded, Nat.ofDigitChars_append]

theorem length_padded {width n : Nat} (hpos : 0 < width) (h : n < 10 ^ width) :
    (padded width n).length = width := by
  have hle := (Nat.length_toDigits_le_iff (n := n) (b := 10) (by decide) hpos).2 h
  rw [padded, List.length_append, List.length_replicate]
  omega

theorem le_length_padded (width n : Nat) : width ≤ (padded width n).length := by
  rw [padded, List.length_append, List.length_replicate]
  omega

theorem lt_of_length_padded {width n : Nat} (hpos : 0 < width)
    (h : (padded width n).length ≤ width) : n < 10 ^ width := by
  rw [padded, List.length_append, List.length_replicate] at h
  exact (Nat.length_toDigits_le_iff (by decide) hpos).1 (by omega)

theorem parseDigits_lt {s : List Char} {n : Nat} (h : parseDigits s = some n) :
    n < 10 ^ s.length := by
  have hfold : ∀ (s : List Char) (init : Nat), s.all Char.isDigit = true →
      Nat.ofDigitChars 10 s init < (init + 1) * 10 ^ s.length := by
    intro s
    induction s with
    | nil => simp
    | cons c rest ih =>
        intro init hall
        rw [List.all_cons, Bool.and_eq_true] at hall
        obtain ⟨hc, hrest⟩ := hall
        have hdigit : c.toNat - '0'.toNat ≤ 9 := by
          have hnine : c.toNat ≤ 57 := (Char.isDigit_iff_toNat.1 hc).2
          have hzero : '0'.toNat = 48 := by decide
          omega
        have hlt := ih (10 * init + (c.toNat - '0'.toNat)) hrest
        have hstep : (10 * init + (c.toNat - '0'.toNat) + 1) * 10 ^ rest.length ≤
            (init + 1) * 10 * 10 ^ rest.length := Nat.mul_le_mul_right _ (by omega)
        rw [Nat.ofDigitChars_cons, List.length_cons, Nat.pow_succ, Nat.mul_comm (10 ^ rest.length),
          ← Nat.mul_assoc]
        omega
  unfold parseDigits at h
  split at h
  · next hdigits =>
      obtain rfl := Option.some.inj h
      have hlt := hfold s 0 (Bool.and_eq_true_iff.1 hdigits).2
      omega
  · cases h

/-! ## Dates -/

structure Date where
  year : Int
  month : Nat
  day : Nat
deriving DecidableEq, Repr

namespace Date

def isLeap (year : Int) : Bool := year % 4 == 0 && (year % 100 != 0 || year % 400 == 0)

def daysIn (month : Nat) (leap : Bool) : Nat :=
  if month = 2 then if leap then 29 else 28
  else if month = 4 ∨ month = 6 ∨ month = 9 ∨ month = 11 then 30
  else 31

/-- The days of the year before a month. -/
def daysBefore (month : Nat) (leap : Bool) : Nat :=
  ((List.range' 1 (month - 1)).map fun m => daysIn m leap).sum

/-- The leap days from year 1 to the beginning of a year. -/
def leapDays (year : Int) : Int := (year - 1) / 4 - (year - 1) / 100 + (year - 1) / 400

/-- The date exists. -/
def Valid (d : Date) : Prop :=
  1 ≤ d.month ∧ d.month ≤ 12 ∧ 1 ≤ d.day ∧ d.day ≤ daysIn d.month (isLeap d.year)

instance (d : Date) : Decidable d.Valid := inferInstanceAs (Decidable (_ ∧ _))

/-- The days since 1970. -/
def number (d : Date) : Int :=
  365 * (d.year - 1) + leapDays d.year + daysBefore d.month (isLeap d.year) + (d.day - 1) - 719162

/-- The month and the day of a day of the year, from these months on. -/
def monthDay (leap : Bool) : List Nat → Nat → Nat × Nat
  | [], day => (13, day + 1)
  | month :: rest, day =>
      if day < daysIn month leap then (month, day + 1)
      else monthDay leap rest (day - daysIn month leap)

/-- The date of a day: cycles of 400, 100, 4 years and single years are cut off
in turn. The last century of a cycle and the last year of four are a day
longer. -/
def ofNumber (n : Int) : Date :=
  let ofCycle := (n + 719162) % 146097
  let century := ofCycle / 36524 - ofCycle / 36524 / 4
  let ofCentury := ofCycle - 36524 * century
  let ofFour := ofCentury % 1461
  let single := ofFour / 365 - ofFour / 365 / 4
  let year :=
    400 * ((n + 719162) / 146097) + 100 * century + 4 * (ofCentury / 1461) + single + 1
  let (month, day) := monthDay (isLeap year) (List.range' 1 12) (ofFour - 365 * single).toNat
  ⟨year, month, day⟩

/-- The layout `2006-01-02`. -/
def format (d : Date) : List Char :=
  (if d.year < 0 then ['-'] else []) ++ (padded 4 d.year.natAbs ++ '-' :: (padded 2 d.month ++
    '-' :: padded 2 d.day))

/-- The date of a text in this layout. -/
def parse : List Char → Option Date
  | [y₁, y₂, y₃, y₄, '-', m₁, m₂, '-', d₁, d₂] => do
      let year ← parseDigits [y₁, y₂, y₃, y₄]
      let month ← parseDigits [m₁, m₂]
      let day ← parseDigits [d₁, d₂]
      if Valid ⟨year, month, day⟩ then some ⟨year, month, day⟩ else none
  | _ => none

theorem monthDay_spec : ∀ (leap : Bool), ∀ day < 365 + (if leap then 1 else 0),
    let (month, ofMonth) := monthDay leap (List.range' 1 12) day
    1 ≤ month ∧ month ≤ 12 ∧ 1 ≤ ofMonth ∧ ofMonth ≤ daysIn month leap ∧
      daysBefore month leap + ofMonth = day + 1 := by
  decide +kernel

/-- What is cut off, and what is left. -/
theorem cycles {ofCycle century ofCentury four ofFour single day : Int}
    (hofCycle : 0 ≤ ofCycle ∧ ofCycle < 146097)
    (hcentury : century = ofCycle / 36524 - ofCycle / 36524 / 4)
    (hofCentury : ofCentury = ofCycle - 36524 * century) (hfour : four = ofCentury / 1461)
    (hofFour : ofFour = ofCentury % 1461) (hsingle : single = ofFour / 365 - ofFour / 365 / 4)
    (hday : day = ofFour - 365 * single) :
    (ofCycle = 36524 * century + 1461 * four + 365 * single + day) ∧
      (0 ≤ century ∧ century ≤ 3) ∧ (0 ≤ four ∧ four ≤ 24) ∧ (0 ≤ single ∧ single ≤ 3) ∧
      (0 ≤ day ∧ day ≤ 365) ∧ (day = 365 → single = 3 ∧ (four = 24 → century = 3)) := by
  have hcentury' : (0 ≤ century ∧ century ≤ 3) ∧ (0 ≤ ofCentury ∧ ofCentury ≤ 36524) ∧
      (ofCentury = 36524 → century = 3) := by omega
  have hfour' : ofCentury = 1461 * four + ofFour ∧ (0 ≤ ofFour ∧ ofFour ≤ 1460) ∧
      (0 ≤ four ∧ four ≤ 24) := by omega
  have hsingle' : (0 ≤ single ∧ single ≤ 3) ∧ (0 ≤ day ∧ day ≤ 365) ∧
      (day = 365 → single = 3 ∧ ofFour = 1460) := by omega
  clear hcentury hfour hofFour hsingle
  obtain ⟨hcentury, -, hlast⟩ := hcentury'
  obtain ⟨hsplit, -, hfour⟩ := hfour'
  obtain ⟨hsingle, hrange, hleap⟩ := hsingle'
  refine ⟨by omega, hcentury, hfour, hsingle, hrange, fun h => ⟨(hleap h).1, fun h' => ?_⟩⟩
  have hfull := (hleap h).2
  exact hlast (by omega)

/-- Every day has a date, and that date's day it is. -/
theorem ofNumber_spec (n : Int) : (ofNumber n).Valid ∧ (ofNumber n).number = n := by
  obtain ⟨cycle, hcycle⟩ : ∃ c, c = (n + 719162) / 146097 := ⟨_, rfl⟩
  obtain ⟨ofCycle, hofCycle⟩ : ∃ r, r = (n + 719162) % 146097 := ⟨_, rfl⟩
  obtain ⟨century, hcentury⟩ : ∃ c, c = ofCycle / 36524 - ofCycle / 36524 / 4 := ⟨_, rfl⟩
  obtain ⟨ofCentury, hofCentury⟩ : ∃ r, r = ofCycle - 36524 * century := ⟨_, rfl⟩
  obtain ⟨four, hfour⟩ : ∃ q, q = ofCentury / 1461 := ⟨_, rfl⟩
  obtain ⟨ofFour, hofFour⟩ : ∃ r, r = ofCentury % 1461 := ⟨_, rfl⟩
  obtain ⟨single, hsingle⟩ : ∃ s, s = ofFour / 365 - ofFour / 365 / 4 := ⟨_, rfl⟩
  obtain ⟨year, hyear⟩ : ∃ y, y = 400 * cycle + 100 * century + 4 * four + single + 1 := ⟨_, rfl⟩
  obtain ⟨day, hday⟩ : ∃ d, d = ofFour - 365 * single := ⟨_, rfl⟩
  obtain ⟨month, ofMonth, hmonth⟩ : ∃ month ofMonth,
      monthDay (isLeap year) (List.range' 1 12) day.toNat = (month, ofMonth) := ⟨_, _, rfl⟩
  have hdate : ofNumber n = ⟨year, month, ofMonth⟩ := by
    have hfields : ofNumber n =
        ⟨year, (monthDay (isLeap year) (List.range' 1 12) day.toNat).1,
          (monthDay (isLeap year) (List.range' 1 12) day.toNat).2⟩ := by
      rw [hday, hyear, hsingle, hofFour, hfour, hofCentury, hcentury, hofCycle, hcycle]
      rfl
    rw [hfields, hmonth]
  have hsplit : n + 719162 = 146097 * cycle + ofCycle ∧ 0 ≤ ofCycle ∧ ofCycle < 146097 := by omega
  obtain ⟨hsum, hcenturies, hfours, hsingles, hrange, hlast⟩ :=
    cycles hsplit.2 hcentury hofCentury hfour hofFour hsingle hday
  clear hcycle hofCycle hcentury hofCentury hfour hofFour hsingle hday
  have hquarter : (year - 1) / 4 = 100 * cycle + 25 * century + four := by omega
  have hhundred : (year - 1) / 100 = 4 * cycle + century := by omega
  have hfourHundred : (year - 1) / 400 = cycle := by omega
  have hleap : day = 365 → isLeap year = true := by
    intro h
    obtain ⟨hsingle, hfour⟩ := hlast h
    have hfourth : year % 4 = 0 := by omega
    by_cases hend : year % 100 = 0
    · have hfull : year % 400 = 0 := by
        have hcentury := hfour (by omega)
        omega
      simp [isLeap, hfourth, hfull]
    · simp [isLeap, hfourth, hend]
  have hlt : day.toNat < 365 + (if isLeap year then 1 else 0) := by
    split
    · omega
    · next hcommon =>
        have hne : day ≠ 365 := fun h => hcommon (hleap h)
        omega
  have hspec := monthDay_spec (isLeap year) day.toNat hlt
  simp only [hmonth] at hspec
  obtain ⟨hfirst, htwelve, hone, hlength, hofYear⟩ := hspec
  rw [hdate]
  refine ⟨⟨hfirst, htwelve, hone, hlength⟩, ?_⟩
  show 365 * (year - 1) + ((year - 1) / 4 - (year - 1) / 100 + (year - 1) / 400) +
    (daysBefore month (isLeap year) : Int) + ((ofMonth : Int) - 1) - 719162 = n
  rw [hquarter, hhundred, hfourHundred]
  omega

theorem daysIn_le (month : Nat) (leap : Bool) : daysIn month leap ≤ 31 := by
  unfold daysIn
  split
  · split <;> omega
  · split <;> omega

theorem daysBefore_le (month : Nat) (leap : Bool) : daysBefore month leap ≤ (month - 1) * 31 := by
  have hsum : ∀ l : List Nat, (l.map fun m => daysIn m leap).sum ≤ l.length * 31 := by
    intro l
    induction l with
    | nil => simp
    | cons m l ih =>
        have hle := daysIn_le m leap
        rw [List.map_cons, List.sum_cons, List.length_cons]
        omega
  have hle := hsum (List.range' 1 (month - 1))
  rw [List.length_range'] at hle
  exact hle

/-- A text is that of a date that exists, with a year of four digits. -/
theorem parse_spec {s : List Char} {d : Date} (h : parse s = some d) :
    d.Valid ∧ 0 ≤ d.year ∧ d.year ≤ 9999 := by
  unfold parse at h
  split at h
  · simp only [Option.bind_eq_bind, Option.bind_eq_some_iff] at h
    obtain ⟨year, hyear, month, -, day, -, hdate⟩ := h
    have hlt := parseDigits_lt hyear
    split at hdate
    · next hvalid =>
        obtain rfl := Option.some.inj hdate
        simp only [List.length_cons, List.length_nil] at hlt
        refine ⟨hvalid, ?_⟩
        show 0 ≤ (year : Int) ∧ (year : Int) ≤ 9999
        omega
    · cases hdate
  · cases h

/-- Such dates are not far from here. -/
theorem parse_range {s : List Char} {d : Date} (h : parse s = some d) :
    -720000 ≤ d.number ∧ d.number ≤ 3000000 := by
  obtain ⟨⟨-, hmonth, hday, hday'⟩, hyear, hyear'⟩ := parse_spec h
  have hbefore := daysBefore_le d.month (isLeap d.year)
  have hlast := daysIn_le d.month (isLeap d.year)
  unfold number leapDays
  constructor <;> omega

theorem length_format {d : Date} (hvalid : d.Valid) (hyear : 0 ≤ d.year) (hyear' : d.year ≤ 9999) :
    d.format.length = 10 := by
  have hlast := daysIn_le d.month (isLeap d.year)
  obtain ⟨-, hmonth, -, hday⟩ := hvalid
  rw [format, if_neg (by omega), List.nil_append, List.length_append, List.length_cons,
    List.length_append, List.length_cons, length_padded (by decide) (by omega),
    length_padded (by decide) (by omega), length_padded (by decide) (by omega)]

/-- What is formatted is parsed. -/
theorem parse_format {d : Date} (hvalid : d.Valid) (hyear : 0 ≤ d.year) (hyear' : d.year ≤ 9999) :
    parse d.format = some d := by
  have hlengths : ∀ width n : Nat, 0 < width → n < 10 ^ width →
      ∃ s, padded width n = s ∧ s.length = width ∧ parseDigits s = some n := fun _ _ hpos h =>
    ⟨_, rfl, length_padded hpos h, parseDigits_padded _ _⟩
  have hlast := daysIn_le d.month (isLeap d.year)
  obtain ⟨hmonth, hmonth', hday, hday'⟩ := hvalid
  obtain ⟨y, hy, hylength, hyear''⟩ := hlengths 4 d.year.natAbs (by decide)
    (by omega)
  obtain ⟨m, hm, hmlength, hmonth''⟩ := hlengths 2 d.month (by decide) (by omega)
  obtain ⟨k, hk, hklength, hday''⟩ := hlengths 2 d.day (by decide) (by omega)
  match y, hylength, m, hmlength, k, hklength with
  | [y₁, y₂, y₃, y₄], _, [m₁, m₂], _, [d₁, d₂], _ =>
      have hformat : d.format = [y₁, y₂, y₃, y₄, '-', m₁, m₂, '-', d₁, d₂] := by
        rw [format, if_neg (by omega), hy, hm, hk]
        rfl
      have hsame : (⟨(d.year.natAbs : Int), d.month, d.day⟩ : Date) = d := by
        rw [Int.natAbs_of_nonneg hyear]
      simp only [hformat, parse, hyear'', hmonth'', hday'', Option.bind_eq_bind, Option.bind_some,
        hsame]
      exact if_pos ⟨hmonth, hmonth', hday, hday'⟩

theorem parse_length {s : List Char} {d : Date} (h : parse s = some d) : s.length = 10 := by
  unfold parse at h
  split at h
  · rfl
  · cases h

/-- And nothing else is. -/
theorem parse_of_format {d d' : Date} (hvalid : d.Valid) (h : parse d.format = some d') :
    d' = d := by
  have hlast := daysIn_le d.month (isLeap d.year)
  have hmonth : (padded 2 d.month).length = 2 :=
    length_padded (by decide) (by obtain ⟨-, hmonth, -⟩ := hvalid; omega)
  have hday : (padded 2 d.day).length = 2 :=
    length_padded (by decide) (by obtain ⟨-, -, -, hday⟩ := hvalid; omega)
  have hyear := le_length_padded 4 d.year.natAbs
  have hlength := parse_length h
  rw [format, List.length_append, List.length_append, List.length_cons, List.length_append,
    List.length_cons, hmonth, hday] at hlength
  -- a sign or a fifth digit would be one character more
  have hsign : ¬ d.year < 0 := by
    intro hneg
    rw [if_pos hneg, List.length_singleton] at hlength
    omega
  have hfour := lt_of_length_padded (by decide) (show (padded 4 d.year.natAbs).length ≤ 4 by omega)
  have hparse := parse_format hvalid (by omega) (by omega)
  rw [h] at hparse
  exact Option.some.inj hparse

end Date

/-! ## Locations -/

/-- The minutes to add to an instant, by its seconds since 1970. -/
structure Location where
  minutes : Int → Int
  least : Int
  least_range : -1440 < least ∧ least < 1440
  within : ∀ t, least ≤ minutes t ∧ minutes t < least + 1440 ∧ minutes t < 1440

namespace Location

/-- An offset of no minutes. -/
theorem zero_range : -1440 < (0 : Int) ∧ (0 : Int) < 1440 := by omega

/-- `time.FixedZone` -/
def fixed (minutes : Int) (h : -1440 < minutes ∧ minutes < 1440) : Location where
  minutes _ := minutes
  least := minutes
  least_range := h
  within _ := ⟨by omega, by omega, h.2⟩

variable (z : Location)

def offset (t : Int) : Int := 60 * z.minutes t

/-- What the clock on the wall shows, in seconds. -/
def civil (t : Instant) : Int := t.unix + z.offset t.unix

def day (t : Instant) : Int := z.civil t / 86400

/-- The seconds of `time.Date` for what the clock shows. Near a change of the
offset there may be two or none. -/
def unixOf (civil : Int) : Int :=
  let unix := Int.bmod civil (2 ^ 64)
  unix - z.offset (unix - z.offset unix)

/-- `time.Date` of a day and nothing else, `time.ParseInLocation` of its date. -/
def midnight (day : Int) : Instant := .ofUnix (z.unixOf (day * 86400))

/-- `AddDate(0, 0, days)` -/
def addDays (t : Instant) (days : Int) : Instant :=
  { Instant.ofUnix (z.unixOf (z.civil t + days * 86400)) with
    nsec := t.nsec
    nsec_range := t.nsec_range }

/-- `Format("2006-01-02")` -/
def format (t : Instant) : String := String.ofList (Date.ofNumber (z.day t)).format

/-! ### The offset is nearly the same -/

variable {z}

theorem offset_within (t : Int) :
    60 * z.least ≤ z.offset t ∧ z.offset t < 60 * z.least + 86400 := by
  obtain ⟨hlo, hhi, -⟩ := z.within t
  unfold offset
  omega

theorem civil_eq (t : Instant) :
    ∃ offset, z.civil t = t.unix + offset ∧ 60 * z.least ≤ offset ∧
      offset < 60 * z.least + 86400 :=
  ⟨_, rfl, offset_within _⟩

theorem unixOf_eq (civil : Int) (h : fits64 civil = true) :
    ∃ offset, z.unixOf civil = civil - offset ∧ 60 * z.least ≤ offset ∧
      offset < 60 * z.least + 86400 := by
  refine ⟨z.offset (civil - z.offset civil), ?_, offset_within _⟩
  unfold unixOf
  rw [bmod_of_fits h]

end Location

/-- What a clock reads: an instant not billions of years from here. -/
structure Clock extends Instant where
  range : -2 ^ 62 ≤ toInstant.unix ∧ toInstant.unix ≤ 2 ^ 62

/-- The seconds of an instant no wrap is near to. -/
theorem Instant.sec_ofUnix {s : Int} (h : -2 ^ 62 - 1000000 ≤ s ∧ s ≤ 2 ^ 62 + 1000000) :
    (Instant.ofUnix s).sec = s + unixToInternal := by
  have hconst : unixToInternal = 62135596800 := rfl
  refine bmod_of_fits ?_
  simp only [fits64, decide_eq_true_eq]
  omega

end Lib
