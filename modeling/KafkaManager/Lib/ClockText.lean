import KafkaManager.Lib.Civil

/-!
# What a clock says

The day and the time of day as `Format` writes them, of what the clock on the
wall shows, in seconds. Each text says which day or which nanosecond of it.
-/

namespace Lib

/-- `Format("2006-01-02")` -/
def formatDay (civil : Int) : List Char := (Date.ofNumber (civil / 86400)).format

/-- `Format("150405.000000000")` -/
def formatTime (civil nsec : Int) : List Char :=
  let seconds := (civil % 86400).toNat
  padded 2 (seconds / 3600) ++ (padded 2 (seconds / 60 % 60) ++ (padded 2 (seconds % 60) ++
    '.' :: padded 9 nsec.toNat))

theorem padded_isDigit {width n : Nat} {c : Char} (h : c ∈ padded width n) : c.isDigit = true :=
  List.all_eq_true.1 (padded_digit width n) c h

theorem padded_injective {width n m : Nat} (h : padded width n = padded width m) : n = m := by
  have hparse := parseDigits_padded width n
  rw [h, parseDigits_padded] at hparse
  exact (Option.some.inj hparse).symm

/-- Fields of the same width are the same fields. -/
theorem padded_append {width n m : Nat} {s t : List Char} (hpos : 0 < width) (hn : n < 10 ^ width)
    (hm : m < 10 ^ width) (h : padded width n ++ s = padded width m ++ t) : n = m ∧ s = t := by
  have hlength : (padded width n).length = (padded width m).length := by
    rw [length_padded hpos hn, length_padded hpos hm]
  obtain ⟨hfield, hrest⟩ := List.append_inj h hlength
  exact ⟨padded_injective hfield, hrest⟩

/-- The year with its sign. -/
def formatYear (year : Int) : List Char :=
  (if year < 0 then ['-'] else []) ++ padded 4 year.natAbs

theorem formatYear_injective {y y' : Int} (h : formatYear y = formatYear y') : y = y' := by
  have hsign : ∀ (n m : Nat), '-' :: padded 4 n ≠ padded 4 m := by
    intro n m heq
    have hdigit : '-' ∈ padded 4 m := heq ▸ List.mem_cons_self ..
    exact absurd (padded_isDigit hdigit) (by decide)
  unfold formatYear at h
  split at h
  · next hneg =>
      split at h
      · next hneg' =>
          have := padded_injective (List.cons.inj h).2
          omega
      · exact absurd h (hsign _ _)
  · next hpos =>
      split at h
      · exact absurd h.symm (hsign _ _)
      · next hpos' =>
          have := padded_injective h
          omega

theorem Date.format_injective {d d' : Date} (hd : d.Valid) (hd' : d'.Valid)
    (h : d.format = d'.format) : d = d' := by
  have hlast := daysIn_le d.month (isLeap d.year)
  have hlast' := daysIn_le d'.month (isLeap d'.year)
  obtain ⟨-, hmonth, -, hday⟩ := hd
  obtain ⟨-, hmonth', -, hday'⟩ := hd'
  have hsplit : ∀ d : Date, d.format =
      formatYear d.year ++ '-' :: (padded 2 d.month ++ '-' :: padded 2 d.day) := by
    intro d
    rw [Date.format, formatYear, List.append_assoc]
  rw [hsplit, hsplit] at h
  -- the month and the day are two digits each
  have hlength : ('-' :: (padded 2 d.month ++ '-' :: padded 2 d.day)).length =
      ('-' :: (padded 2 d'.month ++ '-' :: padded 2 d'.day)).length := by
    simp only [List.length_cons, List.length_append]
    rw [length_padded (by decide) (by omega), length_padded (by decide) (by omega),
      length_padded (by decide) (by omega), length_padded (by decide) (by omega)]
  obtain ⟨hyear, hrest⟩ := List.append_inj' h hlength
  obtain ⟨hmonths, hdays⟩ := padded_append (by decide) (by omega) (by omega) (List.cons.inj hrest).2
  have hdays' := padded_injective (List.cons.inj hdays).2
  cases d
  cases d'
  rw [Date.mk.injEq]
  exact ⟨formatYear_injective hyear, hmonths, hdays'⟩

/-- The text of a day says which. -/
theorem formatDay_injective {civil civil' : Int} (h : formatDay civil = formatDay civil') :
    civil / 86400 = civil' / 86400 := by
  obtain ⟨hvalid, hnumber⟩ := Date.ofNumber_spec (civil / 86400)
  obtain ⟨hvalid', hnumber'⟩ := Date.ofNumber_spec (civil' / 86400)
  rw [← hnumber, ← hnumber', Date.format_injective hvalid hvalid' h]

/-- The text of a time says which nanosecond of the day. -/
theorem formatTime_injective {civil civil' nsec nsec' : Int} (hn : 0 ≤ nsec ∧ nsec < 10 ^ 9)
    (hn' : 0 ≤ nsec' ∧ nsec' < 10 ^ 9) (h : formatTime civil nsec = formatTime civil' nsec') :
    civil % 86400 = civil' % 86400 ∧ nsec = nsec' := by
  have hlo := Int.emod_nonneg civil (b := 86400) (by decide)
  have hhi := Int.emod_lt_of_pos civil (b := 86400) (by decide)
  have hlo' := Int.emod_nonneg civil' (b := 86400) (by decide)
  have hhi' := Int.emod_lt_of_pos civil' (b := 86400) (by decide)
  unfold formatTime at h
  dsimp only at h
  obtain ⟨hhour, h⟩ := padded_append (by decide) (by omega) (by omega) h
  obtain ⟨hminute, h⟩ := padded_append (by decide) (by omega) (by omega) h
  obtain ⟨hsecond, h⟩ := padded_append (by decide) (by omega) (by omega) h
  have hnsec := padded_injective (List.cons.inj h).2
  constructor
  · omega
  · omega

theorem formatDay_chars (civil : Int) : ∀ c ∈ formatDay civil, c.isDigit = true ∨ c = '-' := by
  intro c hc
  rw [formatDay, Date.format, List.mem_append] at hc
  rcases hc with hc | hc
  · split at hc
    · exact .inr (List.mem_singleton.1 hc)
    · cases hc
  · simp only [List.mem_append, List.mem_cons] at hc
    rcases hc with hc | rfl | hc | rfl | hc
    · exact .inl (padded_isDigit hc)
    · exact .inr rfl
    · exact .inl (padded_isDigit hc)
    · exact .inr rfl
    · exact .inl (padded_isDigit hc)

theorem formatDay_ne_nil (civil : Int) : formatDay civil ≠ [] := by
  simp [formatDay, Date.format]

theorem formatTime_chars (civil nsec : Int) :
    ∀ c ∈ formatTime civil nsec, c.isDigit = true ∨ c = '.' := by
  intro c hc
  simp only [formatTime, List.mem_append, List.mem_cons] at hc
  rcases hc with hc | hc | hc | rfl | hc
  · exact .inl (padded_isDigit hc)
  · exact .inl (padded_isDigit hc)
  · exact .inl (padded_isDigit hc)
  · exact .inr rfl
  · exact .inl (padded_isDigit hc)

/-- The clock does not wrap. -/
theorem Clock.unix_eq (t : Clock) : t.unix = t.sec - unixToInternal := by
  have hconst : unixToInternal = 62135596800 := rfl
  have hfits := t.sec_fits
  have hrange := t.range
  simp only [fits64, decide_eq_true_eq] at hfits
  unfold Instant.unix at hrange ⊢
  rw [Int.bmod_def] at hrange ⊢
  split
  · next hlt =>
      rw [if_pos hlt] at hrange
      omega
  · next hge =>
      rw [if_neg hge] at hrange
      omega

theorem Clock.before_iff {t u : Clock} :
    t.before u.toInstant = true ↔ t.unix < u.unix ∨ t.unix = u.unix ∧ t.nsec < u.nsec := by
  rw [t.unix_eq, u.unix_eq]
  simp only [Instant.before, Bool.or_eq_true, Bool.and_eq_true, decide_eq_true_eq, beq_iff_eq]
  omega

end Lib
