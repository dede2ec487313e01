import KafkaManager.Lib.Json
import Mathlib.Algebra.Order.Field.Rat
import Mathlib.Tactic.NormNum
import Mathlib.Tactic.Ring

/-!
# Decimal literals

What a decimal literal with a point and an exponent stands for, as a rational
number, and how digits with a power of ten are written: plainly as long as
there are few zeros to add, else with an exponent. What is written is a literal
of JSON and is read back as what it was written for.
-/

namespace Lib

/-! ## Reading -/

/-- The digits behind a point, and what is after them. -/
def splitFraction : List Char → List Char × List Char
  | '.' :: s => (s.takeWhile Char.isDigit, s.dropWhile Char.isDigit)
  | s => ([], s)

def readExponent : List Char → Option Int
  | [] => some 0
  | c :: s => if c = 'e' ∨ c = 'E' then parseSigned s else none

/-- Digits, a point with digits, an exponent. There may be no digits before the
point or none after it. -/
def readUnsigned (s : List Char) : Option ℚ :=
  let whole := s.takeWhile Char.isDigit
  let (fraction, after) := splitFraction (s.dropWhile Char.isDigit)
  if whole.isEmpty && fraction.isEmpty then none
  else
    (readExponent after).map fun e : Int =>
      (Nat.ofDigitChars 10 (whole ++ fraction) 0 : ℚ) * 10 ^ (e - fraction.length)

def readDecimal : List Char → Option ℚ
  | '-' :: s => (readUnsigned s).map fun q => -q
  | '+' :: s => readUnsigned s
  | s => readUnsigned s

/-- Where no more digits follow, as at a point or an exponent. -/
def NoDigit : List Char → Prop
  | [] => True
  | c :: _ => c.isDigit = false

theorem noDigit_nil : NoDigit [] := trivial

theorem takeWhile_digits {digits after : List Char} (hdigits : digits.all Char.isDigit = true)
    (hafter : NoDigit after) :
    (digits ++ after).takeWhile Char.isDigit = digits ∧
      (digits ++ after).dropWhile Char.isDigit = after := by
  rw [List.takeWhile_append_of_pos (List.all_eq_true.1 hdigits),
    List.dropWhile_append_of_pos (List.all_eq_true.1 hdigits)]
  cases after with
  | nil => simp
  | cons c after =>
      have hc : c.isDigit = false := hafter
      simp [hc]

/-- The three parts of a literal. -/
theorem readUnsigned_parts {whole fraction after : List Char} {e : Int}
    (hwhole : whole.all Char.isDigit = true) (hne : whole ≠ [])
    (hfraction : fraction.all Char.isDigit = true) (hafter : NoDigit after)
    (he : readExponent after = some e) :
    readUnsigned (whole ++ '.' :: (fraction ++ after)) =
      some ((Nat.ofDigitChars 10 (whole ++ fraction) 0 : ℚ) * 10 ^ (e - fraction.length)) := by
  have hpoint : NoDigit ('.' :: (fraction ++ after)) := rfl
  obtain ⟨htake, hdrop⟩ := takeWhile_digits hwhole hpoint
  obtain ⟨htake', hdrop'⟩ := takeWhile_digits hfraction hafter
  simp [readUnsigned, htake, hdrop, splitFraction, htake', hdrop', he, hne]

/-- A literal without a point. -/
theorem readUnsigned_whole {whole after : List Char} {e : Int}
    (hwhole : whole.all Char.isDigit = true) (hne : whole ≠ []) (hafter : NoDigit after)
    (he : readExponent after = some e) :
    readUnsigned (whole ++ after) = some ((Nat.ofDigitChars 10 whole 0 : ℚ) * 10 ^ e) := by
  obtain ⟨htake, hdrop⟩ := takeWhile_digits hwhole hafter
  have hsplit : splitFraction after = ([], after) := by
    unfold splitFraction
    split
    · cases he
    · rfl
  simp [readUnsigned, htake, hdrop, hsplit, he, hne]

theorem readUnsigned_toDigits (n : Nat) : readUnsigned (Nat.toDigits 10 n) = some (n : ℚ) := by
  have hread := readUnsigned_whole (toDigits_digit n) Nat.toDigits_ne_nil noDigit_nil rfl
  rw [List.append_nil, Nat.ofDigitChars_ten_toDigits, zpow_zero, mul_one] at hread
  exact hread

/-! ### Literals of JSON -/

namespace NumState

/-- What is still to come of a literal. -/
def Shape : NumState → List Char → Prop
  | minus, s => s.takeWhile Char.isDigit ≠ [] ∧
      (readExponent (splitFraction (s.dropWhile Char.isDigit)).2).isSome
  | zero, s => NoDigit s ∧ (readExponent (splitFraction s).2).isSome
  | digits, s => (readExponent (splitFraction (s.dropWhile Char.isDigit)).2).isSome
  | dot, s | fraction, s => (readExponent (s.dropWhile Char.isDigit)).isSome
  | exponent, s => (parseSigned s).isSome
  | sign, s => (parseDigits s).isSome
  | power, s => s.all Char.isDigit = true

theorem parseDigits_isSome {s : List Char} (hne : s ≠ []) (h : s.all Char.isDigit = true) :
    (parseDigits s).isSome := by
  rw [parseDigits, if_pos]
  · rfl
  · rw [h, List.isEmpty_eq_false_iff.2 hne]
    rfl

theorem splitFraction_exponent {c : Char} (hc : c = 'e' ∨ c = 'E') (s : List Char) :
    readExponent (splitFraction (c :: s)).2 = parseSigned s := by
  rcases hc with rfl | rfl
  · rfl
  · rfl

theorem shape_ends {st : NumState} (h : st.ends = true) : st.Shape [] := by
  cases st with
  | minus | dot | exponent | sign => cases h
  | zero => exact ⟨trivial, rfl⟩
  | digits | fraction | power => rfl

/-- The shape goes back over a character as the state goes on. -/
theorem shape_cons {st st' : NumState} {c : Char} {s : List Char} (hnext : st.next c = some st')
    (h : st'.Shape s) : st.Shape (c :: s) := by
  cases st with
  | minus =>
      simp only [next, beq_iff_eq] at hnext
      split at hnext
      · next hc =>
          obtain rfl := hc
          obtain rfl := Option.some.inj hnext
          have hzero : ['0'].all Char.isDigit = true := rfl
          have hdrop := (takeWhile_digits hzero h.1).2
          exact ⟨by simp, by rw [← List.singleton_append, hdrop]; exact h.2⟩
      · split at hnext
        · next hc =>
            obtain rfl := Option.some.inj hnext
            exact ⟨by simp [hc], by rw [List.dropWhile_cons_of_pos hc]; exact h⟩
        · cases hnext
  | zero =>
      simp only [next, beq_iff_eq, Bool.or_eq_true] at hnext
      split at hnext
      · next hc =>
          obtain rfl := hc
          obtain rfl := Option.some.inj hnext
          exact ⟨rfl, h⟩
      · split at hnext
        · next hc =>
            obtain rfl := Option.some.inj hnext
            refine ⟨?_, by rw [splitFraction_exponent hc]; exact h⟩
            rcases hc with rfl | rfl
            · rfl
            · rfl
        · cases hnext
  | digits =>
      simp only [next, beq_iff_eq, Bool.or_eq_true] at hnext
      split at hnext
      · next hc =>
          obtain rfl := Option.some.inj hnext
          rw [Shape, List.dropWhile_cons_of_pos hc]
          exact h
      · next hdigit =>
          rw [Shape, List.dropWhile_cons_of_neg hdigit]
          split at hnext
          · next hc =>
              obtain rfl := hc
              obtain rfl := Option.some.inj hnext
              exact h
          · split at hnext
            · next hc =>
                obtain rfl := Option.some.inj hnext
                rw [splitFraction_exponent hc]
                exact h
            · cases hnext
  | dot =>
      simp only [next] at hnext
      split at hnext
      · next hc =>
          obtain rfl := Option.some.inj hnext
          rw [Shape, List.dropWhile_cons_of_pos hc]
          exact h
      · cases hnext
  | fraction =>
      simp only [next, beq_iff_eq, Bool.or_eq_true] at hnext
      split at hnext
      · next hc =>
          obtain rfl := Option.some.inj hnext
          rw [Shape, List.dropWhile_cons_of_pos hc]
          exact h
      · next hdigit =>
          rw [Shape, List.dropWhile_cons_of_neg hdigit]
          split at hnext
          · next hc =>
              obtain rfl := Option.some.inj hnext
              rw [readExponent, if_pos hc]
              exact h
          · cases hnext
  | exponent =>
      simp only [next, beq_iff_eq, Bool.or_eq_true] at hnext
      split at hnext
      · next hc =>
          obtain rfl := Option.some.inj hnext
          rcases hc with rfl | rfl
          · rw [Shape, parseSigned, Option.isSome_map]
            exact h
          · rw [Shape, parseSigned, Option.isSome_map]
            exact h
      · split at hnext
        · next hc =>
            obtain rfl := Option.some.inj hnext
            have hall : (c :: s).all Char.isDigit = true := by
              rw [List.all_cons, hc]
              exact h
            rw [Shape, parseSigned_of_digits hall, Option.isSome_map]
            exact parseDigits_isSome (List.cons_ne_nil _ _) hall
        · cases hnext
  | sign =>
      simp only [next] at hnext
      split at hnext
      · next hc =>
          obtain rfl := Option.some.inj hnext
          refine parseDigits_isSome (List.cons_ne_nil _ _) ?_
          rw [List.all_cons, hc]
          exact h
      · cases hnext
  | power =>
      simp only [next] at hnext
      split at hnext
      · next hc =>
          obtain rfl := Option.some.inj hnext
          rw [Shape, List.all_cons, hc]
          exact h
      · cases hnext

theorem scan_shape {st : NumState} {s : List Char} (h : st.scan s = some (s, [])) :
    st.Shape s := by
  induction s generalizing st with
  | nil =>
      rw [scan] at h
      split at h
      · next hends => exact shape_ends hends
      · cases h
  | cons c s ih =>
      obtain ⟨st', hnext, hscan⟩ := scan_cons h
      exact shape_cons hnext (ih hscan)

/-- What may follow a minus sign is a literal without one. -/
theorem shape_minus {s : List Char} (h : minus.Shape s) : (readUnsigned s).isSome := by
  have hne : (s.takeWhile Char.isDigit).isEmpty = false := List.isEmpty_eq_false_iff.2 h.1
  simp only [readUnsigned, hne, Bool.false_and, Bool.false_eq_true, if_false, Option.isSome_map]
  exact h.2

end NumState

theorem NumState.next_minus {st : NumState} {c : Char} (h : minus.next c = some st) :
    c.isDigit = true := by
  simp only [next, beq_iff_eq] at h
  split at h
  · next hc =>
      rw [hc]
      rfl
  · split at h
    · next hc => exact hc
    · cases h

/-- A digit is no sign. -/
theorem readDecimal_digit {c : Char} (hc : c.isDigit = true) (s : List Char) :
    readDecimal (c :: s) = readUnsigned (c :: s) := by
  unfold readDecimal
  split
  · next h =>
      rw [(List.cons.inj h).1] at hc
      cases hc
  · next h =>
      rw [(List.cons.inj h).1] at hc
      cases hc
  · rfl

/-- A literal with a minus sign or without. -/
theorem scanNumber_cases {s : List Char} (h : scanNumber s = some (s, [])) :
    (∃ t, s = '-' :: t ∧ NumState.minus.scan t = some (t, [])) ∨
      (NumState.minus.scan s = some (s, []) ∧ readDecimal s = readUnsigned s) := by
  cases s with
  | nil => cases h
  | cons c s =>
      rw [scanNumber] at h
      split at h
      · cases h
      · next st hstart =>
          obtain ⟨⟨tail, after⟩, hscan, heq⟩ := Option.map_eq_some_iff.1 h
          obtain ⟨htail, rfl⟩ := Prod.mk.inj heq
          obtain rfl := (List.cons.inj htail).2
          simp only [NumState.start, beq_iff_eq] at hstart
          split at hstart
          · next hc =>
              obtain rfl := hc
              obtain rfl := Option.some.inj hstart
              exact .inl ⟨tail, rfl, hscan⟩
          · refine .inr ⟨?_, readDecimal_digit (NumState.next_minus hstart) tail⟩
            simp only [NumState.scan, hstart, hscan, Option.map_some]

theorem readDecimal_toDigits (n : Nat) : readDecimal (Nat.toDigits 10 n) = some (n : ℚ) := by
  have hread := readUnsigned_toDigits n
  have hall := toDigits_digit n
  have hne : Nat.toDigits 10 n ≠ [] := Nat.toDigits_ne_nil
  generalize Nat.toDigits 10 n = digits at *
  cases digits with
  | nil => exact absurd rfl hne
  | cons c s => rw [readDecimal_digit (Bool.and_eq_true_iff.1 hall).1, hread]

namespace Numeral

theorem readDecimal_isSome (n : Numeral) : (readDecimal n.literal).isSome := by
  rcases scanNumber_cases n.scans with ⟨s, hliteral, hscan⟩ | ⟨hscan, hread⟩
  · rw [hliteral, readDecimal, Option.isSome_map]
    exact NumState.shape_minus (NumState.scan_shape hscan)
  · rw [hread]
    exact NumState.shape_minus (NumState.scan_shape hscan)

/-- What the literal stands for. -/
def value (n : Numeral) : ℚ := (readDecimal n.literal).get n.readDecimal_isSome

theorem value_of_read {n : Numeral} {q : ℚ} (h : readDecimal n.literal = some q) : n.value = q := by
  simp only [value, h, Option.get_some]

/-- An integer literal: no point and no exponent. -/
def Integral (n : Numeral) : Prop := ∀ c ∈ n.literal, c ≠ '.' ∧ c ≠ 'e' ∧ c ≠ 'E'

end Numeral

/-- Without a point and an exponent a literal goes on with digits. -/
theorem NumState.scan_integral {st : NumState} {s : List Char}
    (hst : st = .minus ∨ st = .zero ∨ st = .digits) (h : st.scan s = some (s, []))
    (hs : ∀ c ∈ s, c ≠ '.' ∧ c ≠ 'e' ∧ c ≠ 'E') : s.all Char.isDigit = true := by
  induction s generalizing st with
  | nil => rfl
  | cons c s ih =>
      obtain ⟨st', hnext, hscan⟩ := scan_cons h
      obtain ⟨hdot, he, hE⟩ := hs c List.mem_cons_self
      have hstep : c.isDigit = true ∧ (st' = .minus ∨ st' = .zero ∨ st' = .digits) := by
        rcases hst with rfl | rfl | rfl
        · refine ⟨next_minus hnext, ?_⟩
          simp only [next] at hnext
          split at hnext
          · exact .inr (.inl (Option.some.inj hnext).symm)
          · split at hnext
            · exact .inr (.inr (Option.some.inj hnext).symm)
            · cases hnext
        · simp [next, hdot, he, hE] at hnext
        · simp only [next] at hnext
          split at hnext
          · next hc => exact ⟨hc, .inr (.inr (Option.some.inj hnext).symm)⟩
          · simp [hdot, he, hE] at hnext
      rw [List.all_cons, hstep.1,
        ih hstep.2 hscan fun d hd => hs d (List.mem_cons_of_mem _ hd)]
      rfl

/-- What an integer literal stands for is an integer. -/
theorem Numeral.Integral.value {n : Numeral} (h : n.Integral) : ∃ k : Int, n.value = k := by
  have hdigits : ∀ {s : List Char}, NumState.minus.scan s = some (s, []) →
      (∀ c ∈ s, c ≠ '.' ∧ c ≠ 'e' ∧ c ≠ 'E') →
        readUnsigned s = some (Nat.ofDigitChars 10 s 0 : ℚ) := by
    intro s hscan hs
    have hne : s ≠ [] := by
      rintro rfl
      cases hscan
    have hread := readUnsigned_whole (NumState.scan_integral (.inl rfl) hscan hs) hne noDigit_nil rfl
    rw [List.append_nil, zpow_zero, mul_one] at hread
    exact hread
  rcases scanNumber_cases n.scans with ⟨s, hliteral, hscan⟩ | ⟨hscan, hread⟩
  · have hs := hdigits hscan fun c hc => h c (by rw [hliteral]; exact List.mem_cons_of_mem _ hc)
    refine ⟨-(Nat.ofDigitChars 10 s 0 : Int), value_of_read ?_⟩
    rw [hliteral, readDecimal, hs, Option.map_some]
    push_cast
    rfl
  · refine ⟨(Nat.ofDigitChars 10 n.literal 0 : Int), value_of_read ?_⟩
    rw [hread, hdigits hscan h]
    push_cast
    rfl

/-! ## Writing -/

/-- The digits of `s`, the point `e` places before their end. The point is as
many places behind the first digit as `point` says. -/
def formatDecimal (s : Nat) (e : Int) : List Char :=
  let digits := Nat.toDigits 10 s
  let point : Int := digits.length + e
  if 0 ≤ e ∧ point ≤ 21 then digits ++ List.replicate e.toNat '0'
  else if 0 < point ∧ point ≤ 21 then
    digits.take point.toNat ++ '.' :: digits.drop point.toNat
  else if -6 < point ∧ point ≤ 0 then
    '0' :: '.' :: (List.replicate (-point).toNat '0' ++ digits)
  else
    digits.take 1 ++ ((if digits.length = 1 then [] else '.' :: digits.drop 1) ++
      'e' :: (if point - 1 < 0 then '-' else '+') :: Nat.toDigits 10 (point - 1).natAbs)

theorem readExponent_format (n : Int) :
    readExponent ('e' :: (if n < 0 then '-' else '+') :: Nat.toDigits 10 n.natAbs) = some n := by
  rw [readExponent, if_pos (.inl rfl)]
  split
  · next h =>
      rw [parseSigned, parseDigits_toDigits, Option.map_some]
      congr
      omega
  · next h =>
      rw [parseSigned, parseDigits_toDigits, Option.map_some]
      congr
      omega

theorem readUnsigned_formatDecimal (s : Nat) (e : Int) :
    readUnsigned (formatDecimal s e) = some ((s : ℚ) * 10 ^ e) := by
  have hdigits := toDigits_digit s
  have hvalue : Nat.ofDigitChars 10 (Nat.toDigits 10 s) 0 = s := Nat.ofDigitChars_ten_toDigits
  have hne : Nat.toDigits 10 s ≠ [] := Nat.toDigits_ne_nil
  simp only [formatDecimal]
  generalize Nat.toDigits 10 s = digits at *
  have hpos := List.length_pos_iff.2 hne
  have hzeros : ∀ n, (List.replicate n '0').all Char.isDigit = true := by simp
  -- both halves of the digits
  have htake : ∀ n, (digits.take n).all Char.isDigit = true := fun n =>
    List.all_eq_true.2 fun c hc => List.all_eq_true.1 hdigits c (List.mem_of_mem_take hc)
  have hdrop : ∀ n, (digits.drop n).all Char.isDigit = true := fun n =>
    List.all_eq_true.2 fun c hc => List.all_eq_true.1 hdigits c (List.mem_of_mem_drop hc)
  have htakeNe : ∀ n, 0 < n → digits.take n ≠ [] := by
    intro n hn hnil
    rcases List.take_eq_nil_iff.1 hnil with h | h
    · omega
    · exact hne h
  split
  · -- zeros behind the digits
    next h =>
      have hall : (digits ++ List.replicate e.toNat '0').all Char.isDigit = true := by
        rw [List.all_append, hdigits, hzeros]
        rfl
      have hread := readUnsigned_whole hall (by simp [hne]) noDigit_nil rfl
      rw [List.append_nil, Nat.ofDigitChars_append, hvalue, Nat.ofDigitChars_replicate_zero,
        zpow_zero, mul_one] at hread
      rw [hread]
      lift e to ℕ using h.1
      push_cast
      rw [Int.toNat_natCast, zpow_natCast, mul_comm]
  · split
    · -- the point between the digits
      next h =>
        have hread := readUnsigned_parts (htake (digits.length + e).toNat) (htakeNe _ (by omega))
          (hdrop (digits.length + e).toNat) noDigit_nil rfl
        rw [List.append_nil, List.take_append_drop, hvalue, List.length_drop] at hread
        rw [hread]
        congr 3
        omega
    · split
      · -- zeros before the digits
        next h =>
          have hzero : ['0'].all Char.isDigit = true := rfl
          have hall : (List.replicate (-(digits.length + e)).toNat '0' ++ digits).all Char.isDigit =
              true := by
            rw [List.all_append, hdigits, hzeros]
            rfl
          have hsum : Nat.ofDigitChars 10
              (['0'] ++ (List.replicate (-(digits.length + e)).toNat '0' ++ digits)) 0 = s := by
            rw [← List.append_assoc, List.singleton_append, ← List.replicate_succ,
              Nat.ofDigitChars_append, Nat.ofDigitChars_replicate_zero, Nat.mul_zero, hvalue]
          have hread := readUnsigned_parts hzero (List.cons_ne_nil _ _) hall noDigit_nil rfl
          rw [List.append_nil, List.singleton_append, hsum, List.length_append,
            List.length_replicate] at hread
          rw [hread]
          congr 3
          omega
      · -- an exponent
        have hexponent := readExponent_format (digits.length + e - 1)
        have hletter : ∀ t, NoDigit ('e' :: t) := fun _ => rfl
        split
        · next h =>
            have hall : digits.take 1 = digits := List.take_of_length_le (by omega)
            have hread := readUnsigned_whole (htake 1) (htakeNe 1 (by omega)) (hletter _) hexponent
            rw [List.nil_append, hread, hall, hvalue]
            congr 3
            omega
        · next h =>
            have hread := readUnsigned_parts (htake 1) (htakeNe 1 (by omega)) (hdrop 1) (hletter _)
              hexponent
            rw [List.cons_append, hread, List.take_append_drop, hvalue, List.length_drop]
            congr 3
            omega

/-! ### What is written is a literal of JSON -/

namespace NumState

/-- From the state on the whole text is a literal. -/
def Accepts (st : NumState) (s : List Char) : Prop := st.scan s = some (s, [])

section

variable {st st' : NumState} {c : Char} {s t : List Char}

theorem accepts_cons (hnext : st.next c = some st') (h : st'.Accepts s) : st.Accepts (c :: s) := by
  rw [Accepts] at h ⊢
  simp only [scan, hnext, h, Option.map_some]

theorem accepts_digits (hst : ∀ c, c.isDigit = true → st.next c = some st)
    (hs : s.all Char.isDigit = true) (h : st.Accepts t) : st.Accepts (s ++ t) := by
  induction s with
  | nil => exact h
  | cons c s ih =>
      obtain ⟨hc, hs⟩ := Bool.and_eq_true_iff.1 hs
      exact accepts_cons (hst c hc) (ih hs)

theorem digits_next (c : Char) (hc : c.isDigit = true) : digits.next c = some digits := by
  simp [next, hc]

theorem fraction_next (c : Char) (hc : c.isDigit = true) : fraction.next c = some fraction := by
  simp [next, hc]

theorem power_next (c : Char) (hc : c.isDigit = true) : power.next c = some power := by
  simp [next, hc]

theorem accepts_power (hs : s.all Char.isDigit = true) : power.Accepts s := by
  have hend : power.Accepts [] := rfl
  have haccepts := accepts_digits power_next hs hend
  rwa [List.append_nil] at haccepts

theorem accepts_point (hs : s.all Char.isDigit = true) (hne : s ≠ []) (h : fraction.Accepts t) :
    dot.Accepts (s ++ t) := by
  cases s with
  | nil => exact absurd rfl hne
  | cons c s =>
      obtain ⟨hc, hs⟩ := Bool.and_eq_true_iff.1 hs
      have hnext : dot.next c = some fraction := by simp [next, hc]
      exact accepts_cons hnext (accepts_digits fraction_next hs h)

theorem accepts_exponent (n : Int) :
    exponent.Accepts ((if n < 0 then '-' else '+') :: Nat.toDigits 10 n.natAbs) := by
  have hsign : exponent.next (if n < 0 then '-' else '+') = some sign := by
    split
    · rfl
    · rfl
  refine accepts_cons hsign ?_
  have hall := toDigits_digit n.natAbs
  have hne : Nat.toDigits 10 n.natAbs ≠ [] := Nat.toDigits_ne_nil
  generalize Nat.toDigits 10 n.natAbs = power at *
  cases power with
  | nil => exact absurd rfl hne
  | cons c s =>
      obtain ⟨hc, hs⟩ := Bool.and_eq_true_iff.1 hall
      have hnext : sign.next c = some .power := by simp [next, hc]
      exact accepts_cons hnext (accepts_power hs)

end

theorem accepts_formatDecimal {s : Nat} (e : Int) (hs : 0 < s) :
    minus.Accepts (formatDecimal s e) := by
  obtain ⟨c, rest, hdigits, hc⟩ := Numeral.toDigits_head hs
  have hall := toDigits_digit s
  simp only [formatDecimal, hdigits] at hall ⊢
  obtain ⟨hdigit, hrest⟩ := Bool.and_eq_true_iff.1 hall
  have hfirst : minus.next c = some .digits := by simp [next, hc, hdigit]
  have hpoint : NumState.digits.next '.' = some .dot := rfl
  have hletter : NumState.digits.next 'e' = some .exponent := rfl
  have hzeros : ∀ n, (List.replicate n '0').all Char.isDigit = true := by simp
  split
  · -- zeros behind the digits
    have htail : (rest ++ List.replicate e.toNat '0').all Char.isDigit = true := by
      rw [List.all_append, hrest, hzeros]
      rfl
    exact accepts_cons hfirst (scan_digits htail)
  · next hplain =>
    split
    · -- the point between the digits
      next h =>
        obtain ⟨n, hn⟩ : ∃ n, ((c :: rest).length + e).toNat = n + 1 :=
          Nat.exists_eq_succ_of_ne_zero (by omega)
        have htake : (rest.take n).all Char.isDigit = true :=
          List.all_eq_true.2 fun d hd => List.all_eq_true.1 hrest d (List.mem_of_mem_take hd)
        have hdrop : (rest.drop n).all Char.isDigit = true :=
          List.all_eq_true.2 fun d hd => List.all_eq_true.1 hrest d (List.mem_of_mem_drop hd)
        have hne : rest.drop n ≠ [] := by
          rw [← List.length_pos_iff, List.length_drop]
          rw [List.length_cons] at hplain h hn
          omega
        have hend : fraction.Accepts [] := rfl
        have hfraction := accepts_point hdrop hne hend
        rw [List.append_nil] at hfraction
        rw [hn, List.take_succ_cons, List.drop_succ_cons]
        exact accepts_cons hfirst (accepts_digits digits_next htake (accepts_cons hpoint hfraction))
    · split
      · -- zeros before the digits
        next h =>
          have htail : (List.replicate (-((c :: rest).length + e)).toNat '0' ++ (c :: rest)).all
              Char.isDigit = true := by
            rw [List.all_append, hzeros]
            exact hall
          have hend : fraction.Accepts [] := rfl
          have hfraction := accepts_point htail (by simp) hend
          rw [List.append_nil] at hfraction
          have hzero : minus.next '0' = some .zero := rfl
          have hdot : NumState.zero.next '.' = some .dot := rfl
          exact accepts_cons hzero (accepts_cons hdot hfraction)
      · -- an exponent
        have hexponent := accepts_exponent ((c :: rest).length + e - 1)
        split
        · exact accepts_cons hfirst (accepts_cons hletter hexponent)
        · next h =>
            have hne : rest ≠ [] := by
              rintro rfl
              exact h rfl
            have hfraction : fraction.next 'e' = some .exponent := rfl
            exact accepts_cons hfirst (accepts_cons hpoint
              (accepts_point hrest hne (accepts_cons hfraction hexponent)))

end NumState

theorem scanNumber_accepts {s : List Char} (h : NumState.minus.Accepts s) :
    scanNumber s = some (s, []) ∧ readDecimal s = readUnsigned s := by
  cases s with
  | nil => cases h
  | cons c s =>
      obtain ⟨st, hnext, hscan⟩ := NumState.scan_cons h
      have hdigit := NumState.next_minus hnext
      have hc : c ≠ '-' := by
        rintro rfl
        cases hdigit
      have hstart : NumState.start c = some st := by
        rw [NumState.start, if_neg (by simp [hc]), hnext]
      simp only [scanNumber, hstart, hscan, Option.map_some, readDecimal_digit hdigit, and_self]

theorem scanNumber_minus {s : List Char} (h : NumState.minus.Accepts s) :
    scanNumber ('-' :: s) = some ('-' :: s, []) := by
  have hstart : NumState.start '-' = some .minus := rfl
  rw [NumState.Accepts] at h
  simp only [scanNumber, hstart, h, Option.map_some]

namespace Numeral

/-- A decimal as a literal. -/
def ofDecimal (negative : Bool) (s : Nat) (e : Int) (hs : 0 < s) : Numeral where
  literal := if negative then '-' :: formatDecimal s e else formatDecimal s e
  scans := by
    have haccepts := NumState.accepts_formatDecimal e hs
    split
    · exact scanNumber_minus haccepts
    · exact (scanNumber_accepts haccepts).1

theorem value_ofDecimal (negative : Bool) {s : Nat} (e : Int) (hs : 0 < s) :
    (ofDecimal negative s e hs).value = (if negative then -1 else 1) * ((s : ℚ) * 10 ^ e) := by
  refine value_of_read ?_
  have hread := readUnsigned_formatDecimal s e
  cases negative with
  | true =>
      simp only [ofDecimal, if_true, readDecimal, hread, Option.map_some]
      ring_nf
  | false =>
      simp only [ofDecimal, Bool.false_eq_true, if_false, one_mul]
      rw [(scanNumber_accepts (NumState.accepts_formatDecimal e hs)).2, hread]

end Numeral

end Lib
