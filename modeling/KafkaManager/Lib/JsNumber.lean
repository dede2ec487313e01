import KafkaManager.Lib.Decimal
import KafkaManager.Lib.Double

/-!
# Numbers of ECMAScript

A number is a finite number of binary64, an infinity or not a number; both
zeros are one here. `numericLiteral` is what `Number` makes of a string without
white space around it.

`Number::toString` writes the fewest digits that are rounded to the number. If
several decimals have as few digits, the standard leaves the choice to the
implementation, so that a `NumberText` is any choice that obeys the rule. There
is one, because a number of binary64 is a decimal itself.
-/

namespace Lib

inductive JsNumber
  | nan
  | infinite (negative : Bool)
  | finite (x : Double)

namespace JsNumber

/-- The Number value for a rational number -/
def ofRat (q : ℚ) : JsNumber := (toDouble q).elim (infinite (decide (q < 0))) finite

/-- A positive number in another base. -/
def readRadix (base : Nat) (s : List Char) : Option Nat :=
  if s.isEmpty then none
  else
    s.foldlM (fun n c => (hexValue c).bind fun d => if d < base then some (base * n + d) else none) 0

def readPrefixed : List Char → Option Nat
  | '0' :: c :: s =>
      if c = 'x' ∨ c = 'X' then readRadix 16 s
      else if c = 'o' ∨ c = 'O' then readRadix 8 s
      else if c = 'b' ∨ c = 'B' then readRadix 2 s
      else none
  | _ => none

def infinityWord : List Char := ['I', 'n', 'f', 'i', 'n', 'i', 't', 'y']

/-- What a string without white space around it is converted to. -/
def numericLiteral (s : List Char) : JsNumber :=
  if s.isEmpty then ofRat 0
  else if s = infinityWord ∨ s = '+' :: infinityWord then infinite false
  else if s = '-' :: infinityWord then infinite true
  else
    match readPrefixed s with
    | some n => ofRat n
    | none =>
        match readDecimal s with
        | some q => ofRat q
        | none => nan

theorem ofRat_natCast {n : Nat} (h : n < 2 ^ 53) :
    ∃ x : Double, x.value = n ∧ ofRat n = finite x := by
  have habs : |(n : Int)| < 2 ^ 53 := by
    rw [Nat.abs_cast]
    exact_mod_cast h
  obtain ⟨x, hx, hvalue⟩ := toDouble_intCast habs
  rw [Int.cast_natCast] at hx hvalue
  exact ⟨x, hvalue, by rw [ofRat, hx, Option.elim_some]⟩

/-- Digits are read as the number they stand for. -/
theorem numericLiteral_toDigits (n : Nat) : numericLiteral (Nat.toDigits 10 n) = ofRat n := by
  have hdecimal := readDecimal_toDigits n
  have hall := toDigits_digit n
  have hne : Nat.toDigits 10 n ≠ [] := Nat.toDigits_ne_nil
  generalize Nat.toDigits 10 n = digits at *
  have hpart : ∀ c ∈ digits, c.isDigit = true := List.all_eq_true.1 hall
  have hword : ∀ c : Char, c.isDigit = false → ∀ s, c ∈ s → digits ≠ s := by
    rintro c hc s hs rfl
    rw [hpart c hs] at hc
    cases hc
  have hI : 'I' ∈ infinityWord := List.mem_cons_self
  have hprefixed : readPrefixed digits = none := by
    unfold readPrefixed
    split
    · next c s =>
        have hc := hpart c (by simp)
        have hletter : ∀ d : Char, d.isDigit = false → c ≠ d := by
          rintro d hd rfl
          rw [hc] at hd
          cases hd
        rw [if_neg (by simp [hletter]), if_neg (by simp [hletter]), if_neg (by simp [hletter])]
    · rfl
  rw [numericLiteral, if_neg (by simp [hne]),
    if_neg (not_or.2 ⟨hword 'I' rfl _ hI, hword 'I' rfl _ (List.mem_cons_of_mem _ hI)⟩),
    if_neg (hword 'I' rfl _ (List.mem_cons_of_mem _ hI)), hprefixed, hdecimal]

end JsNumber

/-! ## `Number::toString` -/

/-- Digits and an exponent that stand for a number, and no fewer digits do. -/
structure Shortest (x : Double) (s : Nat) (e : Int) : Prop where
  pos : 0 < s
  rounds : toDouble ((s : ℚ) * 10 ^ e) = some x
  least : ∀ (s' : Nat) (e' : Int), 0 < s' → toDouble ((s' : ℚ) * 10 ^ e') = some x →
    (Nat.toDigits 10 s).length ≤ (Nat.toDigits 10 s').length

/-- The digits an implementation writes positive numbers with. -/
structure NumberText where
  digits : Double → Nat × Int
  shortest : ∀ x : Double, 0 < x.value → Shortest x (digits x).1 (digits x).2

namespace NumberText

variable (T : NumberText)

/-- What a finite number is written as. -/
def numeral (x : Double) : Numeral :=
  if h : x.value = 0 then .ofInt 0
  else
    .ofDecimal (decide (x.value < 0)) (T.digits x.abs).1 (T.digits x.abs).2
      (T.shortest x.abs (abs_pos.2 h)).pos

theorem numeral_zero {x : Double} (h : x.value = 0) : (T.numeral x).value = 0 := by
  rw [numeral, dif_pos h, ← Nat.cast_zero]
  exact Numeral.value_of_read (readDecimal_toDigits 0)

/-- What is written is read as the number. -/
theorem numeral_rounds (x : Double) : toDouble (T.numeral x).value = some x := by
  rcases eq_or_ne x.value 0 with h | h
  · rw [T.numeral_zero h, ← h, toDouble_value]
  · have hshortest := T.shortest x.abs (abs_pos.2 h)
    rw [numeral, dif_neg h, Numeral.value_ofDecimal]
    rcases lt_or_gt_of_ne h with hneg | hpos
    · rw [decide_eq_true hneg, if_pos rfl, neg_one_mul, toDouble_neg, hshortest.rounds,
        Option.map_some]
      refine congrArg some (Double.ext ?_)
      simp [Double.neg, Double.abs, abs_of_neg hneg]
    · rw [decide_eq_false hpos.not_gt, if_neg (by simp), one_mul, hshortest.rounds]
      refine congrArg some (Double.ext ?_)
      simp [Double.abs, abs_of_pos hpos]

end NumberText

end Lib
