import KafkaManager.Lib.JsonTree

/-!
# Strings of ECMAScript in JSON

A string is its UTF-16 units, and a surrogate may stand alone. `JSON.parse`
takes the units of the characters and of the escapes of a literal. What
`JSON.stringify` writes is well-formed: a pair of surrogates is written as the
character it is, one alone as an escape.
-/

namespace Lib

abbrev JsString := List UInt16

namespace JsString

def utf16 (c : Char) : JsString :=
  if c.toNat < 0x10000 then [.ofNat c.toNat]
  else [.ofNat (0xD800 + (c.toNat - 0x10000) / 0x400), .ofNat (0xDC00 + (c.toNat - 0x10000) % 0x400)]

def ofText (s : List Char) : JsString := s.flatMap utf16

def isHigh (u : UInt16) : Bool := isHighSurrogate u.toNat

def isLow (u : UInt16) : Bool := isLowSurrogate u.toNat

/-! ## Literals -/

def literalUnits : StringUnit → JsString
  | .char c => utf16 c
  | .code n => [.ofNat n]

def readLiteral (s : List Char) : Option (JsString × List Char) :=
  (scanString .plain s).map fun (units, after) => (units.flatMap literalUnits, after)

/-- A unit that is not half of a pair. -/
def quoteUnit (u : UInt16) : List Char :=
  match shortEscape (Char.ofNat u.toNat) with
  | some letter => ['\\', letter]
  | none =>
      if u.toNat < 0x20 || isHigh u || isLow u then '\\' :: 'u' :: hex4 u.toNat
      else [Char.ofNat u.toNat]

/-- The character of a pair. -/
def pairChar (u v : UInt16) : Char :=
  Char.ofNat (0x10000 + (u.toNat - 0xD800) * 0x400 + (v.toNat - 0xDC00))

def quoteUnits : JsString → List Char
  | u :: v :: rest =>
      if isHigh u && isLow v then pairChar u v :: quoteUnits rest
      else quoteUnit u ++ quoteUnits (v :: rest)
  | [u] => quoteUnit u
  | [] => []

/-- `QuoteJSONString`, without the first quote -/
def quote (s : JsString) : List Char := quoteUnits s ++ ['"']

/-! ## What is quoted is read -/

theorem scanString_char {c : Char} (hquote : c ≠ '"') (hslash : c ≠ '\\') (hcontrol : 0x20 ≤ c.toNat)
    (s : List Char) :
    scanString .plain (c :: s) =
      (scanString .plain s).map fun (units, after) => (.char c :: units, after) := by
  have hlt : ¬ c.toNat < 0x20 := by omega
  simp [scanString, hquote, hslash, hlt]

theorem scanString_short {c letter : Char} (h : shortEscape c = some letter) (s : List Char) :
    scanString .plain ('\\' :: letter :: s) =
      (scanString .plain s).map fun (units, after) => (.char c :: units, after) := by
  simp [scanString, shortValue_shortEscape h]

theorem scanString_code {n : Nat} (h : n < 0x10000) (s : List Char) :
    scanString .plain ('\\' :: 'u' :: (hex4 n ++ s)) =
      (scanString .plain s).map fun (units, after) => (.code n :: units, after) := by
  have hu : shortValue 'u' = none := by decide
  simp [scanString, hu, scanString_hex4 h]

theorem char_toNat {n : Nat} (h : n < 0xD800 ∨ 0xDFFF < n ∧ n < 0x110000) :
    (Char.ofNat n).toNat = n := by
  have hvalid : n.isValidChar := by
    rcases h with h | h
    · exact .inl h
    · exact .inr h
  rw [Char.ofNat, dif_pos hvalid]
  rfl

/-- A unit that is no surrogate is a character. -/
theorem utf16_unit {u : UInt16} (hhigh : isHigh u = false) (hlow : isLow u = false) :
    (Char.ofNat u.toNat).toNat = u.toNat ∧ utf16 (Char.ofNat u.toNat) = [u] := by
  have hlt := u.toNat_lt
  simp only [isHigh, isLow, isHighSurrogate, isLowSurrogate, Bool.and_eq_false_iff,
    decide_eq_false_iff_not] at hhigh hlow
  have hchar : (Char.ofNat u.toNat).toNat = u.toNat := char_toNat (by omega)
  refine ⟨hchar, ?_⟩
  rw [utf16, hchar, if_pos (by omega), UInt16.ofNat_toNat]

theorem utf16_pair {u v : UInt16} (hu : isHigh u = true) (hv : isLow v = true) :
    0x10000 ≤ (pairChar u v).toNat ∧ utf16 (pairChar u v) = [u, v] := by
  simp only [isHigh, isLow, isHighSurrogate, isLowSurrogate, Bool.and_eq_true,
    decide_eq_true_eq] at hu hv
  have hchar : (pairChar u v).toNat =
      0x10000 + (u.toNat - 0xD800) * 0x400 + (v.toNat - 0xDC00) := char_toNat (by omega)
  have hfirst : 0xD800 + ((pairChar u v).toNat - 0x10000) / 0x400 = u.toNat := by omega
  have hsecond : 0xDC00 + ((pairChar u v).toNat - 0x10000) % 0x400 = v.toNat := by omega
  refine ⟨by omega, ?_⟩
  rw [utf16, if_neg (by omega), hfirst, hsecond, UInt16.ofNat_toNat, UInt16.ofNat_toNat]

/-- A surrogate alone is no character. -/
theorem surrogate_char {u : UInt16} (h : (isHigh u || isLow u) = true) :
    Char.ofNat u.toNat = Char.ofNat 0 := by
  have hvalid : ¬ u.toNat.isValidChar := by
    simp only [isHigh, isLow, isHighSurrogate, isLowSurrogate, Bool.or_eq_true, Bool.and_eq_true,
      decide_eq_true_eq] at h
    simp only [Nat.isValidChar]
    omega
  rw [Char.ofNat, dif_neg hvalid]
  rfl

/-- What is read of a unit that was quoted. -/
theorem scanString_quoteUnit (u : UInt16) (s : List Char) :
    ∃ unit, literalUnits unit = [u] ∧
      scanString .plain (quoteUnit u ++ s) =
        (scanString .plain s).map fun (units, after) => (unit :: units, after) := by
  unfold quoteUnit
  split
  · next letter hshort =>
      have hsurrogate : (isHigh u || isLow u) = false := by
        rw [Bool.eq_false_iff]
        intro h
        rw [surrogate_char h] at hshort
        cases hshort
      obtain ⟨hhigh, hlow⟩ := Bool.or_eq_false_iff.1 hsurrogate
      exact ⟨.char (Char.ofNat u.toNat), (utf16_unit hhigh hlow).2, scanString_short hshort s⟩
  · next hshort =>
      split
      · refine ⟨.code u.toNat, by rw [literalUnits, UInt16.ofNat_toNat], ?_⟩
        exact scanString_code u.toNat_lt s
      · next hplain =>
          simp only [Bool.or_eq_true, decide_eq_true_eq, not_or, Bool.not_eq_true] at hplain
          obtain ⟨hchar, hunits⟩ := utf16_unit hplain.1.2 hplain.2
          refine ⟨.char (Char.ofNat u.toNat), hunits, ?_⟩
          refine scanString_char ?_ ?_ (by omega) s
          · intro h
            rw [h] at hshort
            cases hshort
          · intro h
            rw [h] at hshort
            cases hshort

theorem scanString_quoteUnits (s : JsString) (after : List Char) :
    ∃ units, units.flatMap literalUnits = s ∧
      scanString .plain (quoteUnits s ++ '"' :: after) = some (units, after) := by
  induction s using quoteUnits.induct with
  | case1 u v rest hpair ih =>
      obtain ⟨units, hunits, hscan⟩ := ih
      obtain ⟨hu, hv⟩ := Bool.and_eq_true_iff.1 hpair
      obtain ⟨hlarge, hchar⟩ := utf16_pair hu hv
      refine ⟨.char (pairChar u v) :: units, ?_, ?_⟩
      · rw [List.flatMap_cons, hunits, literalUnits, hchar]
        rfl
      · have hne : ∀ c : Char, c.toNat < 0x10000 → pairChar u v ≠ c := by
          rintro c hc rfl
          omega
        rw [quoteUnits, if_pos hpair, List.cons_append,
          scanString_char (hne _ (by decide)) (hne _ (by decide)) (by omega), hscan]
        rfl
  | case2 u v rest hpair ih =>
      obtain ⟨units, hunits, hscan⟩ := ih
      obtain ⟨unit, hunit, hquote⟩ := scanString_quoteUnit u (quoteUnits (v :: rest) ++ '"' :: after)
      refine ⟨unit :: units, ?_, ?_⟩
      · rw [List.flatMap_cons, hunits, hunit]
        rfl
      · rw [quoteUnits, if_neg hpair, List.append_assoc, hquote, hscan]
        rfl
  | case3 u =>
      obtain ⟨unit, hunit, hquote⟩ := scanString_quoteUnit u ('"' :: after)
      refine ⟨[unit], ?_, ?_⟩
      · rw [List.flatMap_singleton, hunit]
      · rw [quoteUnits, hquote]
        rfl
  | case4 => exact ⟨[], rfl, rfl⟩

theorem readLiteral_quote (s : JsString) (after : List Char) :
    readLiteral (quote s ++ after) = some (s, after) := by
  obtain ⟨units, hunits, hscan⟩ := scanString_quoteUnits s after
  rw [readLiteral, quote, List.append_assoc, List.singleton_append, hscan]
  exact congrArg (fun t => some (t, after)) hunits

/-- The strings of `JSON.parse` and `JSON.stringify` -/
def form : StringForm JsString := ⟨readLiteral, quote, readLiteral_quote⟩

end JsString

end Lib
