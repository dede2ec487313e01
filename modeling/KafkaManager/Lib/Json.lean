import KafkaManager.Lib.GoInt
import KafkaManager.Lib.Utf8

/-!
# JSON

What `encoding/json` writes and reads, on characters. A number is its literal,
so that nothing is rounded; a `Numeral` carries the proof that the literal is
one. `Json.write` is compact and escapes what `Marshal` escapes, `Json.read`
takes what `Unmarshal` takes.

Strings and numbers are scanned by a state machine, one character a step, as
the scanner of the package does. The parser of values has fuel; the length of
the text is enough. The scanner gives up inside of a value that is nested too
deep, which is as if it did behind the value.
-/

namespace Lib

/-! ## Numbers -/

inductive NumState
  | minus
  | zero
  | digits
  | dot
  | fraction
  | exponent
  | sign
  | power

namespace NumState

/-- The number may end here. -/
def ends : NumState → Bool
  | zero | digits | fraction | power => true
  | minus | dot | exponent | sign => false

def next : NumState → Char → Option NumState
  | minus, c => if c == '0' then some zero else if c.isDigit then some digits else none
  | zero, c =>
      if c == '.' then some dot else if c == 'e' || c == 'E' then some exponent else none
  | digits, c =>
      if c.isDigit then some digits
      else if c == '.' then some dot
      else if c == 'e' || c == 'E' then some exponent
      else none
  | dot, c => if c.isDigit then some fraction else none
  | fraction, c =>
      if c.isDigit then some fraction else if c == 'e' || c == 'E' then some exponent else none
  | exponent, c =>
      if c == '+' || c == '-' then some sign else if c.isDigit then some power else none
  | sign, c => if c.isDigit then some power else none
  | power, c => if c.isDigit then some power else none

/-- The longest literal from a state on, and what is after it. -/
def scan : NumState → List Char → Option (List Char × List Char)
  | st, [] => if st.ends then some ([], []) else none
  | st, c :: rest =>
      match st.next c with
      | some st' => (st'.scan rest).map fun (literal, after) => (c :: literal, after)
      | none => if st.ends then some ([], c :: rest) else none

/-- The state after the first character. -/
def start (c : Char) : Option NumState := if c == '-' then some minus else minus.next c

end NumState

def scanNumber : List Char → Option (List Char × List Char)
  | [] => none
  | c :: rest =>
      match NumState.start c with
      | none => none
      | some st => (st.scan rest).map fun (literal, after) => (c :: literal, after)

/-- The literal of a number. -/
structure Numeral where
  literal : List Char
  scans : scanNumber literal = some (literal, [])

/-- Nothing of a text goes on with a number. -/
def Stops : List Char → Prop
  | [] => True
  | c :: _ => ∀ st : NumState, st.next c = none

namespace NumState

theorem scan_literal {st : NumState} {s literal after : List Char}
    (h : st.scan s = some (literal, after)) : st.scan literal = some (literal, []) := by
  induction s generalizing st literal with
  | nil =>
      rw [scan] at h
      split at h
      · next hends =>
          obtain ⟨rfl, -⟩ := Prod.mk.inj (Option.some.inj h)
          rw [scan, if_pos hends]
      · cases h
  | cons c rest ih =>
      rw [scan] at h
      split at h
      · next st' hnext =>
          obtain ⟨⟨tail, after'⟩, hscan, heq⟩ := Option.map_eq_some_iff.1 h
          obtain ⟨rfl, rfl⟩ := Prod.mk.inj heq
          simp only [scan, hnext, ih hscan, Option.map_some]
      · split at h
        · next hends =>
            obtain ⟨rfl, -⟩ := Prod.mk.inj (Option.some.inj h)
            rw [scan, if_pos hends]
        · cases h

/-- A scan to the end goes on to the end. -/
theorem scan_cons {st : NumState} {c : Char} {s : List Char}
    (h : st.scan (c :: s) = some (c :: s, [])) :
    ∃ st', st.next c = some st' ∧ st'.scan s = some (s, []) := by
  rw [scan] at h
  split at h
  · next st' hnext =>
      obtain ⟨⟨tail, after⟩, hscan, heq⟩ := Option.map_eq_some_iff.1 h
      obtain ⟨htail, rfl⟩ := Prod.mk.inj heq
      obtain rfl := (List.cons.inj htail).2
      exact ⟨st', hnext, hscan⟩
  · split at h
    · cases h
    · cases h

theorem scan_append {st : NumState} {literal after : List Char}
    (h : st.scan literal = some (literal, [])) (hafter : Stops after) :
    st.scan (literal ++ after) = some (literal, after) := by
  induction literal generalizing st with
  | nil =>
      have hends : st.ends = true := by
        rw [scan] at h
        split at h
        · next hends => exact hends
        · cases h
      cases after with
      | nil => rw [List.append_nil, scan, if_pos hends]
      | cons c rest =>
          have hnext : st.next c = none := hafter st
          simp only [List.nil_append, scan, hnext, if_pos hends]
  | cons c literal ih =>
      obtain ⟨st', hnext, hscan⟩ := scan_cons h
      simp only [List.cons_append, scan, hnext, ih hscan, Option.map_some]

/-- A run of digits is a literal. -/
theorem scan_digits {s : List Char} (h : s.all Char.isDigit = true) :
    NumState.digits.scan s = some (s, []) := by
  induction s with
  | nil => rfl
  | cons c s ih =>
      obtain ⟨hc, hs⟩ := Bool.and_eq_true_iff.1 h
      have hnext : NumState.digits.next c = some .digits := by simp [next, hc]
      simp only [scan, hnext, ih hs, Option.map_some]

end NumState

theorem scanNumber_literal {s literal after : List Char}
    (h : scanNumber s = some (literal, after)) : scanNumber literal = some (literal, []) := by
  unfold scanNumber at h
  split at h
  · cases h
  · next c rest =>
      split at h
      · cases h
      · next st hstart =>
          obtain ⟨⟨tail, after'⟩, hscan, heq⟩ := Option.map_eq_some_iff.1 h
          obtain ⟨rfl, rfl⟩ := Prod.mk.inj heq
          simp only [scanNumber, hstart, NumState.scan_literal hscan, Option.map_some]

namespace Numeral

/-- A number and what is after it. -/
def read (s : List Char) : Option (Numeral × List Char) :=
  match h : scanNumber s with
  | some (literal, after) => some (⟨literal, scanNumber_literal h⟩, after)
  | none => none

theorem read_append (n : Numeral) {after : List Char} (hafter : Stops after) :
    read (n.literal ++ after) = some (n, after) := by
  obtain ⟨literal, hscans⟩ := n
  have hscan : scanNumber (literal ++ after) = some (literal, after) := by
    cases literal with
    | nil => cases hscans
    | cons c literal =>
        cases hstart : NumState.start c with
        | none => simp only [scanNumber, hstart, reduceCtorEq] at hscans
        | some st =>
            simp only [scanNumber, hstart] at hscans
            obtain ⟨⟨tail, after'⟩, hscan, heq⟩ := Option.map_eq_some_iff.1 hscans
            obtain ⟨htail, rfl⟩ := Prod.mk.inj heq
            obtain rfl := (List.cons.inj htail).2
            simp only [List.cons_append, scanNumber, hstart, NumState.scan_append hscan hafter,
              Option.map_some]
  unfold read
  split
  · next literal' after' h =>
      rw [hscan] at h
      obtain ⟨rfl, rfl⟩ := Prod.mk.inj (Option.some.inj h)
      rfl
  · next h =>
      rw [hscan] at h
      cases h

/-- A number does not begin with a zero that could be left out. -/
theorem toDigits_head {n : Nat} (h : 0 < n) :
    ∃ c rest, Nat.toDigits 10 n = c :: rest ∧ c ≠ '0' := by
  induction n using Nat.strongRecOn with
  | ind n ih =>
      rcases Nat.lt_or_ge n 10 with hlt | hge
      · have hchar : ∀ m < 10, 0 < m → Nat.digitChar m ≠ '0' := by decide
        exact ⟨_, _, Nat.toDigits_of_lt_base hlt, hchar n hlt h⟩
      · obtain ⟨c, rest, hdigits, hc⟩ := ih (n / 10) (by omega) (by omega)
        rw [Nat.toDigits_of_base_le (by decide) hge, hdigits]
        exact ⟨c, _, List.cons_append, hc⟩

theorem scan_toDigits (n : Nat) :
    scanNumber (Nat.toDigits 10 n) = some (Nat.toDigits 10 n, []) ∧
      NumState.minus.scan (Nat.toDigits 10 n) = some (Nat.toDigits 10 n, []) := by
  rcases Nat.eq_zero_or_pos n with rfl | hpos
  · rw [Nat.toDigits_zero]
    exact ⟨by decide, by decide⟩
  · obtain ⟨c, rest, hdigits, hc⟩ := toDigits_head hpos
    have hall := toDigits_digit n
    rw [hdigits, List.all_cons, Bool.and_eq_true] at hall
    have hminus : c ≠ '-' := by
      rintro rfl
      exact absurd hall.1 (by decide)
    have hnext : NumState.minus.next c = some .digits := by simp [NumState.next, hc, hall.1]
    have hstart : NumState.start c = some .digits := by simp [NumState.start, hminus, hnext]
    have hscan := NumState.scan_digits hall.2
    rw [hdigits]
    exact ⟨by simp only [scanNumber, hstart, hscan, Option.map_some],
      by simp only [NumState.scan, hnext, hscan, Option.map_some]⟩

def ofInt (n : Int) : Numeral where
  literal := formatInt n
  scans := by
    obtain ⟨hplain, hminus⟩ := scan_toDigits n.natAbs
    unfold formatInt
    split
    · have hstart : NumState.start '-' = some .minus := rfl
      simp only [scanNumber, hstart, hminus, Option.map_some]
    · exact hplain

end Numeral

/-! ## Strings -/

/-- The letter of an escape of one letter. -/
def shortEscape (c : Char) : Option Char :=
  if c == '"' || c == '\\' then some c
  else if c.toNat == 8 then some 'b'
  else if c.toNat == 12 then some 'f'
  else if c == '\n' then some 'n'
  else if c == '\r' then some 'r'
  else if c == '\t' then some 't'
  else none

/-- The character an escape of one letter stands for. -/
def shortValue (c : Char) : Option Char :=
  if c == '"' || c == '\\' || c == '/' then some c
  else if c == 'b' then some (Char.ofNat 8)
  else if c == 'f' then some (Char.ofNat 12)
  else if c == 'n' then some '\n'
  else if c == 'r' then some '\r'
  else if c == 't' then some '\t'
  else none

/-- Control characters, what is special in HTML, the line separators of
JavaScript. -/
def unicodeEscaped (c : Char) : Bool :=
  c.toNat < 0x20 || c == '<' || c == '>' || c == '&' || c.toNat == 0x2028 || c.toNat == 0x2029

def hex4 (n : Nat) : List Char :=
  [Nat.digitChar (n / 4096 % 16), Nat.digitChar (n / 256 % 16), Nat.digitChar (n / 16 % 16),
    Nat.digitChar (n % 16)]

def hexValue (c : Char) : Option Nat :=
  if c.isDigit then some (c.toNat - 48)
  else if 'a' ≤ c && c ≤ 'f' then some (c.toNat - 87)
  else if 'A' ≤ c && c ≤ 'F' then some (c.toNat - 55)
  else none

def escapeChar (c : Char) : List Char :=
  match shortEscape c with
  | some letter => ['\\', letter]
  | none => if unicodeEscaped c then '\\' :: 'u' :: hex4 c.toNat else [c]

/-- A string between its quotes, and the closing quote. -/
def writeChars (s : List Char) : List Char := s.flatMap escapeChar ++ ['"']

/-- What a string literal is made of: characters, and UTF-16 units from `u`
escapes. -/
inductive StringUnit
  | char (c : Char)
  | code (n : Nat)

inductive StringState
  | plain
  | escaped
  | hex (digits : Nat) (value : Nat)

/-- The units up to the closing quote, and what is after it. -/
def scanString : StringState → List Char → Option (List StringUnit × List Char)
  | _, [] => none
  | .plain, c :: rest =>
      if c == '"' then some ([], rest)
      else if c == '\\' then scanString .escaped rest
      else if c.toNat < 0x20 then none
      else (scanString .plain rest).map fun (units, after) => (.char c :: units, after)
  | .escaped, c :: rest =>
      match shortValue c with
      | some value =>
          (scanString .plain rest).map fun (units, after) => (.char value :: units, after)
      | none => if c == 'u' then scanString (.hex 3 0) rest else none
  | .hex digits value, c :: rest =>
      match hexValue c with
      | none => none
      | some d =>
          match digits with
          | 0 =>
              (scanString .plain rest).map fun (units, after) =>
                (.code (value * 16 + d) :: units, after)
          | digits + 1 => scanString (.hex digits (value * 16 + d)) rest

def isHighSurrogate (n : Nat) : Bool := 0xD800 ≤ n && n ≤ 0xDBFF

def isLowSurrogate (n : Nat) : Bool := 0xDC00 ≤ n && n ≤ 0xDFFF

/-- The units as characters. Surrogates count in pairs; one alone is U+FFFD. -/
def joinUnits : List StringUnit → List Char
  | [] => []
  | .char c :: rest => c :: joinUnits rest
  | .code n :: .code m :: rest =>
      if isHighSurrogate n && isLowSurrogate m then
        Char.ofNat (0x10000 + (n - 0xD800) * 1024 + (m - 0xDC00)) :: joinUnits rest
      else if isHighSurrogate n || isLowSurrogate n then
        replacement :: joinUnits (.code m :: rest)
      else Char.ofNat n :: joinUnits (.code m :: rest)
  | .code n :: rest =>
      (if isHighSurrogate n || isLowSurrogate n then replacement else Char.ofNat n) ::
        joinUnits rest

def readString (s : List Char) : Option (List Char × List Char) :=
  (scanString .plain s).map fun (units, after) => (joinUnits units, after)

/-- The unit a character is read back as. -/
def unitOf (c : Char) : StringUnit :=
  if (shortEscape c).isNone && unicodeEscaped c then .code c.toNat else .char c

theorem shortValue_shortEscape {c letter : Char} (h : shortEscape c = some letter) :
    shortValue letter = some c := by
  unfold shortEscape at h
  split at h
  · next hc =>
      obtain rfl := Option.some.inj h
      unfold shortValue
      rw [if_pos (by simp only [hc, Bool.true_or])]
  · split at h
    · next hc =>
        obtain rfl := Option.some.inj h
        rw [← Char.ofNat_toNat c, beq_iff_eq.1 hc]
        rfl
    · split at h
      · next hc =>
          obtain rfl := Option.some.inj h
          rw [← Char.ofNat_toNat c, beq_iff_eq.1 hc]
          rfl
      · split at h
        · next hc =>
            obtain rfl := Option.some.inj h
            rw [beq_iff_eq.1 hc]
            rfl
        · split at h
          · next hc =>
              obtain rfl := Option.some.inj h
              rw [beq_iff_eq.1 hc]
              rfl
          · split at h
            · next hc =>
                obtain rfl := Option.some.inj h
                rw [beq_iff_eq.1 hc]
                rfl
            · cases h

theorem hexValue_digitChar {n : Nat} (h : n < 16) : hexValue (Nat.digitChar n) = some n := by
  revert n
  decide

theorem scanString_hex4 {n : Nat} (h : n < 0x10000) (s : List Char) :
    scanString (.hex 3 0) (hex4 n ++ s) =
      (scanString .plain s).map fun (units, after) => (.code n :: units, after) := by
  have h3 : hexValue (Nat.digitChar (n / 4096 % 16)) = some (n / 4096 % 16) :=
    hexValue_digitChar (by omega)
  have h2 : hexValue (Nat.digitChar (n / 256 % 16)) = some (n / 256 % 16) :=
    hexValue_digitChar (by omega)
  have h1 : hexValue (Nat.digitChar (n / 16 % 16)) = some (n / 16 % 16) :=
    hexValue_digitChar (by omega)
  have h0 : hexValue (Nat.digitChar (n % 16)) = some (n % 16) := hexValue_digitChar (by omega)
  have hn : ((((0 * 16 + n / 4096 % 16) * 16) + n / 256 % 16) * 16 + n / 16 % 16) * 16 + n % 16 =
      n := by
    omega
  simp only [hex4, List.cons_append, List.nil_append, scanString, h3, h2, h1, h0, hn]

theorem unicodeEscaped_lt {c : Char} (h : unicodeEscaped c = true) :
    c.toNat < 0xD800 := by
  simp only [unicodeEscaped, Bool.or_eq_true, decide_eq_true_eq, beq_iff_eq] at h
  rcases h with ((((h | rfl) | rfl) | rfl) | h) | h
  · omega
  · decide
  · decide
  · decide
  · omega
  · omega

theorem scanString_escapeChar (c : Char) (s : List Char) :
    scanString .plain (escapeChar c ++ s) =
      (scanString .plain s).map fun (units, after) => (unitOf c :: units, after) := by
  unfold escapeChar unitOf
  cases hshort : shortEscape c with
  | some letter =>
      have hvalue := shortValue_shortEscape hshort
      simp [scanString, hvalue]
  | none =>
      cases hunicode : unicodeEscaped c with
      | true =>
          have hlt := unicodeEscaped_lt hunicode
          have hu : shortValue 'u' = none := by decide
          simp [scanString, hu, scanString_hex4 (show c.toNat < 0x10000 by omega)]
      | false =>
          have hquote : (c == '"') = false := by
            rw [Bool.eq_false_iff]
            intro h
            simp [shortEscape, h] at hshort
          have hslash : (c == '\\') = false := by
            rw [Bool.eq_false_iff]
            intro h
            simp [shortEscape, h] at hshort
          have hcontrol : ¬ c.toNat < 0x20 := by
            intro h
            simp [unicodeEscaped, h] at hunicode
          simp [scanString, hquote, hslash, hcontrol]

theorem scanString_writeChars (s after : List Char) :
    scanString .plain (writeChars s ++ after) = some (s.map unitOf, after) := by
  induction s with
  | nil => rfl
  | cons c s ih =>
      have hcons : writeChars (c :: s) ++ after = escapeChar c ++ (writeChars s ++ after) := by
        simp [writeChars]
      rw [hcons, scanString_escapeChar, ih]
      rfl

/-- A unit that is no surrogate is a character. -/
theorem joinUnits_code {n : Nat} (hhigh : isHighSurrogate n = false)
    (hlow : isLowSurrogate n = false) (units : List StringUnit) :
    joinUnits (.code n :: units) = Char.ofNat n :: joinUnits units := by
  cases units with
  | nil => simp [joinUnits, hhigh, hlow]
  | cons u units => cases u <;> simp [joinUnits, hhigh, hlow]

theorem joinUnits_unitOf (s : List Char) : joinUnits (s.map unitOf) = s := by
  induction s with
  | nil => rfl
  | cons c s ih =>
      rw [List.map_cons]
      cases hc : (shortEscape c).isNone && unicodeEscaped c with
      | true =>
          have hunit : unitOf c = .code c.toNat := by rw [unitOf, if_pos hc]
          have hlt := unicodeEscaped_lt (Bool.and_eq_true_iff.1 hc).2
          have hhigh : isHighSurrogate c.toNat = false := by
            simp only [isHighSurrogate, Bool.and_eq_false_iff, decide_eq_false_iff_not]
            omega
          have hlow : isLowSurrogate c.toNat = false := by
            simp only [isLowSurrogate, Bool.and_eq_false_iff, decide_eq_false_iff_not]
            omega
          rw [hunit, joinUnits_code hhigh hlow, ih, Char.ofNat_toNat]
      | false =>
          have hunit : unitOf c = .char c := by rw [unitOf, if_neg (by rw [hc]; simp)]
          rw [hunit, joinUnits, ih]

theorem readString_writeChars (s after : List Char) :
    readString (writeChars s ++ after) = some (s, after) := by
  simp only [readString, scanString_writeChars, Option.map_some, joinUnits_unitOf]

/-! ## Values -/

/-- A value. The fields of an object keep their order and may repeat. -/
inductive Json
  | null
  | bool (b : Bool)
  | num (n : Numeral)
  | str (s : List Char)
  | arr (items : List Json)
  | obj (fields : List (List Char × Json))

namespace Json

def nullWord : List Char := ['n', 'u', 'l', 'l']

def trueWord : List Char := ['t', 'r', 'u', 'e']

def falseWord : List Char := ['f', 'a', 'l', 's', 'e']

mutual

/-- `json.Marshal` -/
def write : Json → List Char
  | null => nullWord
  | bool b => if b then trueWord else falseWord
  | num n => n.literal
  | str s => '"' :: writeChars s
  | arr items => '[' :: writeItems true items
  | obj fields => '{' :: writeFields true fields

def writeItems (first : Bool) : List Json → List Char
  | [] => [']']
  | v :: rest => (if first then [] else [',']) ++ (v.write ++ writeItems false rest)

def writeFields (first : Bool) : List (List Char × Json) → List Char
  | [] => ['}']
  | (key, v) :: rest =>
      (if first then [] else [',']) ++
        ('"' :: (writeChars key ++ (':' :: (v.write ++ writeFields false rest))))

end

def isWhite (c : Char) : Bool := c == ' ' || c == '\t' || c == '\n' || c == '\r'

def skipWhite (s : List Char) : List Char := s.dropWhile isWhite

/-- What is after a character. -/
def expect (c : Char) : List Char → Option (List Char)
  | [] => none
  | d :: rest => if d == c then some rest else none

/-- What is after a word. -/
def expectWord (word s : List Char) : Option (List Char) :=
  if word.isPrefixOf s then some (s.drop word.length) else none

mutual

/-- A value and what is after it. -/
def readValue : Nat → List Char → Option (Json × List Char)
  | 0, _ => none
  | fuel + 1, s =>
      match skipWhite s with
      | [] => none
      | c :: rest =>
          if c == '{' then
            match expect '}' (skipWhite rest) with
            | some after => some (obj [], after)
            | none => (readFields fuel rest).map fun (fields, after) => (obj fields, after)
          else if c == '[' then
            match expect ']' (skipWhite rest) with
            | some after => some (arr [], after)
            | none => (readItems fuel rest).map fun (items, after) => (arr items, after)
          else if c == '"' then (readString rest).map fun (s, after) => (str s, after)
          else if c == 'n' then (expectWord nullWord (c :: rest)).map fun after => (null, after)
          else if c == 't' then
            (expectWord trueWord (c :: rest)).map fun after => (bool true, after)
          else if c == 'f' then
            (expectWord falseWord (c :: rest)).map fun after => (bool false, after)
          else (Numeral.read (c :: rest)).map fun (n, after) => (num n, after)

/-- The items of an array that is not empty, and what is after its bracket. -/
def readItems : Nat → List Char → Option (List Json × List Char)
  | 0, _ => none
  | fuel + 1, s =>
      match readValue fuel s with
      | none => none
      | some (v, after) =>
          match expect ',' (skipWhite after) with
          | some rest => (readItems fuel rest).map fun (items, after) => (v :: items, after)
          | none => (expect ']' (skipWhite after)).map fun after => ([v], after)

/-- The fields of an object that is not empty, and what is after its brace. -/
def readFields : Nat → List Char → Option (List (List Char × Json) × List Char)
  | 0, _ => none
  | fuel + 1, s =>
      match (expect '"' (skipWhite s)).bind readString with
      | none => none
      | some (key, after) =>
          match (expect ':' (skipWhite after)).bind (readValue fuel) with
          | none => none
          | some (v, after) =>
              match expect ',' (skipWhite after) with
              | some rest =>
                  (readFields fuel rest).map fun (fields, after) => ((key, v) :: fields, after)
              | none => (expect '}' (skipWhite after)).map fun after => ([(key, v)], after)

end

/-- The only value of a text. -/
def parse (s : List Char) : Option Json :=
  match readValue (s.length + 1) s with
  | some (v, after) => if (skipWhite after).isEmpty then some v else none
  | none => none

mutual

/-- How deep arrays and objects are nested. -/
def depth : Json → Nat
  | null | bool _ | num _ | str _ => 0
  | arr items => itemsDepth items + 1
  | obj fields => fieldsDepth fields + 1

def itemsDepth : List Json → Nat
  | [] => 0
  | v :: rest => max v.depth (itemsDepth rest)

def fieldsDepth : List (List Char × Json) → Nat
  | [] => 0
  | (_, v) :: rest => max v.depth (fieldsDepth rest)

end

/-- `maxNestingDepth` of the scanner -/
def maxNestingDepth : Nat := 10000

/-- `json.Unmarshal` of a text, or a decoder that has to come to its end. -/
def read (s : List Char) : Option Json := (parse s).filter fun v => v.depth ≤ maxNestingDepth

/-- What a decoder reads first, and what is after it. -/
def readFirst (s : List Char) : Option (Json × List Char) :=
  (readValue (s.length + 1) s).filter fun found => found.1.depth ≤ maxNestingDepth

/-! ### Nesting -/

theorem depth_arr {items : List Json} {n : Nat} :
    (arr items).depth ≤ n + 1 ↔ ∀ v ∈ items, v.depth ≤ n := by
  have hitems : itemsDepth items ≤ n ↔ ∀ v ∈ items, v.depth ≤ n := by
    induction items with
    | nil => simp [itemsDepth]
    | cons v rest ih => rw [itemsDepth, Nat.max_le, ih, List.forall_mem_cons]
  rw [depth, Nat.add_le_add_iff_right, hitems]

theorem depth_obj {fields : List (List Char × Json)} {n : Nat} :
    (obj fields).depth ≤ n + 1 ↔ ∀ p ∈ fields, p.2.depth ≤ n := by
  have hfields : fieldsDepth fields ≤ n ↔ ∀ p ∈ fields, p.2.depth ≤ n := by
    induction fields with
    | nil => simp [fieldsDepth]
    | cons p rest ih => rw [fieldsDepth, Nat.max_le, ih, List.forall_mem_cons]
  rw [depth, Nat.add_le_add_iff_right, hfields]

/-- To read into something that takes no value that deep. -/
theorem readFirst_bind {α : Type} {take : Json → Option α}
    (h : ∀ v x, take v = some x → v.depth ≤ maxNestingDepth) (s : List Char) :
    ((readFirst s).bind fun found => take found.1) =
      (readValue (s.length + 1) s).bind fun found => take found.1 := by
  rw [readFirst]
  cases readValue (s.length + 1) s with
  | none => rfl
  | some found =>
      rw [Option.filter_some, Option.bind_some]
      split
      · rfl
      · next hdeep =>
          cases htake : take found.1 with
          | none => rfl
          | some x => exact absurd (decide_eq_true (h _ _ htake)) hdeep

/-! ### Tokens -/

theorem stops_cons {c : Char} (h : c = ',' ∨ c = ']' ∨ c = '}' ∨ isWhite c = true)
    (rest : List Char) : Stops (c :: rest) := by
  intro st
  have hc : c = ',' ∨ c = ']' ∨ c = '}' ∨ c = ' ' ∨ c = '\t' ∨ c = '\n' ∨ c = '\r' := by
    simpa [isWhite, or_assoc] using h
  rcases hc with rfl | rfl | rfl | rfl | rfl | rfl | rfl <;> cases st <;> decide

theorem skipWhite_cons {c : Char} (h : isWhite c = false) (rest : List Char) :
    skipWhite (c :: rest) = c :: rest := by
  rw [skipWhite, List.dropWhile_cons, if_neg (by rw [h]; simp)]

theorem expect_cons (c : Char) (rest : List Char) : expect c (c :: rest) = some rest := by
  simp [expect]

theorem expect_ne {c d : Char} (h : d ≠ c) (rest : List Char) : expect c (d :: rest) = none := by
  simp [expect, h]

/-! ### Structures -/

/-- What the names of fields are compared by: they may differ in case. Besides
the letters themselves the long s and the Kelvin sign are letters in another
case. -/
def foldRune (c : Char) : Char :=
  if 'a' ≤ c && c ≤ 'z' then c.toUpper
  else if c.toNat == 0x17F then 'S'
  else if c.toNat == 0x212A then 'K'
  else c

def names (field key : List Char) : Bool := key.map foldRune == field.map foldRune

section

variable {σ : Type}

/-- `json.Unmarshal` into a structure: `set` is what a field does to it. -/
def decode (set : List Char → Json → σ → Option σ) (zero : σ) : Json → Option σ
  | obj fields => fields.foldlM (fun s field => set field.1 field.2 s) zero
  | null => some zero
  | _ => none

end

/-- Into a field that is a string. -/
def setString (old : List Char) : Json → Option (List Char)
  | str s => some s
  | null => some old
  | _ => none

/-- Into a field that is an `int64`. -/
def setInt (old : Int) : Json → Option Int
  | num n => parseInt n.literal
  | null => some old
  | _ => none

end Json

end Lib
