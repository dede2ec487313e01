import Mathlib.Data.List.Basic

/-!
# UTF-8

A text as bytes, and bytes as a text the way `range` over a Go string reads
them: a byte that does not begin a character is U+FFFD.
-/

namespace Lib

/-- The character for bytes that are none. -/
def replacement : Char := Char.ofNat 0xFFFD

def utf8Char (c : Char) : List UInt8 :=
  if c.toNat < 0x80 then [.ofNat c.toNat]
  else if c.toNat < 0x800 then [.ofNat (0xC0 + c.toNat / 64), .ofNat (0x80 + c.toNat % 64)]
  else if c.toNat < 0x10000 then
    [.ofNat (0xE0 + c.toNat / 4096), .ofNat (0x80 + c.toNat / 64 % 64),
      .ofNat (0x80 + c.toNat % 64)]
  else
    [.ofNat (0xF0 + c.toNat / 262144), .ofNat (0x80 + c.toNat / 4096 % 64),
      .ofNat (0x80 + c.toNat / 64 % 64), .ofNat (0x80 + c.toNat % 64)]

def utf8 (s : List Char) : List UInt8 := s.flatMap utf8Char

/-- The least and the greatest byte that may follow a first byte. -/
def secondByte (a : Nat) : Nat × Nat :=
  if a = 0xE0 then (0xA0, 0xBF)
  else if a = 0xED then (0x80, 0x9F)
  else if a = 0xF0 then (0x90, 0xBF)
  else if a = 0xF4 then (0x80, 0x8F)
  else (0x80, 0xBF)

def isTail (b : Nat) : Bool := 0x80 ≤ b && b ≤ 0xBF

/-- `utf8.DecodeRune`: the first character and its width. -/
def decodeRune : List UInt8 → Char × Nat
  | [] => (replacement, 0)
  | a :: rest =>
      let a := a.toNat
      let (lo, hi) := secondByte a
      if a < 0x80 then (Char.ofNat a, 1)
      else if 0xC2 ≤ a ∧ a ≤ 0xF4 then
        match rest.map UInt8.toNat with
        | b :: tail =>
            if b < lo ∨ hi < b then (replacement, 1)
            else if a < 0xE0 then (Char.ofNat ((a - 0xC0) * 64 + (b - 0x80)), 2)
            else
              match tail with
              | c :: tail =>
                  if !isTail c then (replacement, 1)
                  else if a < 0xF0 then
                    (Char.ofNat ((a - 0xE0) * 4096 + (b - 0x80) * 64 + (c - 0x80)), 3)
                  else
                    match tail with
                    | d :: _ =>
                        if !isTail d then (replacement, 1)
                        else
                          (Char.ofNat ((a - 0xF0) * 262144 + (b - 0x80) * 4096 + (c - 0x80) * 64
                            + (d - 0x80)), 4)
                    | [] => (replacement, 1)
              | [] => (replacement, 1)
        | [] => (replacement, 1)
      else (replacement, 1)

/-- The characters after the next `k` bytes. -/
def runesAfter : Nat → List UInt8 → List Char
  | _, [] => []
  | k + 1, _ :: rest => runesAfter k rest
  | 0, a :: rest => (decodeRune (a :: rest)).1 :: runesAfter ((decodeRune (a :: rest)).2 - 1) rest

def runes (bytes : List UInt8) : List Char := runesAfter 0 bytes

theorem toNat_ofNat {n : Nat} (h : n < 256) : (UInt8.ofNat n).toNat = n := by
  simp [UInt8.toNat_ofNat']
  omega

theorem ofNat_eq {c : Char} {n : Nat} (h : n = c.toNat) : Char.ofNat n = c := by
  rw [h, Char.ofNat_toNat]

/-- A character is not a surrogate. -/
theorem toNat_valid (c : Char) : c.toNat < 0xD800 ∨ 0xDFFF < c.toNat ∧ c.toNat < 0x110000 := by
  have := c.valid
  simpa [UInt32.isValidChar, Nat.isValidChar] using this

theorem decodeRune_utf8Char (c : Char) (rest : List UInt8) :
    decodeRune (utf8Char c ++ rest) = (c, (utf8Char c).length) := by
  have hvalid := toNat_valid c
  unfold utf8Char
  split
  · next h1 =>
      have ha : (UInt8.ofNat c.toNat).toNat = c.toNat := toNat_ofNat (by omega)
      simp only [List.cons_append, decodeRune, ha, if_pos h1]
      simp
  · split
    · next h1 h2 =>
        have ha : (UInt8.ofNat (0xC0 + c.toNat / 64)).toNat = 0xC0 + c.toNat / 64 :=
          toNat_ofNat (by omega)
        have hb : (UInt8.ofNat (0x80 + c.toNat % 64)).toNat = 0x80 + c.toNat % 64 :=
          toNat_ofNat (by omega)
        have hsecond : secondByte (0xC0 + c.toNat / 64) = (0x80, 0xBF) := by
          unfold secondByte
          repeat rw [if_neg (by omega)]
        simp only [List.cons_append, decodeRune, ha, hb, hsecond, List.map_cons]
        rw [if_neg (by omega), if_pos (by omega), if_neg (by omega), if_pos (by omega),
          ofNat_eq (c := c) (by omega)]
        rfl
    · split
      · next h1 h2 h3 =>
          have ha : (UInt8.ofNat (0xE0 + c.toNat / 4096)).toNat = 0xE0 + c.toNat / 4096 :=
            toNat_ofNat (by omega)
          have hb : (UInt8.ofNat (0x80 + c.toNat / 64 % 64)).toNat = 0x80 + c.toNat / 64 % 64 :=
            toNat_ofNat (by omega)
          have hc : (UInt8.ofNat (0x80 + c.toNat % 64)).toNat = 0x80 + c.toNat % 64 :=
            toNat_ofNat (by omega)
          have hsecond : (secondByte (0xE0 + c.toNat / 4096)).1 ≤ 0x80 + c.toNat / 64 % 64 ∧
              0x80 + c.toNat / 64 % 64 ≤ (secondByte (0xE0 + c.toNat / 4096)).2 := by
            unfold secondByte
            split
            · simp only
              omega
            · split
              · simp only
                omega
              · rw [if_neg (by omega), if_neg (by omega)]
                simp only
                omega
          have htail : isTail (0x80 + c.toNat % 64) = true := by
            simp only [isTail, Bool.and_eq_true, decide_eq_true_eq]
            omega
          simp only [List.cons_append, decodeRune, ha, hb, hc, htail, List.map_cons]
          rw [if_neg (by omega), if_pos (by omega), if_neg (by omega), if_neg (by omega),
            if_neg (by simp), if_pos (by omega), ofNat_eq (c := c) (by omega)]
          rfl
      · next h1 h2 h3 =>
          have ha : (UInt8.ofNat (0xF0 + c.toNat / 262144)).toNat = 0xF0 + c.toNat / 262144 :=
            toNat_ofNat (by omega)
          have hb : (UInt8.ofNat (0x80 + c.toNat / 4096 % 64)).toNat =
              0x80 + c.toNat / 4096 % 64 := toNat_ofNat (by omega)
          have hc : (UInt8.ofNat (0x80 + c.toNat / 64 % 64)).toNat = 0x80 + c.toNat / 64 % 64 :=
            toNat_ofNat (by omega)
          have hd : (UInt8.ofNat (0x80 + c.toNat % 64)).toNat = 0x80 + c.toNat % 64 :=
            toNat_ofNat (by omega)
          have hsecond : (secondByte (0xF0 + c.toNat / 262144)).1 ≤ 0x80 + c.toNat / 4096 % 64 ∧
              0x80 + c.toNat / 4096 % 64 ≤ (secondByte (0xF0 + c.toNat / 262144)).2 := by
            unfold secondByte
            rw [if_neg (by omega), if_neg (by omega)]
            split
            · simp only
              omega
            · split
              · simp only
                omega
              · simp only
                omega
          have htailc : isTail (0x80 + c.toNat / 64 % 64) = true := by
            simp only [isTail, Bool.and_eq_true, decide_eq_true_eq]
            omega
          have htaild : isTail (0x80 + c.toNat % 64) = true := by
            simp only [isTail, Bool.and_eq_true, decide_eq_true_eq]
            omega
          simp only [List.cons_append, decodeRune, ha, hb, hc, hd, htailc, htaild, List.map_cons]
          rw [if_neg (by omega), if_pos (by omega), if_neg (by omega), if_neg (by omega),
            if_neg (by simp), if_neg (by omega), if_neg (by simp), ofNat_eq (c := c) (by omega)]
          rfl

theorem runesAfter_append {k : Nat} {l rest : List UInt8} (h : l.length = k) :
    runesAfter k (l ++ rest) = runes rest := by
  induction l generalizing k with
  | nil =>
      subst h
      rfl
  | cons b l ih =>
      subst h
      exact ih rfl

theorem utf8Char_ne_nil (c : Char) : utf8Char c ≠ [] := by
  unfold utf8Char
  split
  · simp
  · split
    · simp
    · split <;> simp

theorem runes_utf8Char (c : Char) (rest : List UInt8) :
    runes (utf8Char c ++ rest) = c :: runes rest := by
  have hdecode := decodeRune_utf8Char c rest
  cases hbytes : utf8Char c with
  | nil =>
      exact absurd hbytes (utf8Char_ne_nil c)
  | cons a l =>
      rw [hbytes, List.cons_append] at hdecode
      have hstep : runes (a :: (l ++ rest)) = (decodeRune (a :: (l ++ rest))).1 ::
          runesAfter ((decodeRune (a :: (l ++ rest))).2 - 1) (l ++ rest) := rfl
      rw [List.cons_append, hstep, hdecode, runesAfter_append (by simp)]

/-- Reading the bytes of a text gives the text. -/
theorem runes_utf8 (s : List Char) : runes (utf8 s) = s := by
  induction s with
  | nil => rfl
  | cons c s ih =>
      have hcons : utf8 (c :: s) = utf8Char c ++ utf8 s := rfl
      rw [hcons, runes_utf8Char, ih]

end Lib
