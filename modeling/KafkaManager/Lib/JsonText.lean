import KafkaManager.Lib.JsonAny

/-!
# The texts of a value

The strings of a value and the keys of its objects, at any depth, are written
escaped, and what is written holds no character that is special in HTML. So a
text without such characters is found in what is written wherever it is found
in one of the texts, and one with such a character is found nowhere.
-/

namespace Lib

def htmlSpecial (c : Char) : Bool := c == '<' || c == '>' || c == '&'

/-- A character of ASCII that is printed and needs no escape in a program. -/
def plainPrinted (c : Char) : Bool :=
  decide (0x20 ≤ c.toNat) && decide (c.toNat ≤ 0x7E) && c != '"' && c != '\\'

theorem unicodeEscaped_special {c : Char} (h : htmlSpecial c = true) :
    unicodeEscaped c = true := by
  simp only [htmlSpecial, Bool.or_eq_true] at h
  rcases h with (h | h) | h <;> simp [unicodeEscaped, h]

theorem escapeChar_plain {c : Char} (hplain : plainPrinted c = true)
    (hspecial : htmlSpecial c = false) : escapeChar c = [c] := by
  simp only [plainPrinted, Bool.and_eq_true, decide_eq_true_eq, bne_iff_ne, ne_eq] at hplain
  obtain ⟨⟨⟨hlow, hhigh⟩, hquote⟩, hslash⟩ := hplain
  have hnewline : ∀ d : Char, d.toNat < 0x20 → c ≠ d := by
    rintro d hd rfl
    omega
  have hshort : shortEscape c = none := by
    simp [shortEscape, hquote, hslash, hnewline '\n' (by decide), hnewline '\r' (by decide),
      hnewline '\t' (by decide), show ¬ c.toNat = 8 by omega, show ¬ c.toNat = 12 by omega]
  have hunicode : unicodeEscaped c = false := by
    simp only [htmlSpecial, Bool.or_eq_false_iff] at hspecial
    simp [unicodeEscaped, hspecial, show ¬ c.toNat < 0x20 by omega,
      show ¬ c.toNat = 0x2028 by omega, show ¬ c.toNat = 0x2029 by omega]
  simp [escapeChar, hshort, hunicode]

theorem safe_of_all {s : List Char} (h : s.all (fun d => !htmlSpecial d) = true) :
    ∀ d ∈ s, htmlSpecial d = false := by
  intro d hd
  simpa using List.all_eq_true.1 h d hd

theorem digitChar_safe (n : Nat) : htmlSpecial (Nat.digitChar (n % 16)) = false := by
  have hall : ∀ m < 16, htmlSpecial (Nat.digitChar m) = false := by decide
  exact hall _ (Nat.mod_lt _ (by decide))

theorem shortEscape_safe {c letter : Char} (h : shortEscape c = some letter) :
    htmlSpecial letter = false := by
  unfold shortEscape at h
  split at h
  · next hc =>
      obtain rfl := Option.some.inj h
      rw [Bool.or_eq_true, beq_iff_eq, beq_iff_eq] at hc
      rcases hc with rfl | rfl <;> decide
  · repeat' split at h
    all_goals first
      | cases h; done
      | obtain rfl := Option.some.inj h; decide

theorem escapeChar_safe (c : Char) : ∀ d ∈ escapeChar c, htmlSpecial d = false := by
  intro d hd
  unfold escapeChar at hd
  split at hd
  · next letter hshort =>
      rcases List.mem_cons.1 hd with rfl | hd
      · decide
      · rw [List.mem_singleton.1 hd]
        exact shortEscape_safe hshort
  · split at hd
    · simp only [hex4, List.mem_cons, List.not_mem_nil, or_false] at hd
      rcases hd with rfl | rfl | rfl | rfl | rfl | rfl
      · decide
      · decide
      all_goals exact digitChar_safe _
    · next hunicode =>
        rw [List.mem_singleton.1 hd, ← Bool.not_eq_true]
        exact fun hspecial => hunicode (unicodeEscaped_special hspecial)

theorem writeChars_safe (s : List Char) : ∀ d ∈ writeChars s, htmlSpecial d = false := by
  intro d hd
  rcases List.mem_append.1 hd with hd | hd
  · obtain ⟨c, -, hc⟩ := List.mem_flatMap.1 hd
    exact escapeChar_safe c d hc
  · rw [List.mem_singleton.1 hd]
    decide

/-! ## Numbers -/

theorem NumState.next_safe {st st' : NumState} {c : Char} (h : st.next c = some st') :
    htmlSpecial c = false := by
  rw [← Bool.not_eq_true]
  intro hspecial
  simp only [htmlSpecial, Bool.or_eq_true, beq_iff_eq] at hspecial
  rcases hspecial with (rfl | rfl) | rfl <;> cases st <;> cases h

theorem NumState.scan_safe {st : NumState} {s literal after : List Char}
    (h : st.scan s = some (literal, after)) : ∀ d ∈ literal, htmlSpecial d = false := by
  induction s generalizing st literal after with
  | nil =>
      rw [scan] at h
      split at h
      · obtain ⟨rfl, -⟩ := Prod.mk.inj (Option.some.inj h)
        exact fun d hd => by cases hd
      · cases h
  | cons c rest ih =>
      rw [scan] at h
      split at h
      · next st' hnext =>
          obtain ⟨⟨tail, after'⟩, hscan, heq⟩ := Option.map_eq_some_iff.1 h
          obtain ⟨rfl, -⟩ := Prod.mk.inj heq
          intro d hd
          rcases List.mem_cons.1 hd with rfl | hd
          · exact next_safe hnext
          · exact ih hscan d hd
      · split at h
        · obtain ⟨rfl, -⟩ := Prod.mk.inj (Option.some.inj h)
          exact fun d hd => by cases hd
        · cases h

theorem Numeral.safe (n : Numeral) : ∀ d ∈ n.literal, htmlSpecial d = false := by
  obtain ⟨literal, hscans⟩ := n
  cases literal with
  | nil => cases hscans
  | cons c rest =>
      simp only [scanNumber] at hscans
      split at hscans
      · cases hscans
      · next st hstart =>
          obtain ⟨⟨tail, after⟩, hscan, heq⟩ := Option.map_eq_some_iff.1 hscans
          obtain ⟨htail, -⟩ := Prod.mk.inj heq
          obtain rfl := (List.cons.inj htail).2
          intro d hd
          rcases List.mem_cons.1 hd with rfl | hd
          · rw [NumState.start] at hstart
            split at hstart
            · next hminus => rw [beq_iff_eq.1 hminus]; decide
            · exact NumState.next_safe hstart
          · exact NumState.scan_safe hscan d hd

namespace Json

/-! ## Values -/

mutual

/-- The strings of a value and the keys of its objects. -/
def texts : Json → List (List Char)
  | str s => [s]
  | arr items => textsItems items
  | obj fields => textsFields fields
  | null => []
  | bool _ => []
  | num _ => []

def textsItems : List Json → List (List Char)
  | [] => []
  | v :: rest => v.texts ++ textsItems rest

def textsFields : List (List Char × Json) → List (List Char)
  | [] => []
  | (key, v) :: rest => key :: (v.texts ++ textsFields rest)

end

mutual

/-- Nothing that is written is special in HTML. -/
theorem write_safe : (v : Json) → ∀ d ∈ v.write, htmlSpecial d = false
  | null => safe_of_all (s := nullWord) (by decide)
  | bool true => safe_of_all (s := trueWord) (by decide)
  | bool false => safe_of_all (s := falseWord) (by decide)
  | num n => n.safe
  | str s => by
      intro d hd
      rcases List.mem_cons.1 hd with rfl | hd
      · decide
      · exact writeChars_safe s d hd
  | arr items => by
      intro d hd
      rcases List.mem_cons.1 hd with rfl | hd
      · decide
      · exact writeItems_safe true items d hd
  | obj fields => by
      intro d hd
      rcases List.mem_cons.1 hd with rfl | hd
      · decide
      · exact writeFields_safe true fields d hd

theorem writeItems_safe : (first : Bool) → (items : List Json) →
    ∀ d ∈ writeItems first items, htmlSpecial d = false
  | first, [] => by
      intro d hd
      rw [List.mem_singleton.1 hd]
      decide
  | first, v :: rest => by
      intro d hd
      rcases List.mem_append.1 hd with hd | hd
      · cases first with
        | true => cases hd
        | false => rw [List.mem_singleton.1 hd]; decide
      · rcases List.mem_append.1 hd with hd | hd
        · exact write_safe v d hd
        · exact writeItems_safe false rest d hd

theorem writeFields_safe : (first : Bool) → (fields : List (List Char × Json)) →
    ∀ d ∈ writeFields first fields, htmlSpecial d = false
  | first, [] => by
      intro d hd
      rw [List.mem_singleton.1 hd]
      decide
  | first, (key, v) :: rest => by
      intro d hd
      rcases List.mem_append.1 hd with hd | hd
      · cases first with
        | true => cases hd
        | false => rw [List.mem_singleton.1 hd]; decide
      · rcases List.mem_cons.1 hd with rfl | hd
        · decide
        · rcases List.mem_append.1 hd with hd | hd
          · exact writeChars_safe key d hd
          · rcases List.mem_cons.1 hd with rfl | hd
            · decide
            · rcases List.mem_append.1 hd with hd | hd
              · exact write_safe v d hd
              · exact writeFields_safe false rest d hd

end

mutual

/-- Every text of a value is written, escaped. -/
theorem texts_written : (v : Json) → ∀ t ∈ v.texts, t.flatMap escapeChar <:+: v.write
  | null => by intro t ht; cases ht
  | bool _ => by intro t ht; cases ht
  | num _ => by intro t ht; cases ht
  | str s => by
      intro t ht
      rw [List.mem_singleton.1 ht]
      exact ⟨['"'], ['"'], by simp [write, writeChars]⟩
  | arr items => by
      intro t ht
      exact (textsItems_written true items t ht).trans (List.infix_cons List.infix_rfl)
  | obj fields => by
      intro t ht
      exact (textsFields_written true fields t ht).trans (List.infix_cons List.infix_rfl)

theorem textsItems_written : (first : Bool) → (items : List Json) →
    ∀ t ∈ textsItems items, t.flatMap escapeChar <:+: writeItems first items
  | _, [] => by intro t ht; cases ht
  | first, v :: rest => by
      intro t ht
      rw [writeItems]
      rcases List.mem_append.1 ht with ht | ht
      · exact (texts_written v t ht).trans (List.infix_append' _ _ _)
      · exact (textsItems_written false rest t ht).trans
          ((List.suffix_append v.write _).isInfix.trans (List.suffix_append _ _).isInfix)

theorem textsFields_written : (first : Bool) → (fields : List (List Char × Json)) →
    ∀ t ∈ textsFields fields, t.flatMap escapeChar <:+: writeFields first fields
  | _, [] => by intro t ht; cases ht
  | first, (key, v) :: rest => by
      intro t ht
      have hvalue : v.write ++ writeFields false rest <:+: writeFields first ((key, v) :: rest) :=
        ⟨(if first then [] else [',']) ++ ('"' :: (writeChars key ++ [':'])), [], by
          simp [writeFields]⟩
      rcases List.mem_cons.1 ht with rfl | ht
      · exact ⟨(if first then [] else [',']) ++ ['"'],
          '"' :: ':' :: (v.write ++ writeFields false rest), by simp [writeFields, writeChars]⟩
      · rcases List.mem_append.1 ht with ht | ht
        · exact ((texts_written v t ht).trans (List.prefix_append _ _).isInfix).trans hvalue
        · have hrest := textsFields_written false rest t ht
          exact (hrest.trans (List.suffix_append _ _).isInfix).trans hvalue

end

/-- A text that is written as it is. -/
theorem escape_plain {s : List Char} (hplain : s.all plainPrinted = true)
    (hspecial : s.all (fun c => !htmlSpecial c) = true) : s.flatMap escapeChar = s := by
  induction s with
  | nil => rfl
  | cons c s ih =>
      obtain ⟨hc, hs⟩ := Bool.and_eq_true_iff.1 hplain
      obtain ⟨hc', hs'⟩ := Bool.and_eq_true_iff.1 hspecial
      rw [List.flatMap_cons, escapeChar_plain hc (by simpa using hc'), ih hs hs']
      rfl

end Json

end Lib
