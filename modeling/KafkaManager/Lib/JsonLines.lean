import KafkaManager.Lib.Json
import KafkaManager.Lib.Scanner

/-!
# Values on lines

A written value has no control characters: those of a string are escaped, and
there are none between the parts of a value. So it is a line, and the scanner
gives it back.
-/

namespace Lib

/-- It is no control character. -/
def printed (c : Char) : Bool := 0x20 ≤ c.toNat

namespace NumState

theorem next_printed {st st' : NumState} {c : Char} (h : st.next c = some st') :
    printed c = true := by
  unfold printed
  rw [decide_eq_true_eq]
  by_contra hlt
  have hdigit : c.isDigit = false := by
    rw [Char.isDigit, Bool.and_eq_false_iff, decide_eq_false_iff_not]
    exact .inl fun hle => hlt (Nat.le_trans (by decide) hle)
  have hne : ∀ d : Char, 0x20 ≤ d.toNat → c ≠ d := fun d hd hcd => hlt (hcd ▸ hd)
  cases st <;> simp [next, hdigit, hne] at h

theorem scan_printed {st : NumState} {s literal after : List Char}
    (h : st.scan s = some (literal, after)) : literal.all printed = true := by
  induction s generalizing st literal with
  | nil =>
      rw [scan] at h
      split at h
      · obtain ⟨rfl, -⟩ := Prod.mk.inj (Option.some.inj h)
        rfl
      · cases h
  | cons c rest ih =>
      rw [scan] at h
      split at h
      · next st' hnext =>
          obtain ⟨⟨tail, after'⟩, hscan, heq⟩ := Option.map_eq_some_iff.1 h
          obtain ⟨rfl, rfl⟩ := Prod.mk.inj heq
          rw [List.all_cons, next_printed hnext, ih hscan, Bool.and_self]
      · split at h
        · obtain ⟨rfl, -⟩ := Prod.mk.inj (Option.some.inj h)
          rfl
        · cases h

end NumState

theorem Numeral.literal_printed (n : Numeral) : n.literal.all printed = true := by
  obtain ⟨literal, hscans⟩ := n
  cases literal with
  | nil => rfl
  | cons c literal =>
      cases hstart : NumState.start c with
      | none => simp only [scanNumber, hstart, reduceCtorEq] at hscans
      | some st =>
          simp only [scanNumber, hstart] at hscans
          obtain ⟨⟨tail, after⟩, hscan, heq⟩ := Option.map_eq_some_iff.1 hscans
          obtain ⟨htail, -⟩ := Prod.mk.inj heq
          obtain rfl := (List.cons.inj htail).2
          have hc : printed c = true := by
            unfold NumState.start at hstart
            split at hstart
            · next hminus =>
                rw [eq_of_beq hminus]
                rfl
            · exact NumState.next_printed hstart
          rw [List.all_cons, hc, NumState.scan_printed hscan, Bool.and_self]

theorem hex4_printed (n : Nat) : (hex4 n).all printed = true := by
  have hdigit : ∀ m < 16, printed (Nat.digitChar m) = true := by decide
  simp [hex4, hdigit, Nat.mod_lt]

theorem escapeChar_printed (c : Char) : (escapeChar c).all printed = true := by
  unfold escapeChar
  split
  · next letter hletter =>
      have hprinted : printed letter = true := by
        unfold shortEscape at hletter
        split at hletter
        · next hc =>
            obtain rfl := Option.some.inj hletter
            rcases Bool.or_eq_true_iff.1 hc with hc | hc
            · rw [eq_of_beq hc]
              rfl
            · rw [eq_of_beq hc]
              rfl
        · repeat' split at hletter
          all_goals cases hletter
          all_goals rfl
      rw [List.all_cons, List.all_cons, hprinted]
      rfl
  · split
    · next h =>
        rw [List.all_cons, List.all_cons, hex4_printed]
        rfl
    · next h =>
        have hprinted : printed c = true := by
          unfold unicodeEscaped at h
          unfold printed
          rw [decide_eq_true_eq]
          by_contra hlt
          exact h (by simp [Nat.lt_of_not_le hlt])
        rw [List.all_cons, hprinted]
        rfl

theorem writeChars_printed (s : List Char) : (writeChars s).all printed = true := by
  have hall : (s.flatMap escapeChar).all printed = true := by
    rw [List.all_flatMap, List.all_eq_true]
    exact fun c _ => escapeChar_printed c
  rw [writeChars, List.all_append, hall]
  rfl

namespace Json

mutual

theorem write_printed : (v : Json) → v.write.all printed = true
  | null => by decide
  | bool true => by decide
  | bool false => by decide
  | num n => n.literal_printed
  | str s => by
      rw [write, List.all_cons, writeChars_printed]
      rfl
  | arr items => by
      rw [write, List.all_cons, writeItems_printed]
      rfl
  | obj fields => by
      rw [write, List.all_cons, writeFields_printed]
      rfl

theorem writeItems_printed : (first : Bool) → (items : List Json) →
    (writeItems first items).all printed = true
  | _, [] => by
      rw [writeItems]
      rfl
  | first, v :: items => by
      rw [writeItems, List.all_append, List.all_append, write_printed v, writeItems_printed]
      cases first <;> rfl

theorem writeFields_printed : (first : Bool) → (fields : List (List Char × Json)) →
    (writeFields first fields).all printed = true
  | _, [] => by
      rw [writeFields]
      rfl
  | first, (key, v) :: fields => by
      rw [writeFields, List.all_append, List.all_cons, List.all_append, writeChars_printed,
        List.all_cons, List.all_append, write_printed v, writeFields_printed]
      cases first <;> rfl

end

end Json

/-! ## Bytes -/

theorem utf8_printed {s : List Char} (h : s.all printed = true) : ∀ b ∈ utf8 s, 0x20 ≤ b := by
  intro b hb
  obtain ⟨c, hc, hb⟩ := List.mem_flatMap.1 hb
  have hprinted : 0x20 ≤ c.toNat := of_decide_eq_true (List.all_eq_true.1 h c hc)
  have hbyte : ∀ n, 0x20 ≤ n → n < 256 → 0x20 ≤ UInt8.ofNat n := by
    intro n hn hlt
    rw [UInt8.le_iff_toNat_le, toNat_ofNat hlt]
    exact hn
  have hvalid := toNat_valid c
  unfold utf8Char at hb
  split at hb
  · rw [List.mem_singleton] at hb
    exact hb ▸ hbyte _ hprinted (by omega)
  · split at hb
    · simp only [List.mem_cons, List.not_mem_nil, or_false] at hb
      rcases hb with rfl | rfl
      · exact hbyte _ (by omega) (by omega)
      · exact hbyte _ (by omega) (by omega)
    · split at hb
      · simp only [List.mem_cons, List.not_mem_nil, or_false] at hb
        rcases hb with rfl | rfl | rfl
        · exact hbyte _ (by omega) (by omega)
        · exact hbyte _ (by omega) (by omega)
        · exact hbyte _ (by omega) (by omega)
      · simp only [List.mem_cons, List.not_mem_nil, or_false] at hb
        rcases hb with rfl | rfl | rfl | rfl
        · exact hbyte _ (by omega) (by omega)
        · exact hbyte _ (by omega) (by omega)
        · exact hbyte _ (by omega) (by omega)
        · exact hbyte _ (by omega) (by omega)

/-- What is written is on one line. -/
theorem Json.write_line (v : Json) :
    newline ∉ utf8 v.write ∧ carriageReturn ∉ utf8 v.write := by
  have hall := utf8_printed v.write_printed
  exact ⟨fun h => absurd (hall _ h) (by decide), fun h => absurd (hall _ h) (by decide)⟩

end Lib
