import KafkaManager.Lib.Json

/-!
# What a value leaves of a text

A value is read off the front of a text, so what is left is the end of it. An
object cannot be read from a text without a closing brace: a text that is cut
off before one is no value.
-/

namespace Lib

theorem NumState.scan_suffix {st : NumState} {s literal after : List Char}
    (h : st.scan s = some (literal, after)) : after <:+ s := by
  induction s generalizing st literal with
  | nil =>
      rw [scan] at h
      split at h
      · obtain ⟨-, rfl⟩ := Prod.mk.inj (Option.some.inj h)
        exact List.suffix_rfl
      · cases h
  | cons c rest ih =>
      rw [scan] at h
      split at h
      · obtain ⟨⟨tail, after'⟩, hscan, heq⟩ := Option.map_eq_some_iff.1 h
        obtain ⟨-, rfl⟩ := Prod.mk.inj heq
        exact (ih hscan).trans (List.suffix_cons c rest)
      · split at h
        · obtain ⟨-, rfl⟩ := Prod.mk.inj (Option.some.inj h)
          exact List.suffix_rfl
        · cases h

theorem Numeral.read_suffix {s after : List Char} {n : Numeral}
    (h : Numeral.read s = some (n, after)) : after <:+ s := by
  unfold Numeral.read at h
  split at h
  · next literal after' hscan =>
      obtain ⟨-, rfl⟩ := Prod.mk.inj (Option.some.inj h)
      cases s with
      | nil => cases hscan
      | cons c rest =>
          rw [scanNumber] at hscan
          split at hscan
          · cases hscan
          · obtain ⟨⟨tail, after'⟩, hrest, heq⟩ := Option.map_eq_some_iff.1 hscan
            obtain ⟨-, rfl⟩ := Prod.mk.inj heq
            exact (NumState.scan_suffix hrest).trans (List.suffix_cons c rest)
  · cases h

theorem scanString_suffix {st : StringState} {s after : List Char} {units : List StringUnit}
    (h : scanString st s = some (units, after)) : after <:+ s := by
  induction s generalizing st units with
  | nil => cases st <;> cases h
  | cons c rest ih =>
      -- a unit is put in front, and what is left stays
      have hmap : ∀ {st : StringState} {f : List StringUnit × List Char → _},
          (scanString st rest).map f = some (units, after) → (∀ p, (f p).2 = p.2) →
            after <:+ c :: rest := by
        intro st f heq hf
        obtain ⟨⟨tail, after'⟩, hscan, heq⟩ := Option.map_eq_some_iff.1 heq
        have hafter : after' = after := (hf (tail, after')).symm.trans (congrArg Prod.snd heq)
        rw [hafter] at hscan
        exact (ih hscan).trans (List.suffix_cons c rest)
      cases st with
      | plain =>
          rw [scanString] at h
          split at h
          · obtain ⟨-, rfl⟩ := Prod.mk.inj (Option.some.inj h)
            exact List.suffix_cons c rest
          · split at h
            · exact (ih h).trans (List.suffix_cons c rest)
            · split at h
              · cases h
              · exact hmap h fun _ => rfl
      | escaped =>
          rw [scanString] at h
          split at h
          · exact hmap h fun _ => rfl
          · split at h
            · exact (ih h).trans (List.suffix_cons c rest)
            · cases h
      | hex digits value =>
          rw [scanString] at h
          split at h
          · cases h
          · split at h
            · exact hmap h fun _ => rfl
            · exact (ih h).trans (List.suffix_cons c rest)

theorem readString_suffix {s text after : List Char} (h : readString s = some (text, after)) :
    after <:+ s := by
  obtain ⟨⟨units, after'⟩, hscan, heq⟩ := Option.map_eq_some_iff.1 h
  obtain ⟨-, rfl⟩ := Prod.mk.inj heq
  exact scanString_suffix hscan

namespace Json

theorem skipWhite_suffix (s : List Char) : skipWhite s <:+ s := List.dropWhile_suffix _

theorem expect_suffix {c : Char} {s rest : List Char} (h : expect c s = some rest) :
    rest <:+ s ∧ c ∈ s := by
  cases s with
  | nil => cases h
  | cons d tail =>
      rw [expect] at h
      split at h
      · next hc =>
          obtain rfl := Option.some.inj h
          exact ⟨List.suffix_cons d tail, by rw [beq_iff_eq.1 hc]; exact List.mem_cons_self ..⟩
      · cases h

theorem expect_skipWhite {c : Char} {s rest : List Char} (h : expect c (skipWhite s) = some rest) :
    rest <:+ s ∧ c ∈ s := by
  obtain ⟨hsuffix, hmem⟩ := expect_suffix h
  exact ⟨hsuffix.trans (skipWhite_suffix s), (skipWhite_suffix s).subset hmem⟩

theorem expectWord_suffix {word s rest : List Char} (h : expectWord word s = some rest) :
    rest <:+ s := by
  rw [expectWord] at h
  split at h
  · obtain rfl := Option.some.inj h
    exact List.drop_suffix _ _
  · cases h

mutual

theorem readValue_suffix : (fuel : Nat) → (s : List Char) → {v : Json} → {after : List Char} →
    readValue fuel s = some (v, after) → after <:+ s
  | 0, _, _, _, h => by cases h
  | fuel + 1, s, v, after, h => by
      have hskip := skipWhite_suffix s
      rw [readValue] at h
      split at h
      · cases h
      · next c rest hs =>
          rw [hs] at hskip
          have hrest : rest <:+ s := (List.suffix_cons c rest).trans hskip
          split at h
          · split at h
            · next after' hbrace =>
                obtain ⟨-, rfl⟩ := Prod.mk.inj (Option.some.inj h)
                exact (expect_skipWhite hbrace).1.trans hrest
            · obtain ⟨⟨fields, after'⟩, hread, heq⟩ := Option.map_eq_some_iff.1 h
              obtain ⟨-, rfl⟩ := Prod.mk.inj heq
              exact (readFields_suffix fuel rest hread).1.trans hrest
          · split at h
            · split at h
              · next after' hbracket =>
                  obtain ⟨-, rfl⟩ := Prod.mk.inj (Option.some.inj h)
                  exact (expect_skipWhite hbracket).1.trans hrest
              · obtain ⟨⟨items, after'⟩, hread, heq⟩ := Option.map_eq_some_iff.1 h
                obtain ⟨-, rfl⟩ := Prod.mk.inj heq
                exact (readItems_suffix fuel rest hread).trans hrest
            · split at h
              · obtain ⟨⟨text, after'⟩, hread, heq⟩ := Option.map_eq_some_iff.1 h
                obtain ⟨-, rfl⟩ := Prod.mk.inj heq
                exact (readString_suffix hread).trans hrest
              · split at h
                · obtain ⟨after', hread, heq⟩ := Option.map_eq_some_iff.1 h
                  obtain ⟨-, rfl⟩ := Prod.mk.inj heq
                  exact (expectWord_suffix hread).trans hskip
                · split at h
                  · obtain ⟨after', hread, heq⟩ := Option.map_eq_some_iff.1 h
                    obtain ⟨-, rfl⟩ := Prod.mk.inj heq
                    exact (expectWord_suffix hread).trans hskip
                  · split at h
                    · obtain ⟨after', hread, heq⟩ := Option.map_eq_some_iff.1 h
                      obtain ⟨-, rfl⟩ := Prod.mk.inj heq
                      exact (expectWord_suffix hread).trans hskip
                    · obtain ⟨⟨n, after'⟩, hread, heq⟩ := Option.map_eq_some_iff.1 h
                      obtain ⟨-, rfl⟩ := Prod.mk.inj heq
                      exact (Numeral.read_suffix hread).trans hskip

theorem readItems_suffix : (fuel : Nat) → (s : List Char) → {items : List Json} →
    {after : List Char} → readItems fuel s = some (items, after) → after <:+ s
  | 0, _, _, _, h => by cases h
  | fuel + 1, s, items, after, h => by
      rw [readItems] at h
      split at h
      · cases h
      · next v rest hvalue =>
          have hrest := readValue_suffix fuel s hvalue
          split at h
          · next tail hcomma =>
              obtain ⟨⟨items', after'⟩, hread, heq⟩ := Option.map_eq_some_iff.1 h
              obtain ⟨-, rfl⟩ := Prod.mk.inj heq
              exact (readItems_suffix fuel tail hread).trans
                ((expect_skipWhite hcomma).1.trans hrest)
          · obtain ⟨after', hbracket, heq⟩ := Option.map_eq_some_iff.1 h
            obtain ⟨-, rfl⟩ := Prod.mk.inj heq
            exact (expect_skipWhite hbracket).1.trans hrest

/-- The fields of an object end with its brace. -/
theorem readFields_suffix : (fuel : Nat) → (s : List Char) →
    {fields : List (List Char × Json)} → {after : List Char} →
    readFields fuel s = some (fields, after) → after <:+ s ∧ '}' ∈ s
  | 0, _, _, _, h => by cases h
  | fuel + 1, s, fields, after, h => by
      rw [readFields] at h
      split at h
      · cases h
      · next key tail hkey =>
          obtain ⟨quoted, hquote, hstring⟩ := Option.bind_eq_some_iff.1 hkey
          have htail : tail <:+ s := (readString_suffix hstring).trans (expect_skipWhite hquote).1
          split at h
          · cases h
          · next v rest hvalue =>
              obtain ⟨text, hcolon, hread⟩ := Option.bind_eq_some_iff.1 hvalue
              have hrest : rest <:+ s := (readValue_suffix fuel text hread).trans
                ((expect_skipWhite hcolon).1.trans htail)
              split at h
              · next more hcomma =>
                  obtain ⟨⟨fields', after'⟩, hread, heq⟩ := Option.map_eq_some_iff.1 h
                  obtain ⟨-, rfl⟩ := Prod.mk.inj heq
                  have hmore := (expect_skipWhite hcomma).1.trans hrest
                  obtain ⟨hsuffix, hmem⟩ := readFields_suffix fuel more hread
                  exact ⟨hsuffix.trans hmore, hmore.subset hmem⟩
              · obtain ⟨after', hbrace, heq⟩ := Option.map_eq_some_iff.1 h
                obtain ⟨-, rfl⟩ := Prod.mk.inj heq
                obtain ⟨hsuffix, hmem⟩ := expect_skipWhite hbrace
                exact ⟨hsuffix.trans hrest, hrest.subset hmem⟩

end

/-- What begins as an object and has no closing brace is no value. -/
theorem readValue_unclosed {rest : List Char} (h : '}' ∉ rest) (fuel : Nat) :
    readValue fuel ('{' :: rest) = none := by
  cases fuel with
  | zero => rfl
  | succ fuel =>
      rw [readValue, skipWhite_cons (by decide)]
      simp only [beq_self_eq_true, if_true]
      cases hbrace : expect '}' (skipWhite rest) with
      | some after => exact absurd (expect_skipWhite hbrace).2 h
      | none =>
          cases hfields : readFields fuel rest with
          | some result => exact absurd (readFields_suffix fuel rest hfields).2 h
          | none => rfl

end Json

end Lib
