import KafkaManager.Lib.JsonWire
import KafkaManager.Lib.Shortest

/-!
# What a page writes and a server reads

`encoding/json` reads the same values as `JSON.parse` but for the strings: it
makes characters of the units, of a surrogate that stands alone U+FFFD. So what
`JSON.stringify` writes is read as `posted`, which is the tree of the value with
the texts of its strings.

An integer of 53 bits is written by its digits, whatever an implementation
chooses.
-/

namespace Lib

/-! ## Two readers -/

namespace JsonTree

variable {σ τ : Type}

mutual

def mapStrings (f : σ → τ) : JsonTree σ → JsonTree τ
  | null => null
  | bool b => bool b
  | num n => num n
  | str s => str (f s)
  | arr items => arr (mapItems f items)
  | obj fields => obj (mapFields f fields)

def mapItems (f : σ → τ) : List (JsonTree σ) → List (JsonTree τ)
  | [] => []
  | v :: rest => v.mapStrings f :: mapItems f rest

def mapFields (f : σ → τ) : List (σ × JsonTree σ) → List (τ × JsonTree τ)
  | [] => []
  | (key, v) :: rest => (f key, v.mapStrings f) :: mapFields f rest

end

section

open Json

variable {F : StringForm σ} {G : StringForm τ} {f : σ → τ}

mutual

/-- Readers that differ in the strings they make of the literals. -/
theorem readValue_map (h : ∀ s, G.read s = (F.read s).map (Prod.map f id)) :
    (fuel : Nat) → (s : List Char) →
      readValue G fuel s = (readValue F fuel s).map (Prod.map (mapStrings f) id)
  | 0, _ => rfl
  | fuel + 1, s => by
      simp only [readValue]
      cases skipWhite s with
      | nil => rfl
      | cons c rest =>
          dsimp only
          by_cases hobj : (c == '{') = true
          · rw [if_pos hobj, if_pos hobj]
            cases expect '}' (skipWhite rest) with
            | some after => rfl
            | none =>
                dsimp only
                rw [readFields_map h fuel rest, Option.map_map, Option.map_map]
                rfl
          · rw [if_neg hobj, if_neg hobj]
            by_cases harr : (c == '[') = true
            · rw [if_pos harr, if_pos harr]
              cases expect ']' (skipWhite rest) with
              | some after => rfl
              | none =>
                  dsimp only
                  rw [readItems_map h fuel rest, Option.map_map, Option.map_map]
                  rfl
            · rw [if_neg harr, if_neg harr, h rest]
              simp only [apply_ite (Option.map (Prod.map (mapStrings f) id)), Option.map_map]
              rfl

theorem readItems_map (h : ∀ s, G.read s = (F.read s).map (Prod.map f id)) :
    (fuel : Nat) → (s : List Char) →
      readItems G fuel s = (readItems F fuel s).map (Prod.map (mapItems f) id)
  | 0, _ => rfl
  | fuel + 1, s => by
      simp only [readItems, readValue_map h fuel s]
      cases readValue F fuel s with
      | none => rfl
      | some found =>
          obtain ⟨t, after⟩ := found
          simp only [Option.map_some, Prod.map_apply, id]
          cases expect ',' (skipWhite after) with
          | none =>
              dsimp only
              rw [Option.map_map]
              rfl
          | some rest =>
              dsimp only
              rw [readItems_map h fuel rest, Option.map_map, Option.map_map]
              rfl

theorem readFields_map (h : ∀ s, G.read s = (F.read s).map (Prod.map f id)) :
    (fuel : Nat) → (s : List Char) →
      readFields G fuel s = (readFields F fuel s).map (Prod.map (mapFields f) id)
  | 0, _ => rfl
  | fuel + 1, s => by
      have hkey : (expect '"' (skipWhite s)).bind G.read =
          ((expect '"' (skipWhite s)).bind F.read).map (Prod.map f id) := by
        cases expect '"' (skipWhite s) with
        | none => rfl
        | some rest => exact h rest
      simp only [readFields, hkey]
      cases (expect '"' (skipWhite s)).bind F.read with
      | none => rfl
      | some found =>
          obtain ⟨key, after⟩ := found
          simp only [Option.map_some, Prod.map_apply, id]
          cases expect ':' (skipWhite after) with
          | none => rfl
          | some rest =>
              simp only [Option.bind_some, readValue_map h fuel rest]
              cases readValue F fuel rest with
              | none => rfl
              | some found =>
                  obtain ⟨t, after⟩ := found
                  simp only [Option.map_some, Prod.map_apply, id]
                  cases expect ',' (skipWhite after) with
                  | none =>
                      dsimp only
                      rw [Option.map_map]
                      rfl
                  | some rest =>
                      dsimp only
                      rw [readFields_map h fuel rest, Option.map_map, Option.map_map]
                      rfl

end

end

end JsonTree

/-! ## The strings of a literal -/

namespace JsString

/-- The codes of a literal are units. -/
def UnitsFit (units : List StringUnit) : Prop := ∀ n, .code n ∈ units → n < 0x10000

theorem hexValue_lt {c : Char} {d : Nat} (h : hexValue c = some d) : d < 16 := by
  simp only [hexValue, Char.isDigit, Bool.and_eq_true, decide_eq_true_eq] at h
  split at h
  · next hdigit =>
      have hlast : c.toNat ≤ 57 := hdigit.2
      obtain rfl := Option.some.inj h
      omega
  · split at h
    · next hletter =>
        have hlast : c.toNat ≤ 102 := hletter.2
        obtain rfl := Option.some.inj h
        omega
    · split at h
      · next hletter =>
          have hlast : c.toNat ≤ 70 := hletter.2
          obtain rfl := Option.some.inj h
          omega
      · cases h

/-- The digits of an escape that are still to come leave room for them. -/
def stateFits : StringState → Prop
  | .plain | .escaped => True
  | .hex digits value => (value + 1) * 16 ^ (digits + 1) ≤ 0x10000

theorem unitsFit_cons {u : StringUnit} {units : List StringUnit}
    (hu : ∀ n, u = .code n → n < 0x10000)
    (h : UnitsFit units) : UnitsFit (u :: units) := by
  intro n hn
  rcases List.mem_cons.1 hn with heq | hn
  · exact hu n heq.symm
  · exact h n hn

theorem scanString_fits {state : StringState} {s after : List Char} {units : List StringUnit}
    (hstate : stateFits state) (h : scanString state s = some (units, after)) : UnitsFit units := by
  have hplain : stateFits .plain := trivial
  have hescaped : stateFits .escaped := trivial
  have hhex : stateFits (.hex 3 0) := by simp [stateFits]
  induction s generalizing state units after with
  | nil => cases state <;> cases h
  | cons c rest ih =>
      cases state with
      | plain =>
          simp only [scanString] at h
          split at h
          · obtain rfl := (Prod.mk.inj (Option.some.inj h)).1
            exact fun n hn => absurd hn List.not_mem_nil
          · split at h
            · exact ih hescaped h
            · split at h
              · cases h
              · obtain ⟨⟨units', after'⟩, hrest, heq⟩ := Option.map_eq_some_iff.1 h
                obtain ⟨rfl, rfl⟩ := Prod.mk.inj heq
                exact unitsFit_cons (fun n hn => by cases hn) (ih hplain hrest)
      | escaped =>
          simp only [scanString] at h
          split at h
          · obtain ⟨⟨units', after'⟩, hrest, heq⟩ := Option.map_eq_some_iff.1 h
            obtain ⟨rfl, rfl⟩ := Prod.mk.inj heq
            exact unitsFit_cons (fun n hn => by cases hn) (ih hplain hrest)
          · split at h
            · exact ih hhex h
            · cases h
      | hex digits value =>
          simp only [scanString] at h
          cases hd : hexValue c with
          | none =>
              rw [hd] at h
              cases h
          | some d =>
              have hlt := hexValue_lt hd
              rw [hd] at h
              cases digits with
              | zero =>
                  obtain ⟨⟨units', after'⟩, hrest, heq⟩ := Option.map_eq_some_iff.1 h
                  obtain ⟨rfl, rfl⟩ := Prod.mk.inj heq
                  simp only [stateFits, Nat.zero_add, Nat.pow_one] at hstate
                  refine unitsFit_cons (fun n hn => ?_) (ih hplain hrest)
                  obtain rfl := StringUnit.code.inj hn
                  omega
              | succ digits =>
                  have hnext : stateFits (.hex digits (value * 16 + d)) := by
                    simp only [stateFits] at hstate ⊢
                    calc (value * 16 + d + 1) * 16 ^ (digits + 1)
                        ≤ ((value + 1) * 16) * 16 ^ (digits + 1) :=
                          Nat.mul_le_mul_right _ (by omega)
                      _ = (value + 1) * 16 ^ (digits + 1 + 1) := by ring
                      _ ≤ 0x10000 := hstate
                  exact ih hnext h

/-- The first unit of a character is not the second of a pair. -/
theorem utf16_head (c : Char) : ∃ u rest, utf16 c = u :: rest ∧ isLowSurrogate u.toNat = false := by
  have hvalid : c.toNat < 0xD800 ∨ 0xDFFF < c.toNat ∧ c.toNat < 0x110000 := c.valid
  unfold utf16
  split
  · next hsmall =>
      refine ⟨_, _, rfl, ?_⟩
      rw [UInt16.toNat_ofNat', Nat.mod_eq_of_lt hsmall]
      simp only [isLowSurrogate, Bool.and_eq_false_iff, decide_eq_false_iff_not]
      omega
  · refine ⟨_, _, rfl, ?_⟩
    rw [UInt16.toNat_ofNat', Nat.mod_eq_of_lt (by omega)]
    simp only [isLowSurrogate, Bool.and_eq_false_iff, decide_eq_false_iff_not]
    omega

/-- A unit that is not the first of a pair. -/
theorem joinUnits_alone {n m : Nat} (hlow : isLowSurrogate m = false) (units : List StringUnit) :
    joinUnits (.code n :: .code m :: units) =
      (if isHighSurrogate n || isLowSurrogate n then replacement else Char.ofNat n) ::
        joinUnits (.code m :: units) := by
  rw [joinUnits, hlow, Bool.and_false, if_neg Bool.false_ne_true]
  split <;> rfl

theorem text_code {n : Nat} (hn : n < 0x10000) (s : JsString) :
    text (literalUnits (.code n) ++ s) = joinUnits (.code n :: s.map fun u => .code u.toNat) := by
  rw [literalUnits, text, List.map_append, List.map_singleton, UInt16.toNat_ofNat',
    Nat.mod_eq_of_lt hn]
  rfl

/-- Characters made of the units of a literal, as the server does or by way of a
string of the page. -/
theorem text_literalUnits {units : List StringUnit} (h : UnitsFit units) :
    text (units.flatMap literalUnits) = joinUnits units := by
  fun_induction joinUnits units with
  | case1 => rfl
  | case2 c rest ih =>
      rw [List.flatMap_cons]
      exact (text_append c _).trans (congrArg (c :: ·) (ih fun n hn => h n (.tail _ hn)))
  | case3 n m rest hpair ih =>
      have hm := h m (.tail _ (.head _))
      have htext := ih fun k hk => h k (.tail _ (.tail _ hk))
      rw [List.flatMap_cons, text_code (h n (.head _)), List.flatMap_cons, literalUnits,
        List.map_append, List.map_singleton, UInt16.toNat_ofNat', Nat.mod_eq_of_lt hm,
        List.singleton_append, joinUnits, if_pos hpair]
      exact congrArg _ htext
  | case4 n m rest hpair hsurrogate ih =>
      have htext := ih fun k hk => h k (.tail _ hk)
      rw [List.flatMap_cons, text_code (h m (.tail _ (.head _)))] at htext
      rw [List.flatMap_cons, text_code (h n (.head _)), List.flatMap_cons, literalUnits,
        List.map_append, List.map_singleton, UInt16.toNat_ofNat',
        Nat.mod_eq_of_lt (h m (.tail _ (.head _))), List.singleton_append, joinUnits, if_neg hpair,
        if_pos hsurrogate, htext]
  | case5 n m rest hpair hsurrogate ih =>
      have htext := ih fun k hk => h k (.tail _ hk)
      rw [List.flatMap_cons, text_code (h m (.tail _ (.head _)))] at htext
      rw [List.flatMap_cons, text_code (h n (.head _)), List.flatMap_cons, literalUnits,
        List.map_append, List.map_singleton, UInt16.toNat_ofNat',
        Nat.mod_eq_of_lt (h m (.tail _ (.head _))), List.singleton_append, joinUnits, if_neg hpair,
        if_neg hsurrogate, htext]
  | case6 n rest hrest ih =>
      have htext := ih fun k hk => h k (.tail _ hk)
      rw [List.flatMap_cons, text_code (h n (.head _)), ← htext]
      cases rest with
      | nil => rfl
      | cons u rest =>
          cases u with
          | code m => exact (hrest m rest rfl).elim
          | char c =>
              obtain ⟨v, more, hv, hlow⟩ := utf16_head c
              rw [List.flatMap_cons, literalUnits, hv, List.cons_append, List.map_cons,
                joinUnits_alone hlow]
              rfl

/-- A literal on the server. -/
theorem readString_eq (s : List Char) :
    Lib.readString s = (readLiteral s).map (Prod.map text id) := by
  rw [readString, readLiteral, Option.map_map]
  cases h : scanString .plain s with
  | none => rfl
  | some found =>
      obtain ⟨units, after⟩ := found
      have htext := text_literalUnits (scanString_fits (by trivial) h)
      exact congrArg (fun joined => some (joined, after)) htext.symm

end JsString

/-! ## The digits of an integer -/

theorem toDigits_mul_pow {s : Nat} (hs : 0 < s) (k : Nat) :
    Nat.toDigits 10 (s * 10 ^ k) = Nat.toDigits 10 s ++ List.replicate k '0' := by
  induction k with
  | zero => simp
  | succ k ih =>
      have hpos : 0 < s * 10 ^ k := Nat.mul_pos hs (Nat.pow_pos (by decide))
      have hstep : s * 10 ^ (k + 1) = 10 * (s * 10 ^ k) := by ring
      rw [hstep, Nat.toDigits_of_base_le (by decide) (by omega),
        Nat.mul_div_cancel_left _ (by decide), Nat.mul_mod_right, ih, List.append_assoc,
        List.replicate_succ']
      rfl

/-- The fewest digits of an integer are its own, without zeros behind them. -/
theorem formatDecimal_nat {s a : Nat} {e : Int} (hs : 0 < s) (heq : (s : ℚ) * 10 ^ e = a)
    (hlength : (Nat.toDigits 10 s).length ≤ (Nat.toDigits 10 a).length)
    (hshort : (Nat.toDigits 10 a).length ≤ 21) : formatDecimal s e = Nat.toDigits 10 a := by
  rcases lt_or_ge e 0 with he | he
  · -- with a place behind the point there are more digits
    obtain ⟨k, hk⟩ := Int.eq_ofNat_of_zero_le (show 0 ≤ -e by omega)
    have hpow : (10 : ℚ) ^ e * 10 ^ k = 1 := by
      rw [← zpow_natCast, ← zpow_add₀ (by norm_num), ← hk, add_neg_cancel, zpow_zero]
    have hdigits : s = a * 10 ^ k := by
      have hcast : (s : ℚ) = a * 10 ^ k := by rw [← heq, mul_assoc, hpow, mul_one]
      exact_mod_cast hcast
    have ha : 0 < a := by
      rcases Nat.eq_zero_or_pos a with rfl | ha
      · rw [Nat.zero_mul] at hdigits
        omega
      · exact ha
    rw [hdigits, toDigits_mul_pow ha, List.length_append, List.length_replicate] at hlength
    omega
  · obtain ⟨k, rfl⟩ := Int.eq_ofNat_of_zero_le he
    have hdigits : a = s * 10 ^ k := by
      rw [zpow_natCast] at heq
      exact_mod_cast heq.symm
    have hwritten : Nat.toDigits 10 a = Nat.toDigits 10 s ++ List.replicate k '0' := by
      rw [hdigits, toDigits_mul_pow hs]
    rw [hwritten, List.length_append, List.length_replicate] at hshort
    rw [formatDecimal, if_pos ⟨he, by omega⟩, hwritten, Int.toNat_natCast]

/-- An integer of 53 bits is written as the server writes it. -/
theorem NumberText.literal_int (T : NumberText) {n : Int} (hn : |n| < 2 ^ 53) {x : Double}
    (hx : toDouble n = some x) : (T.numeral x).literal = formatInt n := by
  rcases eq_or_ne n 0 with rfl | hne
  · have hzero : x.value = 0 := by
      obtain ⟨y, hy, hvalue⟩ := toDouble_intCast (n := 0) (by norm_num)
      rw [Option.some.inj (hx.symm.trans hy), hvalue, Int.cast_zero]
    rw [numeral, dif_pos hzero]
    rfl
  · have hone : 1 ≤ |n| := Int.one_le_abs hne
    have hv : 1 ≤ |(n : ℚ)| := by exact_mod_cast hone
    obtain ⟨habs, hsign, hpos⟩ := toDouble_abs hv hx
    have hcast : |(n : ℚ)| = (n.natAbs : ℚ) := by rw [← Int.cast_abs, Nat.cast_natAbs]
    have hshortest := T.shortest x.abs hpos
    have hdigits := (numeral_value T hv hx).1 ((sole_iff (.inr hv) hx).2 (sole_intCast hn) T)
    rw [hcast] at hdigits habs
    have hleast := hshortest.least n.natAbs 0 (by omega) (by rw [zpow_zero, mul_one, habs])
    have hlt : n.natAbs < 2 ^ 53 := by
      rw [Int.abs_eq_natAbs] at hn
      omega
    have hfew : (Nat.toDigits 10 n.natAbs).length ≤ 21 :=
      (Nat.length_toDigits_le_iff (by decide) (by decide)).2 (hlt.trans (by norm_num))
    have hformat := formatDecimal_nat hshortest.pos hdigits hleast hfew
    rw [numeral, dif_neg (abs_pos.1 hpos)]
    show (if decide (x.value < 0) then '-' :: formatDecimal _ _ else formatDecimal _ _) = _
    rw [hformat, formatInt]
    simp only [decide_eq_true_eq, hsign, Int.cast_lt_zero]

theorem NumberText.numeral_int (T : NumberText) {n : Int} (hn : |n| < 2 ^ 53) {x : Double}
    (hx : toDouble n = some x) : T.numeral x = .ofInt n := by
  have hliteral := T.literal_int hn hx
  generalize T.numeral x = numeral at hliteral
  obtain ⟨literal, hscans⟩ := numeral
  obtain rfl : literal = formatInt n := hliteral
  rfl

theorem Numeral.value_ofInt (n : Int) : (Numeral.ofInt n).value = n := by
  refine Numeral.value_of_read ?_
  show readDecimal (formatInt n) = some (n : ℚ)
  unfold formatInt
  split
  · next hneg =>
      have hcast : ((n.natAbs : Nat) : ℚ) = -n := by
        rw [Nat.cast_natAbs, abs_of_neg hneg, Int.cast_neg]
      rw [readDecimal, readUnsigned_toDigits, Option.map_some, hcast, neg_neg]
  · next hpos =>
      have hcast : ((n.natAbs : Nat) : ℚ) = n := by
        rw [Nat.cast_natAbs, abs_of_nonneg (Int.not_lt.1 hpos)]
      rw [readDecimal_toDigits, hcast]

/-! ## The value of the server -/

namespace JsValue

variable (T : NumberText)

/-- What a server makes of a value of a page. -/
def posted (v : JsValue) : Json := Json.ofTree ((toTree T v).mapStrings JsString.text)

/-- What the page writes the server reads. -/
theorem readValue_stringify (L : Layout) (v : JsValue) {fuel : Nat} {after : List Char}
    (hfuel : (stringify T L v).length ≤ fuel) (hafter : Stops after) :
    Json.readValue fuel (stringify T L v ++ after) = some (v.posted T, after) := by
  rw [Json.readValue_tree, JsonTree.readValue_map (F := JsString.form) JsString.readString_eq,
    stringify, JsonTree.readValue_write _ _ _ _ hfuel hafter]
  rfl

section

variable {T}

@[simp] theorem posted_null : posted T null = .null := rfl

@[simp] theorem posted_bool (b : Bool) : posted T (bool b) = .bool b := rfl

theorem posted_int {n : Int} (h : |n| < 2 ^ 53) : posted T (num (.ofRat n)) = .num (.ofInt n) := by
  obtain ⟨x, hx, -⟩ := toDouble_intCast h
  rw [JsNumber.ofRat, hx, Option.elim_some]
  exact congrArg Json.num (T.numeral_int h hx)

theorem posted_arr (items : List JsValue) : posted T (arr items) = .arr (items.map (posted T)) := by
  have hitems : ∀ items : List JsValue, Json.ofItems (JsonTree.mapItems JsString.text
      (toItems T items)) = items.map (posted T) := by
    intro items
    induction items with
    | nil => rfl
    | cons v rest ih => rw [toItems, JsonTree.mapItems, Json.ofItems, ih]; rfl
  rw [posted, toTree, JsonTree.mapStrings, Json.ofTree, hitems]

theorem posted_obj {properties : List (JsString × JsValue)}
    (h : ∀ p ∈ properties, arrayIndex p.1 = none) :
    posted T (obj properties) = .obj (properties.map fun p => (p.1.text, p.2.posted T)) := by
  have hfields : ∀ properties : List (JsString × JsValue),
      Json.ofFields (JsonTree.mapFields JsString.text (toFields T properties)) =
        properties.map fun p => (p.1.text, p.2.posted T) := by
    intro properties
    induction properties with
    | nil => rfl
    | cons p rest ih => rw [toFields, JsonTree.mapFields, Json.ofFields, ih]; rfl
  have horder : ownOrder (toFields T properties) = toFields T properties := by
    refine ownOrder_plain fun p hp => ?_
    have hkey : p.1 ∈ properties.map Prod.fst := by
      rw [← toFields_keys T]
      exact List.mem_map_of_mem hp
    obtain ⟨q, hq, heq⟩ := List.mem_map.1 hkey
    rw [← heq]
    exact h q hq
  rw [posted, toTree, horder, JsonTree.mapStrings, Json.ofTree, hfields]

end

end JsValue

/-! ## There and back -/

namespace Json

mutual

/-- A value that a page can hold: the numbers are integers of 53 bits, no key of
an object repeats or is an array index. -/
def Small : Json → Prop
  | null | bool _ | str _ => True
  | num n => ∃ k : Int, n = .ofInt k ∧ |k| < 2 ^ 53
  | arr items => SmallItems items
  | obj fields =>
      (fields.map Prod.fst).Nodup ∧
        (∀ key ∈ fields.map Prod.fst, JsValue.arrayIndex (JsString.ofText key) = none) ∧
          SmallFields fields

def SmallItems : List Json → Prop
  | [] => True
  | v :: rest => v.Small ∧ SmallItems rest

def SmallFields : List (List Char × Json) → Prop
  | [] => True
  | (_, v) :: rest => v.Small ∧ SmallFields rest

end

theorem smallItems_iff {items : List Json} : SmallItems items ↔ ∀ v ∈ items, v.Small := by
  induction items with
  | nil => simp [SmallItems]
  | cons v rest ih => rw [SmallItems, ih, List.forall_mem_cons]

theorem smallFields_iff {fields : List (List Char × Json)} :
    SmallFields fields ↔ ∀ p ∈ fields, p.2.Small := by
  induction fields with
  | nil => simp [SmallFields]
  | cons p rest ih => rw [SmallFields, ih, List.forall_mem_cons]

theorem wireFields_keys (fields : List (List Char × Json)) :
    (wireFields fields).map Prod.fst = (fields.map Prod.fst).map JsString.ofText := by
  induction fields with
  | nil => rfl
  | cons p rest ih => rw [wireFields, List.map_cons, ih]; rfl

theorem toJs_arr (items : List Json) : toJs (arr items) = .arr (items.map toJs) := by
  have hitems : ∀ items : List Json,
      JsValue.ofItems (wireItems items) = items.map toJs := by
    intro items
    induction items with
    | nil => rfl
    | cons v rest ih => rw [wireItems, JsValue.ofItems, ih]; rfl
  rw [toJs, wireTree, JsValue.ofTree, hitems]

theorem toJs_obj {fields : List (List Char × Json)} (h : (fields.map Prod.fst).Nodup) :
    toJs (obj fields) = .obj (fields.map fun p => (JsString.ofText p.1, p.2.toJs)) := by
  have hfields : ∀ fields : List (List Char × Json), JsValue.ofFields (wireFields fields) =
      fields.map fun p => (JsString.ofText p.1, p.2.toJs) := by
    intro fields
    induction fields with
    | nil => rfl
    | cons p rest ih => rw [wireFields, JsValue.ofFields, ih]; rfl
  have hkeys : ((fields.map fun p => (JsString.ofText p.1, p.2.toJs)).map Prod.fst).Nodup := by
    rw [List.map_map]
    have hmap : ((fields.map Prod.fst).map JsString.ofText).Nodup := by
      refine List.Nodup.map (fun s t heq => ?_) h
      rw [← JsString.text_ofText s, heq, JsString.text_ofText]
    rwa [List.map_map] at hmap
  rw [toJs, wireTree, JsValue.ofTree, hfields, JsValue.createProperties_nodup hkeys]

mutual

theorem ofTree_wireTree : (v : Json) → Json.ofTree (v.wireTree.mapStrings JsString.text) = v
  | null | bool _ | num _ => rfl
  | str s => congrArg str (JsString.text_ofText s)
  | arr items => congrArg arr (ofItems_wireItems items)
  | obj fields => congrArg obj (ofFields_wireFields fields)

theorem ofItems_wireItems : (items : List Json) →
    Json.ofItems (JsonTree.mapItems JsString.text (wireItems items)) = items
  | [] => rfl
  | v :: rest => congrArg₂ List.cons (ofTree_wireTree v) (ofItems_wireItems rest)

theorem ofFields_wireFields : (fields : List (List Char × Json)) →
    Json.ofFields (JsonTree.mapFields JsString.text (wireFields fields)) = fields
  | [] => rfl
  | (key, v) :: rest =>
      congrArg₂ List.cons (congrArg₂ Prod.mk (JsString.text_ofText key) (ofTree_wireTree v))
        (ofFields_wireFields rest)

end

section

variable (T : NumberText)

mutual

/-- The page writes what it has read. -/
theorem toTree_toJs : (v : Json) → v.Small → JsValue.toTree T v.toJs = v.wireTree
  | null, _ | bool _, _ | str _, _ => rfl
  | num n, h => by
      obtain ⟨k, rfl, hk⟩ := h
      obtain ⟨x, hx, -⟩ := toDouble_intCast hk
      show JsValue.numberTree T (.ofRat (Numeral.ofInt k).value) = .num (.ofInt k)
      rw [Numeral.value_ofInt, JsNumber.ofRat, hx, Option.elim_some, JsValue.numberTree,
        T.numeral_int hk hx]
  | arr items, h => by
      rw [toJs_arr, JsValue.toTree, toItems_toJs items h, wireTree]
  | obj fields, h => by
      obtain ⟨hnodup, hplain, hfields⟩ := h
      have horder : JsValue.ownOrder (wireFields fields) = wireFields fields := by
        refine JsValue.ownOrder_plain fun p hp => ?_
        have hkey : p.1 ∈ (wireFields fields).map Prod.fst := List.mem_map_of_mem hp
        rw [wireFields_keys] at hkey
        obtain ⟨key, hmem, heq⟩ := List.mem_map.1 hkey
        rw [← heq]
        exact hplain key hmem
      rw [toJs_obj hnodup, JsValue.toTree, toFields_toJs fields hfields, horder, wireTree]

theorem toItems_toJs : (items : List Json) → SmallItems items →
    JsValue.toItems T (items.map toJs) = wireItems items
  | [], _ => rfl
  | v :: rest, h => congrArg₂ List.cons (toTree_toJs v h.1) (toItems_toJs rest h.2)

theorem toFields_toJs : (fields : List (List Char × Json)) → SmallFields fields →
    JsValue.toFields T (fields.map fun p => (JsString.ofText p.1, p.2.toJs)) = wireFields fields
  | [], _ => rfl
  | (_, v) :: rest, h =>
      congrArg₂ List.cons (congrArg₂ Prod.mk rfl (toTree_toJs v h.1)) (toFields_toJs rest h.2)

end

/-- What is sent back as it was comes back. -/
theorem posted_toJs {v : Json} (h : v.Small) : v.toJs.posted T = v := by
  rw [JsValue.posted, toTree_toJs T v h, ofTree_wireTree]

end

end Json

end Lib
