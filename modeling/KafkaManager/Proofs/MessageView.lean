import KafkaManager.Lib.Shortest
import KafkaManager.Web.JsonViewer

/-!
# The formatted view of a message

To format a message goes through numbers of binary64. Structure and strings
come through, and so does a number if it is finite there and, where it is an
integer, if no other decimal of as few digits is rounded to the same number.
With other integers, as with many ids of 64 bits, what is copied is not what the
message says.
-/

namespace KafkaManager.Web

open Lib

/-! ## The same JSON -/

mutual

/-- The second tree denotes the value of the first. Integer literals keep their
exact value, other numbers are the same number of binary64, and the fields of an
object may stand in another order. -/
def Same : JsonTree JsString → JsonTree JsString → Prop
  | .null, u => u = .null
  | .bool b, u => u = .bool b
  | .num n, u =>
      ∃ m, u = .num m ∧ (n.Integral → m.value = n.value) ∧ toDouble m.value = toDouble n.value
  | .str s, u => u = .str s
  | .arr items, u => ∃ items', u = .arr items' ∧ SameItems items items'
  | .obj fields, u =>
      ∃ fields', u = .obj fields' ∧ (fields'.map Prod.fst).Perm (fields.map Prod.fst) ∧
        SameFields fields fields'

def SameItems : List (JsonTree JsString) → List (JsonTree JsString) → Prop
  | [], l => l = []
  | t :: rest, l => ∃ u l', l = u :: l' ∧ Same t u ∧ SameItems rest l'

/-- Each field is found again. -/
def SameFields :
    List (JsString × JsonTree JsString) → List (JsString × JsonTree JsString) → Prop
  | [], _ => True
  | (key, t) :: rest, l => (∃ u, (key, u) ∈ l ∧ Same t u) ∧ SameFields rest l

end

/-- What is copied of a message is what the message says. -/
def Faithful (T : NumberText) (raw : List Char) : Prop :=
  match JsonTree.read JsString.form raw with
  | some t =>
      t.DistinctKeys → ∃ u, JsonTree.read JsString.form (copy T raw) = some u ∧ Same t u
  | none => copy T raw = raw

/-- A number is finite, and if it is an integer no other decimal of as few
digits is rounded to the same number. -/
def Preserved (n : Numeral) : Prop :=
  (toDouble n.value).isSome ∧ (n.Integral → Sole n.value)

/-! ## One number -/

/-- What a number is copied as says the same. -/
def Written (T : NumberText) (n : Numeral) : Prop :=
  Same (.num n) (JsValue.numberTree T (.ofRat n.value))

theorem integral_value {n : Numeral} (h : n.Integral) : n.value = 0 ∨ 1 ≤ |n.value| := by
  obtain ⟨k, hk⟩ := h.value
  rw [hk]
  rcases eq_or_ne k 0 with rfl | hne
  · exact .inl Int.cast_zero
  · have habs : 1 ≤ |k| := Int.one_le_abs hne
    exact .inr (by exact_mod_cast habs)

theorem written_finite {T : NumberText} {n : Numeral} {x : Double} (h : toDouble n.value = some x) :
    Written T n ↔ (n.Integral → (T.numeral x).value = n.value) := by
  have htree : JsValue.numberTree T (.ofRat n.value) = .num (T.numeral x) := by
    rw [JsNumber.ofRat, h, Option.elim_some, JsValue.numberTree]
  rw [Written, htree, Same]
  constructor
  · rintro ⟨m, hm, hvalue, -⟩
    obtain rfl := JsonTree.num.inj hm
    exact hvalue
  · exact fun hvalue => ⟨_, rfl, hvalue, by rw [T.numeral_rounds, h]⟩

/-- A number that is not finite is copied as null. -/
theorem written_infinite {T : NumberText} {n : Numeral} (h : toDouble n.value = none) :
    ¬ Written T n := by
  rw [Written, JsNumber.ofRat, h, Option.elim_none, JsValue.numberTree, Same]
  rintro ⟨m, hm, -⟩
  cases hm

theorem written_iff (n : Numeral) : (∀ T, Written T n) ↔ Preserved n := by
  cases h : toDouble n.value with
  | none =>
      obtain ⟨T⟩ := numberText_nonempty
      refine ⟨fun hwritten => absurd (hwritten T) (written_infinite h), fun hpreserved => ?_⟩
      rw [Preserved, h] at hpreserved
      cases hpreserved.1
  | some x =>
      have hsole := fun hint => sole_iff (integral_value hint) h
      rw [Preserved, h]
      constructor
      · intro hwritten
        exact ⟨rfl, fun hint => (hsole hint).1 fun T => (written_finite h).1 (hwritten T) hint⟩
      · intro hpreserved T
        exact (written_finite h).2 fun hint => (hsole hint).2 (hpreserved.2 hint) T

/-! ## A message -/

theorem ofFields_keys (fields : List (JsString × JsonTree JsString)) :
    (JsValue.ofFields fields).map Prod.fst = fields.map Prod.fst := by
  induction fields with
  | nil => rfl
  | cons field rest ih => rw [JsValue.ofFields, List.map_cons, List.map_cons, ih]

theorem ownOrder_perm {α : Type} (properties : List (JsString × α)) :
    (JsValue.ownOrder properties).Perm properties := by
  refine ((List.mergeSort_perm _ _).append_right _).trans ?_
  have hsplit := List.filter_append_perm (fun p => (JsValue.arrayIndex p.1).isSome) properties
  simpa using hsplit

section

variable (T : NumberText)

mutual

/-- A tree comes through if its numbers do. -/
theorem same_iff : (t : JsonTree JsString) → t.DistinctKeys →
    (Same t (JsValue.toTree T (JsValue.ofTree t)) ↔ ∀ n ∈ t.numbers, Written T n)
  | .null, _ => by simp [Same, JsValue.ofTree, JsValue.toTree, JsonTree.numbers]
  | .bool b, _ => by simp [Same, JsValue.ofTree, JsValue.toTree, JsonTree.numbers]
  | .num n, _ => by
      rw [JsValue.ofTree, JsValue.toTree, JsonTree.numbers, List.forall_mem_singleton, Written]
  | .str s, _ => by simp [Same, JsValue.ofTree, JsValue.toTree, JsonTree.numbers]
  | .arr items, h => by
      have hitems := sameItems_iff items h
      rw [JsValue.ofTree, JsValue.toTree, JsonTree.numbers, ← hitems, Same]
      constructor
      · rintro ⟨items', heq, hsame⟩
        rwa [JsonTree.arr.inj heq]
      · exact fun hsame => ⟨_, rfl, hsame⟩
  | .obj fields, h => by
      obtain ⟨hnodup, hdistinct⟩ := h
      have hproperties : JsValue.createProperties (JsValue.ofFields fields) =
          JsValue.ofFields fields :=
        JsValue.createProperties_nodup (by rwa [ofFields_keys])
      have hperm := ownOrder_perm (JsValue.toFields T (JsValue.ofFields fields))
      have hkeys : ((JsValue.ownOrder (JsValue.toFields T (JsValue.ofFields fields))).map
          Prod.fst).Perm (fields.map Prod.fst) := by
        have hmap := hperm.map Prod.fst
        rwa [JsValue.toFields_keys, ofFields_keys] at hmap
      have hfields := sameFields_iff fields _ (fun p hp => hperm.mem_iff.2 hp)
        (hkeys.nodup_iff.2 hnodup) hdistinct
      rw [JsValue.ofTree, JsValue.toTree, hproperties, JsonTree.numbers, ← hfields, Same]
      constructor
      · rintro ⟨fields', heq, -, hsame⟩
        rwa [JsonTree.obj.inj heq]
      · exact fun hsame => ⟨_, rfl, hkeys, hsame⟩

theorem sameItems_iff : (items : List (JsonTree JsString)) → JsonTree.DistinctItems items →
    (SameItems items (JsValue.toItems T (JsValue.ofItems items)) ↔
      ∀ n ∈ JsonTree.numbersItems items, Written T n)
  | [], _ => by simp [SameItems, JsValue.ofItems, JsValue.toItems, JsonTree.numbersItems]
  | t :: rest, h => by
      have hhead := same_iff t h.1
      have hrest := sameItems_iff rest h.2
      rw [JsValue.ofItems, JsValue.toItems, JsonTree.numbersItems, List.forall_mem_append,
        ← hhead, ← hrest, SameItems]
      constructor
      · rintro ⟨u, l, heq, hsame⟩
        obtain ⟨rfl, rfl⟩ := List.cons.inj heq
        exact hsame
      · exact fun hsame => ⟨_, _, rfl, hsame⟩

theorem sameFields_iff : (fields l : List (JsString × JsonTree JsString)) →
    (∀ p ∈ JsValue.toFields T (JsValue.ofFields fields), p ∈ l) → (l.map Prod.fst).Nodup →
    JsonTree.DistinctFields fields →
      (SameFields fields l ↔ ∀ n ∈ JsonTree.numbersFields fields, Written T n)
  | [], _, _, _, _ => by simp [SameFields, JsonTree.numbersFields]
  | (key, t) :: rest, l, hmem, hnodup, h => by
      rw [JsValue.ofFields, JsValue.toFields] at hmem
      have hhead := same_iff t h.1
      have hrest := sameFields_iff rest l (fun p hp => hmem p (List.mem_cons_of_mem _ hp)) hnodup h.2
      have hfound := hmem _ List.mem_cons_self
      rw [JsonTree.numbersFields, List.forall_mem_append, ← hhead, ← hrest, SameFields]
      refine and_congr_left fun _ => ?_
      constructor
      · -- there is no other field of the name
        rintro ⟨u, hu, hsame⟩
        have heq := List.inj_on_of_nodup_map hnodup hu hfound rfl
        rwa [(Prod.mk.inj heq).2] at hsame
      · exact fun hsame => ⟨_, hfound, hsame⟩

end

/-- What is copied is the tree of what was read. -/
theorem read_copy {raw : List Char} {t : JsonTree JsString}
    (h : JsonTree.read JsString.form raw = some t) :
    JsonTree.read JsString.form (copy T raw) = some (JsValue.toTree T (JsValue.ofTree t)) := by
  have hparse : JsValue.parse raw = some (JsValue.ofTree t) := by
    rw [JsValue.parse, h, Option.map_some]
  rw [copy, parseMessageValue, hparse]
  exact JsonTree.read_write _ _

/-- A text that is not JSON is copied as it is. -/
theorem copy_text {raw : List Char} (h : JsonTree.read JsString.form raw = none) :
    copy T raw = raw := by
  have hparse : JsValue.parse raw = none := by rw [JsValue.parse, h, Option.map_none]
  rw [copy, parseMessageValue, hparse]

theorem faithful_iff (raw : List Char) :
    Faithful T raw ↔ ∀ t, JsonTree.read JsString.form raw = some t → t.DistinctKeys →
      ∀ n ∈ t.numbers, Written T n := by
  unfold Faithful
  cases hread : JsonTree.read JsString.form raw with
  | none => exact ⟨fun _ t ht => (Option.some_ne_none t ht.symm).elim, fun _ => copy_text T hread⟩
  | some t =>
      constructor
      · rintro hfaithful t' ht hdistinct
        obtain rfl := Option.some.inj ht
        obtain ⟨u, hu, hsame⟩ := hfaithful hdistinct
        rw [read_copy T hread] at hu
        obtain rfl := Option.some.inj hu
        exact (same_iff T t hdistinct).1 hsame
      · intro hwritten hdistinct
        exact ⟨_, read_copy T hread, (same_iff T t hdistinct).2 (hwritten t rfl hdistinct)⟩

end

/-- What is copied of a message is what it says in every implementation, if and
only if every number in it is finite and no integer has another decimal of as
few digits beside it. -/
theorem copy_faithful (raw : List Char) :
    (∀ T, Faithful T raw) ↔
      ∀ t, JsonTree.read JsString.form raw = some t → t.DistinctKeys →
        ∀ n ∈ t.numbers, Preserved n := by
  constructor
  · intro hfaithful t ht hdistinct n hn
    exact (written_iff n).1 fun T => (faithful_iff T raw).1 (hfaithful T) t ht hdistinct n hn
  · intro hpreserved T
    rw [faithful_iff]
    exact fun t ht hdistinct n hn => (written_iff n).2 (hpreserved t ht hdistinct n hn) T

theorem ofInt_natCast (n : Nat) : (Numeral.ofInt n).literal = Nat.toDigits 10 n := by
  have hformat : (Numeral.ofInt n).literal = formatInt n := rfl
  rw [hformat, formatInt, if_neg (by omega), Int.natAbs_natCast]

/-- A message that is a natural number is copied as that number if it is copied
faithfully. -/
theorem faithful_natural {T : NumberText} {n : Nat} {x : Double} (h : toDouble n = some x)
    (hfaithful : Faithful T (Nat.toDigits 10 n)) : (T.numeral x).value = n := by
  have hliteral := ofInt_natCast n
  have hread : JsonTree.read JsString.form (Nat.toDigits 10 n) = some (.num (.ofInt n)) := by
    have hwrite := JsonTree.read_write (F := JsString.form) (L := .compact) (.num (.ofInt n)) 0
    rwa [JsonTree.write, hliteral] at hwrite
  have hvalue : (Numeral.ofInt n).value = n :=
    Numeral.value_of_read (by rw [hliteral, readDecimal_toDigits])
  have hint : (Numeral.ofInt n).Integral := by
    intro c hc
    rw [hliteral] at hc
    have hdigit := List.all_eq_true.1 (toDigits_digit n) c hc
    have hne : ∀ d : Char, d.isDigit = false → c ≠ d := by
      rintro d hd rfl
      rw [hdigit] at hd
      cases hd
    exact ⟨hne _ rfl, hne _ rfl, hne _ rfl⟩
  have hwritten := (faithful_iff T _).1 hfaithful _ hread trivial _ List.mem_cons_self
  rw [← hvalue]
  exact (written_finite (by rw [hvalue, h])).1 hwritten hint

/-- The largest integer of 64 bits has nineteen digits that count. -/
theorem maxInt64_digits {s : Nat} {e : Int} (hs : s < 10 ^ 16) :
    (s : ℚ) * 10 ^ e ≠ 9223372036854775807 := by
  intro h
  rcases lt_or_ge e 1 with he | he
  · have hpow : (10 : ℚ) ^ e ≤ 10 ^ (0 : Int) := zpow_le_zpow_right₀ (by norm_num) (by omega)
    have hlt : (s : ℚ) < 10 ^ 16 := by exact_mod_cast hs
    have hle : (s : ℚ) * 10 ^ e ≤ s * 1 :=
      mul_le_mul_of_nonneg_left (by simpa using hpow) (by positivity)
    have hbig : (10 : ℚ) ^ 16 < 9223372036854775807 := by norm_num
    linarith
  · -- it is no multiple of ten
    obtain ⟨k, rfl⟩ := Int.eq_ofNat_of_zero_le (show 0 ≤ e by omega)
    obtain ⟨k, rfl⟩ := Nat.exists_eq_succ_of_ne_zero (show k ≠ 0 by omega)
    rw [zpow_natCast] at h
    have hnat : s * 10 ^ (k + 1) = 9223372036854775807 := by exact_mod_cast h
    rw [Nat.pow_succ, ← Nat.mul_assoc] at hnat
    omega

theorem toDouble_maxInt64 :
    ∃ x : Double, toDouble 9223372036854775807 = some x ∧
      toDouble ((9223372036854776 : Nat) * 10 ^ (3 : Int)) = some x := by
  have hround : roundDouble 9223372036854775807 = 9223372036854775808 := by decide +kernel
  have hround' : roundDouble ((9223372036854776 : Nat) * 10 ^ (3 : Int)) = 9223372036854775808 := by
    decide +kernel
  have hlt : |(9223372036854775808 : ℚ)| < 2 ^ 1024 := by
    calc |(9223372036854775808 : ℚ)| = 2 ^ 63 := by norm_num
      _ < 2 ^ 1024 := pow_lt_pow_right₀ (by norm_num) (by norm_num)
  refine ⟨_, by rw [toDouble, dif_pos (by rw [hround]; exact hlt)], ?_⟩
  rw [toDouble, dif_pos (by rw [hround']; exact hlt)]
  exact congrArg some (Double.ext (hround'.trans hround.symm))

/-- The largest integer of 64 bits is copied as another one. -/
theorem copy_faithful_not : ¬ ∃ T, Faithful T "9223372036854775807".toList := by
  rintro ⟨T, hfaithful⟩
  obtain ⟨x, hx, hx'⟩ := toDouble_maxInt64
  have hliteral : "9223372036854775807".toList = Nat.toDigits 10 9223372036854775807 := by
    decide +kernel
  rw [hliteral] at hfaithful
  have hv : 1 ≤ |(9223372036854775807 : ℚ)| := by norm_num
  have hcopied := faithful_natural (by exact_mod_cast hx) hfaithful
  rw [Nat.cast_ofNat, numeral_value T hv hx, abs_of_nonneg (by norm_num)] at hcopied
  have habs := (toDouble_abs hv hx).1
  rw [abs_of_nonneg (by norm_num), hx] at habs
  rw [← Option.some.inj habs] at hcopied
  -- a decimal of sixteen digits is rounded to the same number
  have hshortest := T.shortest x (toDouble_pos (by norm_num) hx)
  have hleast := hshortest.least 9223372036854776 3 (by norm_num) hx'
  have hlength := hleast.trans
    ((Nat.length_toDigits_le_iff (k := 16) (by decide) (by decide)).2 (by norm_num))
  exact maxInt64_digits ((Nat.length_toDigits_le_iff (by decide) (by decide)).1 hlength) hcopied

/-- Messages with finite numbers and integers of 53 bits are copied as they are. -/
theorem faithful_of_small {raw : List Char} {t : JsonTree JsString}
    (h : JsonTree.read JsString.form raw = some t)
    (hnumbers : ∀ n ∈ t.numbers, (toDouble n.value).isSome ∧ (n.Integral → |n.value| < 2 ^ 53))
    (T : NumberText) : Faithful T raw := by
  rw [faithful_iff]
  intro t' ht _ n hn
  obtain rfl := Option.some.inj (h.symm.trans ht)
  obtain ⟨hfinite, hsmall⟩ := hnumbers n hn
  refine (written_iff n).2 ⟨hfinite, fun hint => ?_⟩ T
  have hlt := hsmall hint
  obtain ⟨k, hk⟩ := hint.value
  rw [hk] at hlt ⊢
  exact sole_intCast (by exact_mod_cast hlt)

end KafkaManager.Web
