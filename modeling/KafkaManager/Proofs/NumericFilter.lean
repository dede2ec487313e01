import KafkaManager.Kafka.Filter
import KafkaManager.Lib.JsonRoundTrip
import KafkaManager.Lib.Significand

/-!
# Filters that compare integers

Both sides of a comparison are rounded to 53 bits. Rounding keeps the order, so
what two integers are to each other is still seen if they are rounded to
different numbers. If they are not, every operator takes them for equal.

A record that is nested too deep for the decoder counts as one that is no JSON,
and is accepted by no operator.
-/

namespace KafkaManager.Message

open Lib Kafka

/-- The operators that compare numbers. -/
inductive NumericOperator
  | eq
  | neq
  | gt
  | gte
  | lt
  | lte

namespace NumericOperator

def name : NumericOperator → String
  | eq => "eq"
  | neq => "neq"
  | gt => "gt"
  | gte => "gte"
  | lt => "lt"
  | lte => "lte"

/-- The comparison, of exact integers. -/
def holds (a b : Int) : NumericOperator → Bool
  | eq => a == b
  | neq => a != b
  | gt => decide (b < a)
  | gte => decide (b ≤ a)
  | lt => decide (a < b)
  | lte => decide (a ≤ b)

/-- Taking these integers for equal does no harm. -/
def harmless (a b : Int) : NumericOperator → Bool
  | eq | neq => a == b
  | gt | lte => decide (a ≤ b)
  | gte | lt => decide (b ≤ a)

end NumericOperator

/-- An integer of 64 bits, with a sign or without. -/
abbrev Fits64 (n : Int) : Prop := -2 ^ 63 ≤ n ∧ n < 2 ^ 64

/-- `strconv.ParseFloat` gives the number of 53 bits nearest to an integer, and
such numbers are compared as the integers they are. `value` is the integer a
number is, if it is one. -/
structure Nearest (F : Floats) (value : F.Number → Option Int) : Prop where
  parse : ∀ (text : List Char) (n : Int), parseSigned text = some n → Fits64 n →
    ∃ x, F.parseFloat text = some x ∧ value x = some (roundInt 53 n)
  eq : ∀ x y a b, value x = some a → value y = some b → F.eq x y = decide (a = b)
  lt : ∀ x y a b, value x = some a → value y = some b → F.lt x y = decide (a < b)
  le : ∀ x y a b, value x = some a → value y = some b → F.le x y = decide (a ≤ b)

/-- A query with this filter and no other. -/
def numericQuery (q : Query) (path text : String) (op : NumericOperator) : Query :=
  { q with
    keyFilter := "", valueFilter := ""
    jsonFilters := [{ path, operator := op.name, value := text }] }

section

variable {F : Floats} {value : F.Number → Option Int} {op : NumericOperator}

theorem matchRecord_numeric (record : Record) (q : Query) (path text : String) {v : Json}
    (hparse : Json.parse record.value.toList = some v) :
    (matchRecord F record (numericQuery q path text op)).1 =
      (decide (v.depth ≤ Json.maxNestingDepth) &&
        matchJSON F (jsonPath v path) { path, operator := op.name, value := text }) := by
  by_cases hdepth : v.depth ≤ Json.maxNestingDepth
  · have hread : Json.read record.value.toList = some v := by
      rw [Json.read, hparse, Option.filter_some, if_pos (decide_eq_true hdepth)]
    simp [matchRecord, numericQuery, hread, hdepth]
  · have hread : Json.read record.value.toList = none := by
      rw [Json.read, hparse, Option.filter_some, if_neg (by simpa using hdepth)]
    simp [matchRecord, numericQuery, hread, hdepth]

/-- The code compares the rounded integers. -/
theorem matchJSON_numeric (hF : Nearest F value) (n : Numeral) (path text : String) {a b : Int}
    (ha : parseSigned n.literal = some a) (hb : parseSigned text.toList = some b)
    (ha64 : Fits64 a) (hb64 : Fits64 b) :
    matchJSON F (some (.num n)) { path, operator := op.name, value := text } =
      op.holds (roundInt 53 a) (roundInt 53 b) := by
  obtain ⟨x, hx, hxv⟩ := hF.parse _ _ ha ha64
  obtain ⟨y, hy, hyv⟩ := hF.parse _ _ hb hb64
  have hnumbers : ∀ rel, numbers F rel n.literal text.toList = rel x y := by
    intro rel
    simp only [numbers, hx, hy]
  cases op with
  | eq => simp [matchJSON, NumericOperator.name, equalJSON, hnumbers, hF.eq x y _ _ hxv hyv,
      NumericOperator.holds, beq_eq_decide]
  | neq => simp [matchJSON, NumericOperator.name, equalJSON, hnumbers, hF.eq x y _ _ hxv hyv,
      NumericOperator.holds, bne, beq_eq_decide]
  | gt => simp [matchJSON, NumericOperator.name, compareJSON, hnumbers, hF.lt y x _ _ hyv hxv,
      NumericOperator.holds]
  | gte => simp [matchJSON, NumericOperator.name, compareJSON, hnumbers, hF.le y x _ _ hyv hxv,
      NumericOperator.holds]
  | lt => simp [matchJSON, NumericOperator.name, compareJSON, hnumbers, hF.lt x y _ _ hxv hyv,
      NumericOperator.holds]
  | lte => simp [matchJSON, NumericOperator.name, compareJSON, hnumbers, hF.le x y _ _ hxv hyv,
      NumericOperator.holds]

/-- A comparison of the rounded integers is one of the integers unless rounding
makes them equal and that does harm. -/
theorem holds_round (a b : Int) :
    (op.holds (roundInt 53 a) (roundInt 53 b) = true ↔ op.holds a b = true) ↔
      roundInt 53 a ≠ roundInt 53 b ∨ op.harmless a b = true := by
  have hle : a ≤ b → roundInt 53 a ≤ roundInt 53 b := roundInt_mono (by decide)
  have hge : b ≤ a → roundInt 53 b ≤ roundInt 53 a := roundInt_mono (by decide)
  have heq : a = b → roundInt 53 a = roundInt 53 b := fun h => by rw [h]
  generalize roundInt 53 a = x at *
  generalize roundInt 53 b = y at *
  cases op with
  | eq => simp only [NumericOperator.holds, NumericOperator.harmless, beq_iff_eq]; omega
  | neq => simp only [NumericOperator.holds, NumericOperator.harmless, bne_iff_ne, beq_iff_eq]; omega
  | gt => simp only [NumericOperator.holds, NumericOperator.harmless, decide_eq_true_eq]; omega
  | gte => simp only [NumericOperator.holds, NumericOperator.harmless, decide_eq_true_eq]; omega
  | lt => simp only [NumericOperator.holds, NumericOperator.harmless, decide_eq_true_eq]; omega
  | lte => simp only [NumericOperator.holds, NumericOperator.harmless, decide_eq_true_eq]; omega

/-- A record with an integer at the path is accepted as the comparison of the
exact integers says, if and only if they are rounded to different numbers or
taking them for equal does no harm; or, for a record that is nested too deep,
the comparison does not hold. -/
theorem numeric_filter (hF : Nearest F value) (op : NumericOperator) (record : Record) (q : Query)
    (path text : String) {v : Json} {n : Numeral} {a b : Int}
    (hparse : Json.parse record.value.toList = some v) (hpath : jsonPath v path = some (.num n))
    (ha : parseSigned n.literal = some a) (hb : parseSigned text.toList = some b)
    (ha64 : Fits64 a) (hb64 : Fits64 b) :
    ((matchRecord F record (numericQuery q path text op)).1 = true ↔ op.holds a b = true) ↔
      if v.depth ≤ Json.maxNestingDepth then
        roundInt 53 a ≠ roundInt 53 b ∨ op.harmless a b = true
      else op.holds a b = false := by
  rw [matchRecord_numeric record q path text hparse, hpath,
    matchJSON_numeric hF n path text ha hb ha64 hb64]
  split
  · next hdepth =>
      rw [decide_eq_true hdepth, Bool.true_and]
      exact holds_round a b
  · next hdepth =>
      rw [decide_eq_false hdepth, Bool.false_and]
      simp

end

/-- The numbers of 53 bits, of integers only. -/
def integerFloats : Floats where
  Number := Int
  parseFloat text := (parseSigned text).map (roundInt 53)
  eq a b := decide (a = b)
  lt a b := decide (a < b)
  le a b := decide (a ≤ b)

theorem integerFloats_nearest : Nearest integerFloats some where
  parse := fun text n hn _ => ⟨roundInt 53 n, by simp [integerFloats, hn], rfl⟩
  eq := fun x y a b hx hy => by
    obtain rfl := Option.some.inj hx
    obtain rfl := Option.some.inj hy
    rfl
  lt := fun x y a b hx hy => by
    obtain rfl := Option.some.inj hx
    obtain rfl := Option.some.inj hy
    rfl
  le := fun x y a b hx hy => by
    obtain rfl := Option.some.inj hx
    obtain rfl := Option.some.inj hy
    rfl

/-- A record with an id of 16 digits. -/
def idRecord : Record :=
  { topic := "t", partition := 0, offset := 0, timestamp := 0, key := ""
    value := "\x7b\"id\":9007199254740993\x7d", headers := [] }

def idNumeral : Numeral := .ofInt 9007199254740993

def idValue : Json := .obj [(['i', 'd'], .num idNumeral)]

def idQuery : Query :=
  { topic := "t", partition := -1, mode := "earliest", offset := 0, timestamp := 0, limit := 100
    scanLimit := 5000, keyFilter := "", keyOperator := "", valueFilter := "", valueOperator := ""
    jsonFilters := [] }

theorem idRecord_parse : Json.parse idRecord.value.toList = some idValue := by
  have hwritten : idRecord.value.toList = idValue.write := by decide +kernel
  rw [hwritten, Json.parse_write]

theorem idValue_depth : idValue.depth ≤ Json.maxNestingDepth := show 1 ≤ 10000 by decide

/-- Two more makes a difference. -/
theorem numeric_filter_less :
    (matchRecord integerFloats idRecord (numericQuery idQuery "id" "9007199254740995" .lt)).1 =
      true := by
  have h := numeric_filter integerFloats_nearest .lt idRecord idQuery "id" "9007199254740995"
    idRecord_parse rfl (parseSigned_formatInt 9007199254740993)
    (show parseSigned _ = some 9007199254740995 by decide +kernel) (by decide) (by decide)
  rw [if_pos idValue_depth] at h
  exact (h.2 (.inl (by decide +kernel))).2 (by decide)

/-- One less makes none. -/
theorem numeric_filter_equal :
    ¬ ∀ (F : Floats) (value : F.Number → Option Int), Nearest F value →
      ∀ (op : NumericOperator) (record : Record) (q : Query) (path text : String) (v : Json)
        (n : Numeral) (a b : Int), Json.parse record.value.toList = some v →
        jsonPath v path = some (.num n) → parseSigned n.literal = some a →
        parseSigned text.toList = some b → Fits64 a → Fits64 b →
        ((matchRecord F record (numericQuery q path text op)).1 = true ↔ op.holds a b = true) := by
  intro hall
  have ha := parseSigned_formatInt 9007199254740993
  have hb : parseSigned "9007199254740992".toList = some 9007199254740992 := by decide +kernel
  have h := hall integerFloats some integerFloats_nearest .eq idRecord idQuery "id"
    "9007199254740992" idValue idNumeral _ _ idRecord_parse rfl ha hb (by decide) (by decide)
  rw [matchRecord_numeric idRecord idQuery "id" _ idRecord_parse, decide_eq_true idValue_depth,
    show jsonPath idValue "id" = some (.num idNumeral) from rfl,
    matchJSON_numeric integerFloats_nearest idNumeral "id" _ ha hb (by decide) (by decide)] at h
  revert h
  decide +kernel

end KafkaManager.Message
