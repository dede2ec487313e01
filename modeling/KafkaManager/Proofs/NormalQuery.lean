import KafkaManager.Kafka.Stream
import KafkaManager.Lib.Trim
import KafkaManager.Proofs.Collector

/-!
# What a checked query looks like

`validateQuery` brings a query into a form that it leaves alone. A stream checks
its query a second time, with another limit, and the limits are all that changes:
a record is held against the same filters.

The second check writes into the array that holds the filters of the first. It
writes what is there.
-/

namespace KafkaManager.Message

open Lib Kafka

variable {q₀ q : Query}

/-! ## The array of the filters -/

/-- The loop accepts what the filters are checked for one by one. -/
theorem mapM_check (filters : List JSONFilter) :
    filters.mapM JSONFilter.check =
      match rewriteFilters filters with
      | (none, fs) => .ok fs
      | (some e, _) => .error e := by
  induction filters with
  | nil => rfl
  | cons f rest ih =>
      rw [List.mapM_cons, ih, JSONFilter.check, checkOperator, rewriteFilters]
      dsimp only
      by_cases hpath : trimSpace f.path = ""
      · rw [if_pos hpath, if_pos hpath]
        rfl
      · rw [if_neg hpath, if_neg hpath]
        by_cases hoperator : (if f.operator = "" then "eq" else f.operator) ∈ jsonOperators
        · rw [if_pos hoperator, if_pos hoperator]
          cases rewriteFilters rest with
          | mk e fs => cases e <;> rfl
        · rw [if_neg hoperator, if_neg hoperator]
          rfl

theorem rewriteFilters_ok {filters fs : List JSONFilter}
    (h : filters.mapM JSONFilter.check = .ok fs) : rewriteFilters filters = (none, fs) := by
  rw [mapM_check] at h
  cases hloop : rewriteFilters filters with
  | mk e array =>
      rw [hloop] at h
      cases e with
      | none =>
          cases h
          rfl
      | some e => cases h

theorem hasContentFilters_rewritten {fs : List JSONFilter} (q : Query)
    (hlength : fs.length = q.jsonFilters.length) (limit scanLimit : Int)
    (keyOperator valueOperator : String) :
    hasContentFilters { q with limit, scanLimit, keyOperator, valueOperator, jsonFilters := fs } =
      hasContentFilters q := by
  have hempty : fs.isEmpty = q.jsonFilters.isEmpty := by
    rw [Bool.eq_iff_iff, List.isEmpty_iff_length_eq_zero, List.isEmpty_iff_length_eq_zero, hlength]
  show (_ || !fs.isEmpty) = _
  rw [hempty]
  rfl

/-- With the array it is the same function. -/
theorem validateInPlace_fst (q : Query) : (validateInPlace q).1 = validateQuery q := by
  unfold validateInPlace validateQuery
  split
  · rfl
  · split
    · rfl
    · cases q.checkMode with
      | some e => rfl
      | none =>
          dsimp only
          split
          · rfl
          · cases checkTextOperator q.keyFilter q.keyOperator ["contains", "exact", "prefix"]
                .unsupportedKeyOperator with
            | error e => rfl
            | ok keyOperator =>
                cases checkTextOperator q.valueFilter q.valueOperator ["contains", "exact"]
                    .unsupportedValueOperator with
                | error e => rfl
                | ok valueOperator =>
                    dsimp only [bind, Except.bind]
                    split
                    · rfl
                    · cases hchecked : q.jsonFilters.mapM JSONFilter.check with
                      | error e =>
                          rw [mapM_check] at hchecked
                          cases hloop : rewriteFilters q.jsonFilters with
                          | mk e' fs =>
                              rw [hloop] at hchecked
                              cases e' with
                              | none => cases hchecked
                              | some e' => cases hchecked; rfl
                      | ok fs =>
                          rw [rewriteFilters_ok hchecked]
                          dsimp only
                          have hsame := hasContentFilters_rewritten q (length_mapM hchecked)
                            (clampLimit q.limit) q.scanLimit keyOperator valueOperator
                          rw [hsame]

/-- A query that is accepted shares its filters with the one that was checked. -/
theorem validateInPlace_ok (h : validateQuery q₀ = .ok q) :
    validateInPlace q₀ = (.ok q, q.jsonFilters) := by
  have hfst := validateInPlace_fst q₀
  obtain ⟨htopic, hpartition, hmode, hscan, hlength, keyOperator, valueOperator, fs, hkey, hvalue,
    hfs, rfl⟩ := validateQuery_ok h
  refine Prod.ext (hfst.trans h) ?_
  unfold validateInPlace
  rw [if_neg (by simp [htopic]), if_neg (Int.not_lt.2 hpartition), hmode]
  dsimp only
  rw [if_neg (Int.not_lt.2 hscan), hkey]
  dsimp only
  rw [hvalue]
  dsimp only
  rw [if_neg (Nat.not_lt.2 hlength), rewriteFilters_ok hfs]

/-! ## The form -/

/-- A filter on a path, as it is after the check. -/
structure NormalFilter (f : JSONFilter) : Prop where
  trimmed : trimSpace f.path = f.path
  path : f.path ≠ ""
  operator : f.operator ∈ jsonOperators

/-- A query after the check. -/
structure NormalQuery (q : Query) : Prop where
  limit : 1 ≤ q.limit ∧ q.limit ≤ 500
  scanLimit : 1 ≤ q.scanLimit ∧ q.scanLimit ≤ 50000
  keyOperator : q.keyFilter ≠ "" → q.keyOperator ∈ ["contains", "exact", "prefix"]
  valueOperator : q.valueFilter ≠ "" → q.valueOperator ∈ ["contains", "exact"]
  jsonFilters : ∀ f ∈ q.jsonFilters, NormalFilter f

theorem checkOperator_mem {operator fallback operator' : String} {allowed : List String}
    {e : String → QueryError} (h : checkOperator operator fallback allowed e = .ok operator') :
    operator' ∈ allowed := by
  by_cases hmem : (if operator = "" then fallback else operator) ∈ allowed
  · rw [checkOperator, if_pos hmem] at h
    cases h
    exact hmem
  · rw [checkOperator, if_neg hmem] at h
    cases h

/-- An operator that is one of these is left as it is. -/
theorem checkOperator_of_mem {operator fallback : String} {allowed : List String}
    {e : String → QueryError} (hempty : "" ∉ allowed) (h : operator ∈ allowed) :
    checkOperator operator fallback allowed e = .ok operator := by
  have hset : operator ≠ "" := fun heq => hempty (heq ▸ h)
  unfold checkOperator
  rw [if_neg hset, if_pos h]

theorem checkTextOperator_mem {filter operator operator' : String} {allowed : List String}
    {e : String → QueryError} (h : checkTextOperator filter operator allowed e = .ok operator')
    (hset : filter ≠ "") : operator' ∈ allowed := by
  rw [checkTextOperator, if_neg hset] at h
  exact checkOperator_mem h

theorem checkTextOperator_of_mem {filter operator : String} {allowed : List String}
    {e : String → QueryError} (hempty : "" ∉ allowed) (h : filter ≠ "" → operator ∈ allowed) :
    checkTextOperator filter operator allowed e = .ok operator := by
  unfold checkTextOperator
  split
  · rfl
  · next hset => exact checkOperator_of_mem hempty (h hset)

theorem trimSpace_trimSpace (s : String) : trimSpace (trimSpace s) = trimSpace s := by
  have htrim (s : String) : trimSpace s = String.ofList (trim isSpace s.toList) := rfl
  rw [htrim, htrim, String.toList_ofList, trim_trim]

theorem JSONFilter.check_normal {f f' : JSONFilter} (h : f.check = .ok f') : NormalFilter f' := by
  unfold JSONFilter.check at h
  dsimp only at h
  split at h
  · cases h
  · next hpath =>
      cases hoperator : checkOperator f.operator "eq" jsonOperators .unsupportedJSONOperator with
      | error e =>
          rw [hoperator] at h
          cases h
      | ok operator =>
          rw [hoperator] at h
          cases h
          exact
            { trimmed := trimSpace_trimSpace f.path
              path := hpath
              operator := checkOperator_mem hoperator }

theorem NormalFilter.check {f : JSONFilter} (h : NormalFilter f) : f.check = .ok f := by
  unfold JSONFilter.check
  rw [h.trimmed, if_neg h.path, checkOperator_of_mem (by decide) h.operator]
  rfl

theorem mapM_normal {filters fs : List JSONFilter}
    (h : filters.mapM JSONFilter.check = .ok fs) : ∀ f ∈ fs, NormalFilter f := by
  induction filters generalizing fs with
  | nil =>
      cases h
      exact fun f hf => absurd hf (List.not_mem_nil)
  | cons f rest ih =>
      rw [List.mapM_cons] at h
      cases hf : f.check with
      | error e =>
          rw [hf] at h
          cases h
      | ok f' =>
          rw [hf] at h
          cases hrest : rest.mapM JSONFilter.check with
          | error e =>
              rw [hrest] at h
              cases h
          | ok fs' =>
              rw [hrest] at h
              cases h
              exact List.forall_mem_cons.2 ⟨JSONFilter.check_normal hf, ih hrest⟩

theorem mapM_of_normal {fs : List JSONFilter} (h : ∀ f ∈ fs, NormalFilter f) :
    fs.mapM JSONFilter.check = .ok fs := by
  induction fs with
  | nil => rfl
  | cons f rest ih =>
      obtain ⟨hf, hrest⟩ := List.forall_mem_cons.1 h
      rw [List.mapM_cons, hf.check, ih hrest]
      rfl

theorem validateQuery_normal (h : validateQuery q₀ = .ok q) : NormalQuery q := by
  obtain ⟨hleast, hmost, hscan, hscanned, -⟩ := validateQuery_limits h
  obtain ⟨-, -, -, -, -, keyOperator, valueOperator, jsonFilters, hkey, hvalue, hfilters, rfl⟩ :=
    validateQuery_ok h
  exact
    { limit := ⟨hleast, hmost⟩
      scanLimit := ⟨hscan, hscanned⟩
      keyOperator := checkTextOperator_mem hkey
      valueOperator := checkTextOperator_mem hvalue
      jsonFilters := mapM_normal hfilters }

/-! ## The second check -/

theorem clampLimit_of_range {limit : Int} (hleast : 1 ≤ limit) (hmost : limit ≤ 500) :
    clampLimit limit = limit := by
  unfold clampLimit
  rw [if_neg (by omega), if_neg (by omega)]

/-- A checked query with another limit is accepted, and the limits are all that
changes. -/
theorem validateQuery_again (h : validateQuery q₀ = .ok q) (limit : Int) :
    validateQuery { q with limit } =
      .ok { q with
        limit := clampLimit limit
        scanLimit := if hasContentFilters q then q.scanLimit else clampLimit limit } := by
  have hnormal := validateQuery_normal h
  obtain ⟨htopic, hpartition, hmode, -, hlength, keyOperator, valueOperator, fs, -, -, hfs, heq⟩ :=
    validateQuery_ok h
  have htopic' : isBlank q.topic = false := heq ▸ htopic
  have hpartition' : -1 ≤ q.partition := heq ▸ hpartition
  have hmode' : ({ q with limit } : Query).checkMode = none := heq ▸ hmode
  have hlength' : q.jsonFilters.length ≤ 5 := by
    have hfs' : q.jsonFilters = fs := congrArg Query.jsonFilters heq
    rw [hfs', length_mapM hfs]
    exact hlength
  have hscan : ¬q.scanLimit < 1 := Int.not_lt.2 hnormal.scanLimit.1
  unfold validateQuery
  rw [if_neg (by simp [htopic']), if_neg (by show ¬q.partition < -1; omega), hmode']
  dsimp only
  rw [if_neg (Int.not_lt.2 hnormal.scanLimit.2),
    checkTextOperator_of_mem (by decide) hnormal.keyOperator,
    checkTextOperator_of_mem (by decide) hnormal.valueOperator]
  dsimp only [bind, Except.bind]
  rw [if_neg (Nat.not_lt.2 hlength'), mapM_of_normal hnormal.jsonFilters]
  dsimp only
  rw [if_neg hscan]
  rfl

theorem validateQuery_fixed (h : validateQuery q₀ = .ok q) : validateQuery q = .ok q := by
  have hagain := validateQuery_again h q.limit
  have hclamp := clampLimit_of_range (validateQuery_normal h).limit.1 (validateQuery_normal h).limit.2
  obtain ⟨-, -, -, -, hsame⟩ := validateQuery_limits h
  have hscan : (if hasContentFilters q then q.scanLimit else q.limit) = q.scanLimit := by
    split
    · rfl
    · next hnone => exact (hsame (Bool.not_eq_true _ ▸ hnone)).symm
  rw [hclamp, hscan] at hagain
  exact hagain

theorem streamMessages_ok (F : Floats) (h : validateQuery q₀ = .ok q) (records : List Record) :
    streamMessages F q₀ records = .ok (records.filter fun record => (matchRecord F record q).1) := by
  have hagain := validateQuery_again h 500
  unfold streamMessages
  rw [h]
  dsimp only [bind, Except.bind]
  unfold stream
  rw [hagain]
  rfl

/-- A query that is accepted comes out in a form that the check accepts and
leaves alone. The second check of a stream accepts it too, writes nothing new
into the filters that it shares, and every record is decided alike. -/
theorem checked_query (h : validateQuery q₀ = .ok q) :
    validateQuery q = .ok q ∧ NormalQuery q ∧
      validateInPlace q₀ = (.ok q, q.jsonFilters) ∧
      (∃ q', validateInPlace { q with limit := 500 } = (.ok q', q.jsonFilters) ∧
        ∀ (F : Floats) (record : Record), matchRecord F record q' = matchRecord F record q) ∧
      ∀ (F : Floats) (records : List Record),
        streamMessages F q₀ records =
          .ok (records.filter fun record => (matchRecord F record q).1) := by
  have hagain := validateInPlace_ok (validateQuery_again h 500)
  exact ⟨validateQuery_fixed h, validateQuery_normal h, validateInPlace_ok h,
    ⟨_, hagain, fun F record => rfl⟩, fun F records => streamMessages_ok F h records⟩

/-- A filter with blanks around its path and without an operator. -/
def blankQuery : Query where
  topic := "orders"
  partition := -1
  mode := "live"
  offset := 0
  timestamp := 0
  limit := 0
  scanLimit := 0
  keyFilter := "k"
  keyOperator := ""
  valueFilter := ""
  valueOperator := "prefix"
  jsonFilters := [{ path := " id ", operator := "", value := "7" }]

def blankQueryChecked : Query :=
  { blankQuery with
    limit := 100
    scanLimit := 5000
    keyOperator := "contains"
    jsonFilters := [{ path := "id", operator := "eq", value := "7" }] }

theorem checked_query_blank :
    validateQuery blankQuery = .ok blankQueryChecked ∧
      validateQuery blankQueryChecked = .ok blankQueryChecked := by
  have h : validateQuery blankQuery = .ok blankQueryChecked := by decide +kernel
  exact ⟨h, (checked_query h).1⟩


end KafkaManager.Message
