import KafkaManager.Api.Messages
import KafkaManager.Proofs.Collector

/-!
# The numbers of a query

A request for messages writes numbers in its URL. An accepted one is answered
for these numbers if and only if they are such, and fit: what is not a number is
taken for the fallback, and a partition is cut to 32 bits.
-/

namespace KafkaManager.Api

open Lib Message

/-- The parameters that are numbers. -/
inductive NumberParam
  | partition
  | offset
  | timestamp
  | limit
  | scanLimit

namespace NumberParam

def name : NumberParam → String
  | partition => "partition"
  | offset => "offset"
  | timestamp => "timestamp"
  | limit => "limit"
  | scanLimit => "scanLimit"

/-- The field has room for it. -/
def fits (n : Int) : NumberParam → Prop
  | partition => -2 ^ 31 ≤ n ∧ n < 2 ^ 31
  | _ => fits64 n = true

def field (q : Query) : NumberParam → Int
  | partition => q.partition
  | offset => q.offset
  | timestamp => q.timestamp
  | limit => q.limit
  | scanLimit => q.scanLimit

/-- What the field has to be where a number is written: that number, within the
bounds of the two limits. -/
def bounded (q : Query) (n : Int) : NumberParam → Int
  | limit => if n < 1 then 100 else if n > 500 then 500 else n
  | scanLimit => if hasContentFilters q then if n < 1 then 5000 else n else q.limit
  | _ => n

end NumberParam

/-- Something is written, and be it nothing that can be read. -/
def Present (raw : List Char) (p : NumberParam) (value : Option String) : Prop :=
  written raw p.name = some value ∧ ∀ s, value = some s → isBlank s = false

/-- What is written is this number, with a sign or without. -/
def Denotes (value : Option String) (n : Int) : Prop :=
  ∃ s, value = some s ∧ parseSigned (trimSpace s).toList = some n

/-- Every number that is written is one, and fits. -/
def WellWritten (raw : List Char) : Prop :=
  ∀ p value, Present raw p value → ∃ n, Denotes value n ∧ p.fits n

/-- Every number that is written is one, fits, and is in the query. -/
def Honoured (raw : List Char) (q : Query) : Prop :=
  ∀ p value, Present raw p value → ∃ n, Denotes value n ∧ p.fits n ∧ p.field q = p.bounded q n

theorem intQuery_denotes {params : Params} {name value : String} (hvalue : params name = value)
    {n : Int} (hn : parseSigned (trimSpace value).toList = some n) (hfits : fits64 n = true)
    (fallback : Int) : intQuery params name fallback = n := by
  have hne : trimSpace value ≠ "" := by
    intro hempty
    rw [hempty] at hn
    cases hn
  simp only [intQuery, hvalue, if_neg hne, parseInt, hn, Option.filter_some, hfits, if_true,
    Option.getD_some]

theorem NumberParam.fits64_of_fits {p : NumberParam} {n : Int} (h : p.fits n) :
    fits64 n = true := by
  cases p with
  | partition =>
      obtain ⟨hlow, hhigh⟩ := h
      simp only [fits64, decide_eq_true_eq]
      omega
  | offset => exact h
  | timestamp => exact h
  | limit => exact h
  | scanLimit => exact h

/-- Where the numbers of a query come from. -/
theorem messageQuery_fields {params : Params} {mode : String} {q : Query}
    (h : messageQuery params mode = .ok q) :
    q.partition = wrap32 (intQuery params "partition" (-1)) ∧
      q.offset = int64Query params "offset" 0 ∧ q.timestamp = int64Query params "timestamp" 0 ∧
      q.limit = intQuery params "limit" 100 ∧ q.scanLimit = intQuery params "scanLimit" 0 := by
  by_cases hraw : trimSpace (params "jsonFilters") = ""
  · simp only [messageQuery, if_pos hraw] at h
    obtain rfl := Except.ok.inj h
    simp only [and_self]
  · cases hfilters : JSONFilter.ofText (trimSpace (params "jsonFilters")) with
    | none =>
        simp only [messageQuery, if_neg hraw, hfilters] at h
        cases h
    | some jsonFilters =>
        simp only [messageQuery, if_neg hraw, hfilters] at h
        obtain rfl := Except.ok.inj h
        simp only [and_self]

/-- What becomes of them. -/
theorem validateQuery_fields {q₀ q : Query} (h : validateQuery q₀ = .ok q) :
    q.partition = q₀.partition ∧ q.offset = q₀.offset ∧ q.timestamp = q₀.timestamp ∧
      q.limit = clampLimit q₀.limit ∧
      q.scanLimit = NumberParam.scanLimit.bounded q q₀.scanLimit := by
  have hsame := validateQuery_hasContentFilters h
  obtain ⟨-, -, -, -, -, keyOperator, valueOperator, jsonFilters, -, -, -, rfl⟩ :=
    validateQuery_ok h
  refine ⟨rfl, rfl, rfl, rfl, ?_⟩
  rw [NumberParam.bounded, hsame]

/-- What is written and fits is in the query. -/
theorem field_of_denotes {raw : List Char} {mode : String} {q₀ q : Query}
    (hread : messageQuery (getQuery raw) mode = .ok q₀) (hvalid : validateQuery q₀ = .ok q)
    {p : NumberParam} {value : String} (hvalue : written raw p.name = some (some value)) {n : Int}
    (hn : parseSigned (trimSpace value).toList = some n) (hfits : p.fits n) :
    p.field q = p.bounded q n := by
  obtain ⟨hpartition₀, hoffset₀, htimestamp₀, hlimit₀, hscan₀⟩ := messageQuery_fields hread
  obtain ⟨hpartition, hoffset, htimestamp, hlimit, hscan⟩ := validateQuery_fields hvalid
  have hgets : ∀ fallback, intQuery (getQuery raw) p.name fallback = n :=
    intQuery_denotes (getQuery_written hvalue) hn (NumberParam.fits64_of_fits hfits)
  cases p with
  | partition =>
      obtain ⟨hlow, hhigh⟩ := hfits
      exact (hpartition.trans hpartition₀).trans
        ((congrArg wrap32 (hgets (-1))).trans (wrap32_fits hlow hhigh))
  | offset => exact (hoffset.trans hoffset₀).trans (hgets 0)
  | timestamp => exact (htimestamp.trans htimestamp₀).trans (hgets 0)
  | limit =>
      rw [NumberParam.field, hlimit, hlimit₀, show intQuery _ "limit" 100 = n from hgets 100,
        clampLimit, NumberParam.bounded]
      split
      · rfl
      · rfl
  | scanLimit =>
      exact hscan.trans (congrArg (NumberParam.scanLimit.bounded q) (hscan₀.trans (hgets 0)))

/-- An accepted request is answered for what it writes if and only if every
number it writes is one and fits its field. -/
theorem accepted_honoured {raw : List Char} {mode : String} {q₀ q : Query}
    (hread : messageQuery (getQuery raw) mode = .ok q₀) (hvalid : validateQuery q₀ = .ok q) :
    Honoured raw q ↔ WellWritten raw := by
  constructor
  · intro h p value hpresent
    obtain ⟨n, hdenotes, hfits, -⟩ := h p value hpresent
    exact ⟨n, hdenotes, hfits⟩
  · intro h p value hpresent
    obtain ⟨n, ⟨s, rfl, hn⟩, hfits⟩ := h p value hpresent
    exact ⟨n, ⟨s, rfl, hn⟩, hfits, field_of_denotes hread hvalid hpresent.1 hn hfits⟩

/-- A URL that writes no number but a partition. -/
def partitionURL (partition : String) : List Char :=
  "topic=orders&mode=earliest&partition=".toList ++ partition.toList

/-- The query it makes. -/
def partitionQuery (partition scanLimit : Int) : Query where
  topic := "orders"
  partition := partition
  mode := "earliest"
  offset := 0
  timestamp := 0
  limit := 100
  scanLimit := scanLimit
  keyFilter := ""
  keyOperator := ""
  valueFilter := ""
  valueOperator := ""
  jsonFilters := []

theorem partition_honoured :
    messageQuery (getQuery (partitionURL "2")) "" = .ok (partitionQuery 2 0) ∧
      validateQuery (partitionQuery 2 0) = .ok (partitionQuery 2 100) ∧
      (Honoured (partitionURL "2") (partitionQuery 2 100) ↔ WellWritten (partitionURL "2")) := by
  have hread : messageQuery (getQuery (partitionURL "2")) "" = .ok (partitionQuery 2 0) := by
    decide +kernel
  have hvalid : validateQuery (partitionQuery 2 0) = .ok (partitionQuery 2 100) := by
    decide +kernel
  exact ⟨hread, hvalid, accepted_honoured hread hvalid⟩

/-- A partition of 2^32 is accepted and becomes partition 0. -/
theorem partition_misread :
    messageQuery (getQuery (partitionURL "4294967296")) "" = .ok (partitionQuery 0 0) ∧
      validateQuery (partitionQuery 0 0) = .ok (partitionQuery 0 100) ∧
      ¬ Honoured (partitionURL "4294967296") (partitionQuery 0 100) := by
  refine ⟨by decide +kernel, by decide +kernel, fun h => ?_⟩
  have hwritten : written (partitionURL "4294967296") "partition" = some (some "4294967296") := by
    decide +kernel
  have hpresent : Present (partitionURL "4294967296") .partition (some "4294967296") := by
    refine ⟨hwritten, fun s hs => ?_⟩
    rw [← Option.some.inj hs]
    decide +kernel
  obtain ⟨n, ⟨s, hs, hn⟩, -, hfield⟩ := h .partition _ hpresent
  rw [← Option.some.inj hs] at hn
  obtain rfl : n = 0 := hfield.symm
  exact absurd hn (by decide +kernel)

end KafkaManager.Api
