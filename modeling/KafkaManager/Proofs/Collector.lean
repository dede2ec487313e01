import KafkaManager.Kafka.Filter
import KafkaManager.Lib.Sort
import Mathlib.Data.List.Induction

/-!
# What the collector collects

For a latest query with filters the collector is a buffer of the newest matches
among the records it scans, whatever their order: a full buffer gives up its
oldest record for a newer one. For every other query it takes what matches, and
the records it scans are the shortest part that reaches one of its two limits.
-/

namespace KafkaManager.Message

open Lib Kafka

/-! ## The order of the records -/

theorem recordNewer_false {a b : Record} : recordNewer a b = false ↔
    a.timestamp < b.timestamp ∨ a.timestamp = b.timestamp ∧
      (a.partition < b.partition ∨ a.partition = b.partition ∧ a.offset ≤ b.offset) := by
  unfold recordNewer
  split
  · rw [decide_eq_false_iff_not]
    omega
  · split
    · rw [decide_eq_false_iff_not]
      omega
    · rw [decide_eq_false_iff_not]
      omega

theorem recordNewer_trans (a b c : Record) (hab : recordNewer b a = false)
    (hbc : recordNewer c b = false) : recordNewer c a = false := by
  rw [recordNewer_false] at hab hbc ⊢
  omega

theorem recordNewer_total (a b : Record) : recordNewer a b = false ∨ recordNewer b a = false := by
  rw [recordNewer_false, recordNewer_false]
  omega

/-- Where a record is. -/
def Record.place (r : Record) : Int × Int := (r.partition, r.offset)

theorem recordNewer_anti {a b : Record} (hab : recordNewer b a = false)
    (hba : recordNewer a b = false) : a.place = b.place := by
  rw [recordNewer_false] at hab hba
  rw [Record.place, Record.place, Prod.mk.injEq]
  omega

/-- The records are in different places. -/
def Distinct (records : List Record) : Prop := (records.map Record.place).Nodup

theorem Distinct.anti {records : List Record} (h : Distinct records) :
    ∀ a ∈ records, ∀ b ∈ records, recordNewer b a = false → recordNewer a b = false → a = b :=
  fun _ ha _ hb hab hba => List.inj_on_of_nodup_map h ha hb (recordNewer_anti hab hba)

/-- Newest first (`sort.SliceStable`). -/
def newestFirst (records : List Record) : List Record :=
  records.mergeSort fun a b => !recordNewer b a

def recordSorter : Sorter recordNewer := .stable recordNewer recordNewer_trans recordNewer_total

theorem newestFirst_perm (records : List Record) : (newestFirst records).Perm records :=
  recordSorter.perm records

theorem newestFirst_ordered (records : List Record) :
    (newestFirst records).Pairwise fun a b => recordNewer b a = false :=
  recordSorter.ordered records

/-! ## The oldest of a buffer -/

theorem oldestFrom_spec (before rest : List Record) (oldest : Nat) (least : Record)
    (hfound : before[oldest]? = some least) (hleast : ∀ b ∈ before, recordNewer least b = false) :
    ∃ i r, oldestFrom before.length oldest least rest = (i, r) ∧
      (before ++ rest)[i]? = some r ∧ ∀ b ∈ before ++ rest, recordNewer r b = false := by
  induction rest generalizing before oldest least with
  | nil =>
      refine ⟨oldest, least, rfl, ?_, ?_⟩
      · rw [List.append_nil]
        exact hfound
      · rw [List.append_nil]
        exact hleast
  | cons r rest ih =>
      have hsplit : before ++ r :: rest = before ++ [r] ++ rest := by simp
      have hlength : before.length + 1 = (before ++ [r]).length := by simp
      rw [oldestFrom, hsplit, hlength]
      split
      · next hnewer =>
          refine ih _ _ _ (by simp) fun b hb => ?_
          rcases List.mem_append.1 hb with hb | hb
          · have hr : recordNewer r least = false := by
              rcases recordNewer_total least r with hfalse | hfalse
              · rw [hnewer] at hfalse
                cases hfalse
              · exact hfalse
            exact recordNewer_trans b least r (hleast b hb) hr
          · rw [List.mem_singleton.1 hb, recordNewer_false]
            omega
      · next hnot =>
          have hlt : oldest < before.length := (List.getElem?_eq_some_iff.1 hfound).1
          refine ih _ _ _ (by rw [List.getElem?_append_left hlt]; exact hfound) fun b hb => ?_
          rcases List.mem_append.1 hb with hb | hb
          · exact hleast b hb
          · rw [List.mem_singleton.1 hb]
            exact Bool.not_eq_true _ ▸ hnot

/-- A full buffer goes on keeping the newest. -/
theorem kept_replaceOldest {n : Nat} {all items : List Record} (h : Kept recordNewer n all items)
    (hpos : 0 < n) (hfull : n ≤ items.length) (record : Record) :
    Kept recordNewer n (all ++ [record]) (replaceOldest record items) := by
  cases items with
  | nil => exact absurd hfull (by simp; omega)
  | cons first rest =>
      have hfirst : ∀ b ∈ [first], recordNewer first b = false := by
        intro b hb
        rw [List.mem_singleton.1 hb, recordNewer_false]
        omega
      obtain ⟨i, last, hfind, hget, hlast⟩ := oldestFrom_spec [first] rest 0 first rfl hfirst
      have hreplace : replaceOldest record (first :: rest) =
          if recordNewer record last then (first :: rest).set i record else first :: rest := by
        rw [replaceOldest, show (1 : Nat) = [first].length from rfl, hfind]
      rw [hreplace]
      split
      · next hnewer =>
          obtain ⟨hi, hitem⟩ : ∃ hi : i < (first :: rest).length, (first :: rest)[i] = last :=
            List.getElem?_eq_some_iff.1 hget
          have hsplit : first :: rest =
              (first :: rest).take i ++ last :: (first :: rest).drop (i + 1) := by
            rw [← hitem, ← List.drop_eq_getElem_cons hi, List.take_append_drop]
          rw [List.set_eq_take_append_cons_drop, if_pos hi]
          rw [hsplit] at h hfull
          refine h.replace recordNewer_trans recordNewer_total hfull ?_ hnewer
          rw [← hsplit]
          exact hlast
      · next hnot =>
          exact h.skip recordNewer_trans hfull hlast (by simpa using hnot)

/-! ## Queries -/

/-- What is checked of a query that is accepted, and what becomes of it. -/
theorem validateQuery_ok {q₀ q : Query} (h : validateQuery q₀ = .ok q) :
    isBlank q₀.topic = false ∧ -1 ≤ q₀.partition ∧ q₀.checkMode = none ∧ q₀.scanLimit ≤ 50000 ∧
      q₀.jsonFilters.length ≤ 5 ∧ ∃ keyOperator valueOperator jsonFilters,
        checkTextOperator q₀.keyFilter q₀.keyOperator ["contains", "exact", "prefix"]
          .unsupportedKeyOperator = .ok keyOperator ∧
        checkTextOperator q₀.valueFilter q₀.valueOperator ["contains", "exact"]
          .unsupportedValueOperator = .ok valueOperator ∧
        q₀.jsonFilters.mapM JSONFilter.check = .ok jsonFilters ∧
        q = { q₀ with
          limit := clampLimit q₀.limit
          scanLimit :=
            if hasContentFilters q₀ then if q₀.scanLimit < 1 then 5000 else q₀.scanLimit
            else clampLimit q₀.limit
          keyOperator, valueOperator, jsonFilters } := by
  unfold validateQuery at h
  split at h
  · cases h
  · next htopic =>
      split at h
      · cases h
      · next hpartition =>
          split at h
          · cases h
          · next hmode =>
              split at h
              · cases h
              · next hscan =>
                  cases hkey : checkTextOperator q₀.keyFilter q₀.keyOperator
                      ["contains", "exact", "prefix"] .unsupportedKeyOperator with
                  | error e => simp [hkey, bind, Except.bind] at h
                  | ok keyOperator =>
                      cases hvalue : checkTextOperator q₀.valueFilter q₀.valueOperator
                          ["contains", "exact"] .unsupportedValueOperator with
                      | error e => simp [hkey, hvalue, bind, Except.bind] at h
                      | ok valueOperator =>
                          simp only [hkey, hvalue, bind, Except.bind] at h
                          split at h
                          · cases h
                          · next hlength =>
                              cases hfilters : q₀.jsonFilters.mapM JSONFilter.check with
                              | error e => simp [hfilters] at h
                              | ok jsonFilters =>
                                  simp only [hfilters] at h
                                  refine ⟨by simpa using htopic, by omega, hmode, by omega,
                                    by omega, keyOperator, valueOperator, jsonFilters, rfl, rfl,
                                    rfl, ?_⟩
                                  exact (Except.ok.inj h).symm

theorem length_mapM {α β ε : Type} {f : α → Except ε β} {xs : List α} {ys : List β}
    (h : xs.mapM f = .ok ys) : ys.length = xs.length := by
  induction xs generalizing ys with
  | nil =>
      obtain rfl := Except.ok.inj h
      rfl
  | cons x xs ih =>
      rw [List.mapM_cons] at h
      cases hx : f x with
      | error e => simp [hx, bind, Except.bind] at h
      | ok y =>
          cases hxs : xs.mapM f with
          | error e => simp [hx, hxs, bind, Except.bind] at h
          | ok zs =>
              simp only [hx, hxs, bind, Except.bind, pure, Except.pure] at h
              obtain rfl := Except.ok.inj h
              rw [List.length_cons, List.length_cons, ih hxs]

theorem clampLimit_range (limit : Int) : 1 ≤ clampLimit limit ∧ clampLimit limit ≤ 500 := by
  unfold clampLimit
  split
  · simp
  · simp only [gt_iff_lt]
    split
    · omega
    · omega

/-- Checking a query sets no filter. -/
theorem validateQuery_hasContentFilters {q₀ q : Query} (h : validateQuery q₀ = .ok q) :
    hasContentFilters q = hasContentFilters q₀ := by
  obtain ⟨-, -, -, -, -, keyOperator, valueOperator, jsonFilters, -, -, hfilters, rfl⟩ :=
    validateQuery_ok h
  have hsame : jsonFilters.isEmpty = q₀.jsonFilters.isEmpty := by
    have hlength := length_mapM hfilters
    cases jsonFilters with
    | nil => rw [List.eq_nil_of_length_eq_zero hlength.symm]
    | cons f fs =>
        cases hq : q₀.jsonFilters with
        | nil => simp [hq] at hlength
        | cons g gs => rfl
  rw [hasContentFilters, hasContentFilters, hsame]

/-- The limits of a query that has been checked. -/
theorem validateQuery_limits {q₀ q : Query} (h : validateQuery q₀ = .ok q) :
    1 ≤ q.limit ∧ q.limit ≤ 500 ∧ 1 ≤ q.scanLimit ∧ q.scanLimit ≤ 50000 ∧
      (hasContentFilters q = false → q.scanLimit = q.limit) := by
  have hsame := validateQuery_hasContentFilters h
  obtain ⟨-, -, -, hscan, -, keyOperator, valueOperator, jsonFilters, -, -, hfilters, rfl⟩ :=
    validateQuery_ok h
  obtain ⟨hleast, hmost⟩ := clampLimit_range q₀.limit
  refine ⟨hleast, hmost, ?_, ?_, fun hnone => ?_⟩
  · show 1 ≤ ite _ _ _
    split
    · split
      · omega
      · omega
    · exact hleast
  · show ite _ _ _ ≤ _
    split
    · split
      · omega
      · exact hscan
    · omega
  · show ite _ _ _ = _
    rw [← hsame, hnone]
    rfl

section

variable {F : Floats} {c : RecordCollector} {record : Record}

/-- The record is one that is looked for. -/
def matching (F : Floats) (q : Query) (r : Record) : Bool := (matchRecord F r q).1

/-- The record should be JSON and is not. -/
def invalidJSON (F : Floats) (q : Query) (r : Record) : Bool := (matchRecord F r q).2

theorem add_done (h : c.done = true) : c.add F record = (false, c) := by
  rw [RecordCollector.add, if_pos h]

theorem feed_done (h : c.done = true) (records : List Record) : c.feed F records = c := by
  induction records with
  | nil => rfl
  | cons r records ih =>
      rw [RecordCollector.feed, List.foldl_cons, add_done h]
      exact ih

theorem feed_append (records records' : List Record) :
    c.feed F (records ++ records') = (c.feed F records).feed F records' :=
  List.foldl_append

/-- A collector of a query that has scanned these records. -/
structure Scanned (F : Floats) (q : Query) (records : List Record) (c : RecordCollector) :
    Prop where
  query : c.query = q
  scanned : c.output.scanned = records.length
  matched : c.output.matched = (records.filter (matching F q)).length
  skipped : c.output.skippedInvalidJSON = records.countP (invalidJSON F q)

theorem scanned_new (q : Query) : Scanned F q [] (newRecordCollector q) := ⟨rfl, rfl, rfl, rfl⟩

/-- One more record is scanned. -/
theorem Scanned.add {q : Query} {records : List Record} (h : Scanned F q records c)
    (hdone : c.done = false) (r : Record) :
    Scanned F q (records ++ [r]) (c.add F r).2 ∧
      (c.add F r).2.output.items =
        (if matching F q r then c.keep r else c.output.items) ∧
      (c.add F r).1 = !(c.add F r).2.done := by
  obtain ⟨rfl, hscanned, hmatched, hskipped⟩ := h
  have hnot : ¬ c.done = true := by simp [hdone]
  rw [RecordCollector.add, if_neg hnot]
  refine ⟨⟨rfl, ?_, ?_, ?_⟩, rfl, rfl⟩
  · rw [List.length_append, List.length_singleton]
    exact congrArg (· + 1) hscanned
  · rw [List.filter_append, List.length_append]
    refine congrArg₂ (· + ·) hmatched ?_
    cases hmatch : matching F c.query r with
    | false => simp [hmatch, show (matchRecord F r c.query).1 = false from hmatch]
    | true => simp [hmatch, show (matchRecord F r c.query).1 = true from hmatch]
  · rw [List.countP_append, List.countP_singleton]
    exact congrArg₂ (· + ·) hskipped rfl

/-! ## The newest matches -/

theorem done_keepsNewest (h : c.query.keepsNewest = true) :
    c.done = decide (c.query.scanLimit ≤ c.output.scanned) := by
  simp [RecordCollector.done, h]

/-- What a collector of newest matches has of the records it has scanned. -/
theorem feed_keepsNewest {q : Query} (hnewest : q.keepsNewest = true) (hlimit : 1 ≤ q.limit)
    (hscan : 1 ≤ q.scanLimit) (records : List Record) :
    Scanned F q (records.take q.scanLimit.toNat) ((newRecordCollector q).feed F records) ∧
      Kept recordNewer q.limit.toNat
        ((records.take q.scanLimit.toNat).filter (matching F q))
        ((newRecordCollector q).feed F records).output.items := by
  induction records using List.reverseRecOn with
  | nil =>
      rw [List.take_nil]
      exact ⟨scanned_new q, kept_nil⟩
  | append_singleton records r ih =>
      obtain ⟨hscanned, hkept⟩ := ih
      obtain ⟨c, hc⟩ : ∃ c, c = (newRecordCollector q).feed F records := ⟨_, rfl⟩
      rw [← hc] at hscanned hkept
      have hfeed : (newRecordCollector q).feed F (records ++ [r]) = (c.add F r).2 := by
        rw [feed_append, ← hc]
        rfl
      have hnewest' : c.query.keepsNewest = true := by rw [hscanned.query, hnewest]
      have hdone := done_keepsNewest hnewest'
      rw [hfeed]
      cases hcase : c.done with
      | true =>
          rw [hdone, decide_eq_true_eq, hscanned.query, hscanned.scanned, List.length_take] at hcase
          have htake : (records ++ [r]).take q.scanLimit.toNat = records.take q.scanLimit.toNat :=
            List.take_append_of_le_length (by omega)
          rw [add_done (by rw [hdone, decide_eq_true_eq, hscanned.query, hscanned.scanned,
            List.length_take]; exact hcase), htake]
          exact ⟨hscanned, hkept⟩
      | false =>
          have hroom := hcase
          rw [hdone, decide_eq_false_iff_not, hscanned.query, hscanned.scanned,
            List.length_take] at hroom
          have htake : records.take q.scanLimit.toNat = records :=
            List.take_of_length_le (by omega)
          have htake' : (records ++ [r]).take q.scanLimit.toNat = records ++ [r] :=
            List.take_of_length_le (by
              rw [List.length_append, List.length_singleton]
              omega)
          rw [htake] at hscanned hkept
          rw [htake']
          obtain ⟨hscanned', hitems, -⟩ := hscanned.add hcase r
          refine ⟨hscanned', ?_⟩
          rw [hitems, List.filter_append]
          cases hmatch : matching F q r with
          | false => simpa [hmatch] using hkept
          | true =>
              have hsingle : [r].filter (matching F q) = [r] := by simp [hmatch]
              rw [hsingle, if_pos rfl, RecordCollector.keep, hnewest', hscanned.query]
              split
              · next hfull =>
                  exact kept_replaceOldest hkept (by omega) (by omega) r
              · next hfull =>
                  simp only [true_and, ge_iff_le, Int.not_le] at hfull
                  exact hkept.push (by omega) r

end

/-- The result of looking for the newest matches: of the first records, as many
as may be scanned, the newest that match. -/
def newestMatches (F : Floats) (q : Query) (records : List Record) : QueryResult :=
  let scanned := records.take q.scanLimit.toNat
  let found := scanned.filter (matching F q)
  { items := (newestFirst found).take q.limit.toNat
    scanned := scanned.length
    matched := found.length
    skippedInvalidJSON := scanned.countP (invalidJSON F q)
    resultLimited := decide (q.limit < found.length)
    scanLimited := decide (scanned.length = q.scanLimit) }

theorem Distinct.sublist {records records' : List Record} (h : Distinct records)
    (hsub : records'.Sublist records) : Distinct records' :=
  List.Nodup.sublist (hsub.map _) h

/-- Of records in different places the newest are one list. -/
theorem first_newest {records items : List Record} {n : Nat} (h : Distinct records)
    (hfirst : First recordNewer n records items) : items = (newestFirst records).take n :=
  hfirst.eq_take recordSorter (newestFirst_perm records) (newestFirst_ordered records) h.anti

theorem result_keepsNewest {F : Floats} {q : Query} (hmode : q.mode = "latest")
    (hfilters : hasContentFilters q = true) (hlimit : 1 ≤ q.limit) (hscan : 1 ≤ q.scanLimit)
    {records : List Record} (hdistinct : Distinct records) :
    ((newRecordCollector q).feed F records).result = newestMatches F q records := by
  have hnewest : q.keepsNewest = true := by simp [Query.keepsNewest, hmode, hfilters]
  obtain ⟨⟨hquery, hscanned, hmatched, hskipped⟩, hkept⟩ :=
    feed_keepsNewest (F := F) hnewest hlimit hscan records
  obtain ⟨c, hc⟩ : ∃ c, c = (newRecordCollector q).feed F records := ⟨_, rfl⟩
  rw [← hc] at hquery hscanned hmatched hskipped hkept ⊢
  have hdistinct' : Distinct ((records.take q.scanLimit.toNat).filter (matching F q)) :=
    hdistinct.sublist (List.filter_sublist.trans (List.take_sublist _ _))
  have hitems : newestFirst c.output.items =
      (newestFirst ((records.take q.scanLimit.toNat).filter (matching F q))).take q.limit.toNat :=
    first_newest hdistinct' (hkept.first (newestFirst_perm _) (newestFirst_ordered _))
  have hlength := hkept.1
  have hle : (records.take q.scanLimit.toNat).length ≤ q.scanLimit.toNat := List.length_take_le _ _
  simp only [RecordCollector.result, newestMatches, hquery, hmode, hfilters, if_true, hscanned,
    hmatched, hskipped, ← hitems, hlength, QueryResult.mk.injEq, true_and]
  refine ⟨rfl, ?_, ?_⟩
  · rw [decide_eq_decide]
    omega
  · rw [decide_eq_decide]
    omega

/-- For a latest query with filters the result is of the newest matches among
the records that are scanned, and does not depend on their order. -/
theorem latest_newest (F : Floats) {q₀ q : Query} (hq : validateQuery q₀ = .ok q)
    (hmode : q.mode = "latest") (hfilters : hasContentFilters q = true) {records : List Record}
    (hdistinct : Distinct records) :
    ((newRecordCollector q).feed F records).result = newestMatches F q records ∧
      ∀ scanned, scanned.Perm (records.take q.scanLimit.toNat) →
        ((newRecordCollector q).feed F (scanned ++ records.drop q.scanLimit.toNat)).result =
          ((newRecordCollector q).feed F records).result := by
  obtain ⟨hlimit, -, hscan, -⟩ := validateQuery_limits hq
  have hresult := result_keepsNewest (F := F) hmode hfilters hlimit hscan hdistinct
  refine ⟨hresult, fun scanned hperm => ?_⟩
  have hpermuted : (scanned ++ records.drop q.scanLimit.toNat).Perm records := by
    have happend := hperm.append_right (records.drop q.scanLimit.toNat)
    rw [List.take_append_drop] at happend
    exact happend
  have hdistinct' : Distinct (scanned ++ records.drop q.scanLimit.toNat) :=
    (hpermuted.map Record.place).nodup_iff.2 hdistinct
  have hresult' := result_keepsNewest (F := F) hmode hfilters hlimit hscan hdistinct'
  have htake : (scanned ++ records.drop q.scanLimit.toNat).take q.scanLimit.toNat = scanned := by
    have hlength := hperm.length_eq
    rw [List.length_take] at hlength
    rcases Nat.le_total q.scanLimit.toNat records.length with hle | hle
    · rw [List.take_append_of_le_length (by omega)]
      exact List.take_of_length_le (by omega)
    · rw [List.drop_of_length_le hle, List.append_nil]
      exact List.take_of_length_le (by omega)
  rw [hresult, hresult']
  have hfilter : (scanned.filter (matching F q)).Perm
      ((records.take q.scanLimit.toNat).filter (matching F q)) := hperm.filter _
  have hnewest : newestFirst (scanned.filter (matching F q)) =
      newestFirst ((records.take q.scanLimit.toNat).filter (matching F q)) := by
    have hd : Distinct ((records.take q.scanLimit.toNat).filter (matching F q)) :=
      hdistinct.sublist (List.filter_sublist.trans (List.take_sublist _ _))
    refine List.Perm.eq_of_pairwise (fun a b ha hb => ?_) (newestFirst_ordered _)
      (newestFirst_ordered _) (((newestFirst_perm _).trans hfilter).trans (newestFirst_perm _).symm)
    exact hd.anti a (hfilter.mem_iff.1 ((newestFirst_perm _).mem_iff.1 ha)) b
      ((newestFirst_perm _).mem_iff.1 hb)
  simp only [newestMatches, htake, hnewest, hperm.length_eq, hfilter.length_eq,
    hperm.countP_eq]

/-- Five records of one partition, of which four have the key. -/
def fiveRecords : List Record :=
  [("match-1", 1), ("no", 2), ("match-3", 3), ("match-4", 4), ("match-5", 5)].map fun (key, n) =>
    { topic := "orders", partition := 0, offset := n, timestamp := n * 1000, key := key
      value := "", headers := [] }

/-- A query for the two newest of them. -/
def matchQuery : Query where
  topic := "orders"
  partition := 0
  mode := "latest"
  offset := 0
  timestamp := 0
  limit := 2
  scanLimit := 5
  keyFilter := "match"
  keyOperator := "contains"
  valueFilter := ""
  valueOperator := ""
  jsonFilters := []

/-- Numbers are not looked at here. -/
def noFloats : Floats where
  Number := Unit
  parseFloat _ := none
  eq _ _ := true
  lt _ _ := false
  le _ _ := true

theorem latest_newest_match :
    validateQuery matchQuery = .ok matchQuery ∧
      ((newRecordCollector matchQuery).feed noFloats fiveRecords).result =
        newestMatches noFloats matchQuery fiveRecords := by
  have hq : validateQuery matchQuery = .ok matchQuery := by decide +kernel
  exact ⟨hq, (latest_newest noFloats hq rfl (by decide +kernel)
    (show List.Nodup _ by decide +kernel)).1⟩

/-! ## The shortest part that is enough -/

/-- The scan has come to its limit, or there are as many matches as there may
be. -/
def enough (F : Floats) (q : Query) (records : List Record) : Bool :=
  decide ((records.length : Int) = q.scanLimit) ||
    decide (q.limit ≤ records.countP (matching F q))

/-- The least number of records from the first on that are enough, or all. -/
def shortest (F : Floats) (q : Query) (records : List Record) : Nat :=
  ((List.range records.length).find? fun k => enough F q (records.take k)).getD records.length

theorem shortest_le (F : Floats) (q : Query) (records : List Record) :
    shortest F q records ≤ records.length := by
  unfold shortest
  cases hfind : (List.range records.length).find? fun k => enough F q (records.take k) with
  | none => exact Nat.le_refl _
  | some k =>
      have hmem := List.mem_of_find?_eq_some hfind
      exact Nat.le_of_lt (List.mem_range.1 hmem)

theorem shortest_before {F : Floats} {q : Query} {records : List Record} {j : Nat}
    (h : j < shortest F q records) : enough F q (records.take j) = false := by
  have hlt : j < records.length := Nat.lt_of_lt_of_le h (shortest_le F q records)
  unfold shortest at h
  cases hfind : (List.range records.length).find? fun k => enough F q (records.take k) with
  | none =>
      have hnone := List.find?_eq_none.1 hfind j (List.mem_range.2 hlt)
      simpa using hnone
  | some k =>
      rw [hfind, Option.getD_some] at h
      have hbefore := (List.find?_range_eq_some.1 hfind).2.2 j h
      simpa using hbefore

theorem shortest_stop {F : Floats} {q : Query} {records : List Record}
    (h : shortest F q records < records.length) :
    enough F q (records.take (shortest F q records)) = true := by
  unfold shortest at h ⊢
  cases hfind : (List.range records.length).find? fun k => enough F q (records.take k) with
  | none =>
      rw [hfind] at h
      exact absurd h (Nat.lt_irrefl _)
  | some k =>
      have hk := List.find?_some hfind
      exact hk

/-- The result of a query that is not for the newest matches. -/
def firstMatches (F : Floats) (q : Query) (records : List Record) : QueryResult :=
  let scanned := records.take (shortest F q records)
  let found := scanned.filter (matching F q)
  { items := if q.mode = "latest" then newestFirst found else found
    scanned := scanned.length
    matched := found.length
    skippedInvalidJSON := scanned.countP (invalidJSON F q)
    resultLimited := decide (q.limit ≤ found.length)
    scanLimited := decide (scanned.length = q.scanLimit) }

section

variable {F : Floats} {q : Query} {records : List Record}

/-- The collector has scanned these records, of which it has all that match. -/
def Collected (F : Floats) (q : Query) (records : List Record) (c : RecordCollector) : Prop :=
  Scanned F q records c ∧ c.output.items = records.filter (matching F q)

theorem Collected.done {c : RecordCollector} (h : Collected F q records c)
    (hkeeps : q.keepsNewest = false) (hscan : records.length ≤ q.scanLimit) :
    c.done = enough F q records := by
  obtain ⟨⟨hquery, hscanned, -, -⟩, hitems⟩ := h
  rw [RecordCollector.done, enough, hquery, hkeeps, hscanned, hitems, List.countP_eq_length_filter,
    Bool.not_false, Bool.true_and]
  congr 1
  rw [decide_eq_decide]
  omega

theorem collected_feed (records : List Record) (hkeeps : q.keepsNewest = false)
    (hscan : 1 ≤ q.scanLimit) (j : Nat) (hj : j ≤ shortest F q records) :
    (records.take j).length ≤ q.scanLimit ∧
      Collected F q (records.take j) ((newRecordCollector q).feed F (records.take j)) := by
  induction j with
  | zero => exact ⟨by simp; omega, scanned_new q, rfl⟩
  | succ j ih =>
      obtain ⟨hle, hcollected⟩ := ih (by omega)
      have hshort := shortest_le F q records
      have hnot := shortest_before (show j < shortest F q records by omega)
      have hlength : (records.take j).length = j := List.length_take_of_le (by omega)
      have hsplit : records.take (j + 1) = records.take j ++ [records[j]] :=
        List.take_succ_eq_append_getElem (by omega)
      have hdone := hcollected.done hkeeps hle
      rw [hnot] at hdone
      obtain ⟨hscanned, hitems, -⟩ := hcollected.1.add hdone records[j]
      rw [hsplit, feed_append]
      refine ⟨?_, hscanned, ?_⟩
      · have hne : ¬ ((records.take j).length : Int) = q.scanLimit := by
          intro heq
          rw [enough, decide_eq_true heq, Bool.true_or] at hnot
          cases hnot
        rw [List.length_append, List.length_singleton]
        omega
      · show ((newRecordCollector q).feed F (records.take j)).add F records[j] |>.2.output.items = _
        rw [hitems, RecordCollector.keep, hcollected.1.query, hkeeps, hcollected.2,
          List.filter_append]
        cases hmatch : matching F q records[j] with
        | false => simp [hmatch]
        | true => simp [hmatch]

/-- What is after the shortest part is not looked at. -/
theorem feed_shortest (hkeeps : q.keepsNewest = false) (hscan : 1 ≤ q.scanLimit) {j : Nat}
    (hj : shortest F q records ≤ j) (hlt : shortest F q records < records.length) :
    (newRecordCollector q).feed F (records.take j) =
        (newRecordCollector q).feed F (records.take (shortest F q records)) ∧
      ((newRecordCollector q).feed F (records.take j)).done = true := by
  obtain ⟨hle, hcollected⟩ := collected_feed (F := F) records hkeeps hscan _
    (Nat.le_refl _)
  have hdone := hcollected.done hkeeps hle
  rw [shortest_stop hlt] at hdone
  have hsplit : records.take j = records.take (shortest F q records) ++
      (records.take j).drop (shortest F q records) := by
    have hparts := (List.take_append_drop (shortest F q records) (records.take j)).symm
    rw [List.take_take, Nat.min_eq_left hj] at hparts
    exact hparts
  have hsame : (newRecordCollector q).feed F (records.take j) =
      (newRecordCollector q).feed F (records.take (shortest F q records)) := by
    rw [hsplit, feed_append, feed_done hdone]
  exact ⟨hsame, hsame ▸ hdone⟩

theorem feed_collected (hkeeps : q.keepsNewest = false) (hscan : 1 ≤ q.scanLimit) :
    (newRecordCollector q).feed F records =
      (newRecordCollector q).feed F (records.take (shortest F q records)) := by
  rcases Nat.lt_or_ge (shortest F q records) records.length with hlt | hge
  · have hsame := (feed_shortest hkeeps hscan (j := records.length)
      (shortest_le F q records) hlt).1
    rw [List.take_length] at hsame
    exact hsame
  · rw [List.take_of_length_le hge]

theorem result_collected (hkeeps : q.keepsNewest = false) (hscan : 1 ≤ q.scanLimit) :
    ((newRecordCollector q).feed F records).result = firstMatches F q records := by
  obtain ⟨hle, ⟨hquery, hscanned, hmatched, hskipped⟩, hitems⟩ :=
    collected_feed (F := F) records hkeeps hscan _ (Nat.le_refl _)
  rw [feed_collected hkeeps hscan]
  obtain ⟨c, hc⟩ : ∃ c, c = (newRecordCollector q).feed F
    (records.take (shortest F q records)) := ⟨_, rfl⟩
  rw [← hc] at hquery hscanned hmatched hskipped hitems ⊢
  have hlimit : decide (((records.take (shortest F q records)).length : Int) ≥ q.scanLimit) =
      decide (((records.take (shortest F q records)).length : Int) = q.scanLimit) := by
    rw [decide_eq_decide]
    omega
  by_cases hmode : q.mode = "latest"
  · have hfilters : hasContentFilters q = false := by
      simpa [Query.keepsNewest, hmode] using hkeeps
    simp only [RecordCollector.result, firstMatches, hquery, hmode, hfilters, if_true,
      Bool.false_eq_true, if_false, hlimit, hitems, hmatched, hskipped, hscanned]
    rfl
  · simp only [RecordCollector.result, firstMatches, hquery, hmode, if_false, hlimit, hitems,
      hmatched, hskipped, hscanned]

/-- There are no more matches than there may be. -/
theorem matched_le (hlimit : 1 ≤ q.limit) :
    (((records.take (shortest F q records)).filter (matching F q)).length : Int) ≤ q.limit := by
  rw [← List.countP_eq_length_filter]
  cases hk : shortest F q records with
  | zero => simp; omega
  | succ k =>
      have hle := shortest_le F q records
      have hnot := shortest_before (show k < shortest F q records by omega)
      rw [enough, Bool.or_eq_false_iff, decide_eq_false_iff_not, decide_eq_false_iff_not] at hnot
      have hsplit : records.take (k + 1) = records.take k ++ [records[k]] :=
        List.take_succ_eq_append_getElem (by omega)
      rw [hsplit, List.countP_append, List.countP_singleton]
      split
      · omega
      · omega

/-- `add` says no from the last record of a shortest part that is enough. -/
theorem add_stops (hkeeps : q.keepsNewest = false) (hscan : 1 ≤ q.scanLimit) {i : Nat}
    (hi : i < records.length) :
    (((newRecordCollector q).feed F (records.take i)).add F records[i]).1 = false ↔
      enough F q (records.take (shortest F q records)) = true ∧ shortest F q records ≤ i + 1 := by
  have hle := shortest_le F q records
  rcases Nat.lt_or_ge i (shortest F q records) with hlt | hge
  · obtain ⟨hlength, hcollected⟩ := collected_feed (F := F) records hkeeps hscan i
      (by omega)
    obtain ⟨hlength', hcollected'⟩ := collected_feed (F := F) records hkeeps hscan
      (i + 1) (by omega)
    have hdone := hcollected.done hkeeps hlength
    rw [shortest_before hlt] at hdone
    have hdone' := hcollected'.done hkeeps hlength'
    have hsplit : records.take (i + 1) = records.take i ++ [records[i]] :=
      List.take_succ_eq_append_getElem hi
    have hfeed : (newRecordCollector q).feed F (records.take (i + 1)) =
        (((newRecordCollector q).feed F (records.take i)).add F records[i]).2 := by
      rw [hsplit, feed_append]
      rfl
    rw [(hcollected.1.add hdone records[i]).2.2, ← hfeed, hdone', Bool.not_eq_false']
    rcases Nat.lt_or_ge (i + 1) (shortest F q records) with hlt' | hge'
    · rw [shortest_before hlt']
      constructor
      · intro h
        cases h
      · rintro ⟨-, h⟩
        omega
    · have heq : shortest F q records = i + 1 := by omega
      rw [heq]
      exact ⟨fun h => ⟨h, Nat.le_refl _⟩, fun h => h.1⟩
  · have hlt : shortest F q records < records.length := by omega
    obtain ⟨-, hdone⟩ := feed_shortest (F := F) hkeeps hscan hge hlt
    rw [add_done hdone]
    exact ⟨fun _ => ⟨shortest_stop hlt, by omega⟩, fun _ => rfl⟩

end

end KafkaManager.Message
