import KafkaManager.Kafka.Fetch
import KafkaManager.Proofs.Collector

/-!
# What `Fetch` scans

Polls may cut what a consumer delivers wherever they like: the collector gets
the records one after the other, and the loop comes to its end after as many
polls as there are records to scan. It ends before if a poll is empty. So a
result below both limits has all there is if no poll is empty too early.

A latest query begins as far before the end of each partition as it may scan in
all of them together. It scans the newest records if those it begins with are
the newest, and only then, for with more of them the order of delivery decides.
-/

namespace KafkaManager.Message

open Lib Kafka

/-! ## The collector in the loop -/

section

variable {F : Floats} {c : RecordCollector}

theorem feed_cons (r : Record) (records : List Record) :
    c.feed F (r :: records) = (c.add F r).2.feed F records := rfl

/-- A record is added to a collector that is not done. -/
theorem add_scanned (h : c.done = false) (r : Record) :
    (c.add F r).2.output.scanned = c.output.scanned + 1 ∧ (c.add F r).2.query = c.query := by
  have hnot : ¬ c.done = true := by simp [h]
  rw [RecordCollector.add, if_neg hnot]
  exact ⟨rfl, rfl⟩

theorem feed_le (records : List Record) :
    c.output.scanned ≤ (c.feed F records).output.scanned ∧
      (c.feed F records).query = c.query := by
  induction records generalizing c with
  | nil => exact ⟨Nat.le_refl _, rfl⟩
  | cons r records ih =>
      rw [feed_cons]
      obtain ⟨hle, hquery⟩ := ih (c := (c.add F r).2)
      cases hdone : c.done with
      | true =>
          rw [add_done hdone] at hle hquery ⊢
          exact ⟨hle, hquery⟩
      | false =>
          obtain ⟨hscanned, hsame⟩ := add_scanned (F := F) hdone r
          exact ⟨by omega, hquery.trans hsame⟩

theorem remainingScan_new {q : Query} (h : 0 ≤ q.scanLimit) :
    (newRecordCollector q).remainingScan.toNat = q.scanLimit.toNat := by
  have hscanned : ((newRecordCollector q).output.scanned : Int) = 0 := rfl
  have hquery : (newRecordCollector q).query = q := rfl
  rw [RecordCollector.remainingScan, hscanned, hquery]
  simp only [Int.sub_zero]
  rw [if_neg (by omega)]

/-- Of a batch at least one record is scanned. -/
theorem feed_progress (h : c.done = false) (records : List Record) (hne : records ≠ []) :
    (c.feed F records).remainingScan.toNat < c.remainingScan.toNat := by
  obtain ⟨r, rest, rfl⟩ := List.exists_cons_of_ne_nil hne
  obtain ⟨hscanned, hsame⟩ := add_scanned (F := F) h r
  obtain ⟨hle, hquery⟩ := feed_le (F := F) (c := (c.add F r).2) rest
  have hleft : (c.output.scanned : Int) < c.query.scanLimit := by
    rw [RecordCollector.done, Bool.or_eq_false_iff, decide_eq_false_iff_not] at h
    omega
  rw [feed_cons]
  simp only [RecordCollector.remainingScan, hquery, hsame]
  split
  · split
    · omega
    · omega
  · split
    · omega
    · omega

/-- While it is not done it scans everything. -/
theorem feed_all {records : List Record} (h : (c.feed F records).done = false) :
    (c.feed F records).output.scanned = c.output.scanned + records.length := by
  induction records generalizing c with
  | nil => rfl
  | cons r records ih =>
      cases hdone : c.done with
      | true =>
          rw [feed_done hdone, hdone] at h
          cases h
      | false =>
          rw [feed_cons] at h ⊢
          rw [ih h, (add_scanned hdone r).1, List.length_cons]
          omega

end

/-! ## The loop -/

section

variable {F : Floats} {σ : Type} {env : (c : FetchCall) → σ → c.Answer → σ → Prop}

/-- More fuel than there is left to scan changes nothing. -/
theorem fetchLoop_fuel {fuel fuel' : Nat} {c : RecordCollector}
    (h : c.remainingScan.toNat < fuel) (h' : c.remainingScan.toNat < fuel') :
    fetchLoop F fuel c = fetchLoop F fuel' c := by
  induction fuel generalizing fuel' c with
  | zero => omega
  | succ fuel ih =>
      cases fuel' with
      | zero => omega
      | succ fuel' =>
          rw [fetchLoop, fetchLoop]
          split
          · rfl
          · next hdone =>
              rw [Bool.not_eq_true] at hdone
              simp only [FetchCall.perform, Prog.call_bind]
              refine congrArg (Prog.cmd _) (funext fun poll => ?_)
              split
              · rfl
              · split
                · rfl
                · next hne =>
                    have hless := feed_progress (F := F) hdone poll.records
                      (by simpa using hne)
                    exact ih (by omega) (by omega)

/-- A run of the loop: what it has polled it has fed to the collector, in no
more polls than there was left to scan, and either the collector is done or the
last poll was empty. -/
theorem fetchLoop_runs (batches : σ → List (List Record)) {I E : σ → Prop}
    (hpoll : ∀ max s poll s', I s → env (.pollRecords max) s poll s' →
      batches s' = addBatch (batches s) poll.records ∧ I s' ∧ (poll.records = [] → E s'))
    {fuel : Nat} {c : RecordCollector} {s t : σ} {result : QueryResult}
    (hfuel : c.remainingScan.toNat < fuel) (hs : I s)
    (h : (fetchLoop F fuel c).Runs env s (.ok result) t) :
    ∃ bs, batches t = batches s ++ bs ∧ I t ∧ result = (c.feed F bs.flatten).result ∧
      bs.length ≤ c.remainingScan.toNat ∧ ((c.feed F bs.flatten).done = true ∨ E t) := by
  induction fuel generalizing c s with
  | zero => omega
  | succ fuel ih =>
      rw [fetchLoop] at h
      split at h
      · next hdone =>
          obtain ⟨hresult, rfl⟩ := h
          refine ⟨[], by simp, hs, ?_, by simp, .inl hdone⟩
          exact (Except.ok.inj hresult).symm
      · next hdone =>
          rw [Bool.not_eq_true] at hdone
          simp only [FetchCall.perform, Prog.call_bind, Prog.runs_cmd] at h
          obtain ⟨poll, s', henv, h⟩ := h
          obtain ⟨hbatches, hs', hempty⟩ := hpoll _ _ _ _ hs henv
          split at h
          · cases h.1
          · split at h
            · next hnone =>
                obtain ⟨hresult, rfl⟩ := h
                have hnil : poll.records = [] := List.isEmpty_iff.1 hnone
                refine ⟨[], ?_, hs', (Except.ok.inj hresult).symm, by simp, .inr (hempty hnil)⟩
                rw [hbatches, addBatch, if_pos hnone, List.append_nil]
            · next hsome =>
                have hless := feed_progress (F := F) hdone poll.records (by simpa using hsome)
                obtain ⟨bs, hbs, ht, hresult, hlength, hend⟩ := ih (by omega) hs' h
                have hfeed : c.feed F (poll.records :: bs).flatten =
                    (c.feed F poll.records).feed F bs.flatten := feed_append _ _
                refine ⟨poll.records :: bs, ?_, ht, ?_, ?_, ?_⟩
                · rw [hbs, hbatches, addBatch, if_neg hsome]
                  simp
                · rw [hfeed]
                  exact hresult
                · rw [List.length_cons]
                  omega
                · rw [hfeed]
                  exact hend

/-- A run of `Fetch` that has a result. -/
theorem fetch_runs {q : Query} {s t : σ} {result : QueryResult}
    (h : (fetch F q).Runs env s (.ok result) t) :
    ∃ partitions assignment s₁ s₂ s₃ s₄,
      (fetchPartitions q).Runs env s (.ok partitions) s₁ ∧
      (assign q partitions).Runs env s₁ (.ok assignment) s₂ ∧
      env (.newConsumer assignment) s₂ none s₃ ∧
      (fetchLoop F (q.scanLimit.toNat + 1) (newRecordCollector q)).Runs env s₃ (.ok result) s₄ ∧
      env .close s₄ () t := by
  obtain ⟨partitions, s₁, hpartitions, h⟩ := Prog.runs_bind.1 h
  cases partitions with
  | error e => cases h.1
  | ok partitions =>
      obtain ⟨assignment, s₂, hassign, h⟩ := Prog.runs_bind.1 h
      cases assignment with
      | error e => cases h.1
      | ok assignment =>
          simp only [FetchCall.perform, Prog.call_bind, Prog.runs_cmd] at h
          obtain ⟨failed, s₃, hconsumer, h⟩ := h
          cases failed with
          | some e => cases h.1
          | none =>
              obtain ⟨looped, s₄, hloop, h⟩ := Prog.runs_bind.1 h
              obtain ⟨closed, s₅, hclose, hresult, rfl⟩ := h
              rw [hresult] at hloop
              exact ⟨partitions, assignment, s₁, s₂, s₃, s₄, hpartitions, hassign, hconsumer, hloop,
                hclose⟩

end

/-- A consumer that delivers any records, as many as it is asked for. -/
def deliver : (c : FetchCall) → List (List Record) → c.Answer → List (List Record) → Prop
  | .pollRecords max, batches, poll, batches' =>
      poll.records.length ≤ max ∧ batches' = addBatch batches poll.records
  | .listTopics _, batches, _, batches' => batches' = batches
  | .listStartOffsets _, batches, _, batches' => batches' = batches
  | .listEndOffsets _, batches, _, batches' => batches' = batches
  | .listOffsetsAfterMilli .., batches, _, batches' => batches' = batches
  | .newConsumer _, batches, _, batches' => batches' = batches
  | .close, batches, _, batches' => batches' = batches

/-- A call that only lists. -/
def FetchCall.listing : FetchCall → Bool
  | .listTopics _ | .listStartOffsets _ | .listEndOffsets _ | .listOffsetsAfterMilli .. => true
  | .newConsumer _ | .pollRecords _ | .close => false

section

variable {σ : Type} {env : (c : FetchCall) → σ → c.Answer → σ → Prop} {q : Query}
  (hlisting : ∀ c s r s', c.listing = true → env c s r s' → s' = s)

include hlisting

theorem fetchPartitions_keeps {s t : σ} {a : Except FetchError (List Int)}
    (h : (fetchPartitions q).Runs env s a t) : t = s := by
  unfold fetchPartitions at h
  split at h
  · simp only [FetchCall.perform, Prog.call_bind, Prog.runs_cmd] at h
    obtain ⟨r, s', henv, h⟩ := h
    obtain rfl := hlisting _ _ _ _ rfl henv
    cases r with
    | error e => exact h.2.symm
    | ok partitions =>
        cases partitions with
        | none => exact h.2.symm
        | some ps => exact h.2.symm
  · exact h.2.symm

theorem resolveOffset_keeps {partition : Int} {s t : σ} {a : Except FetchError Int}
    (h : (resolveOffset q partition).Runs env s a t) : t = s := by
  unfold resolveOffset at h
  split at h
  · exact h.2.symm
  · split at h
    · obtain ⟨r, s', henv, -, rfl⟩ := h
      exact hlisting _ _ _ _ rfl henv
    · split at h
      · obtain ⟨r, s', henv, -, rfl⟩ := h
        exact hlisting _ _ _ _ rfl henv
      · split at h
        · obtain ⟨r, s', henv, -, rfl⟩ := h
          exact hlisting _ _ _ _ rfl henv
        · exact h.2.symm

/-- The assignment has every partition with its offset. -/
theorem assign_spec {partitions : List Int} {s t : σ} {assignment : List (Int × Int)}
    (h : (assign q partitions).Runs env s (.ok assignment) t) :
    t = s ∧ assignment.map Prod.fst = partitions ∧
      ∀ a ∈ assignment, (resolveOffset q a.1).Runs env s (.ok a.2) s := by
  induction partitions generalizing assignment with
  | nil =>
      obtain ⟨hok, rfl⟩ := h
      obtain rfl := Except.ok.inj hok
      exact ⟨rfl, rfl, by simp⟩
  | cons partition partitions ih =>
      obtain ⟨offset, s₁, hresolve, h⟩ := Prog.runs_bind.1 h
      obtain rfl := resolveOffset_keeps hlisting hresolve
      cases offset with
      | error e => cases h.1
      | ok offset =>
          obtain ⟨rest, s₂, hassign, h⟩ := Prog.runs_bind.1 h
          cases rest with
          | error e => cases h.1
          | ok rest =>
              obtain ⟨hok, rfl⟩ := h
              obtain rfl := Except.ok.inj hok
              obtain ⟨rfl, hpartitions, hoffsets⟩ := ih hassign
              refine ⟨rfl, by rw [List.map_cons, hpartitions], fun a ha => ?_⟩
              rcases List.mem_cons.1 ha with rfl | ha
              · exact hresolve
              · exact hoffsets a ha

end

theorem deliver_listing (c : FetchCall) (s : List (List Record)) (r : c.Answer)
    (s' : List (List Record)) (hc : c.listing = true) (h : deliver c s r s') : s' = s := by
  cases c with
  | listTopics topic => exact h
  | listStartOffsets topic => exact h
  | listEndOffsets topic => exact h
  | listOffsetsAfterMilli at' topic => exact h
  | newConsumer assignment => cases hc
  | pollRecords max => cases hc
  | close => cases hc

/-- For every query but a latest one with filters the collector takes the
shortest part of the records that is enough: fed with them one by one, cut into
batches, or by `Fetch`, which polls no more often than it may scan and then
ends. -/
theorem shortest_scanned (F : Floats) {q₀ q : Query} (hq : validateQuery q₀ = .ok q)
    (hkeeps : ¬ (q.mode = "latest" ∧ hasContentFilters q = true)) :
    (∀ batches : List (List Record),
      (batches.foldl (fun c records => c.feed F records) (newRecordCollector q)).result =
        firstMatches F q batches.flatten) ∧
    (∀ records : List Record,
      ((firstMatches F q records).matched : Int) ≤ q.limit ∧
      (firstMatches F q records).matched = (firstMatches F q records).items.length ∧
      (newRecordCollector q).feed F records =
        (newRecordCollector q).feed F (records.take (shortest F q records)) ∧
      ∀ i (hi : i < records.length),
        (((newRecordCollector q).feed F (records.take i)).add F records[i]).1 = false ↔
          enough F q (records.take (shortest F q records)) = true ∧
            shortest F q records ≤ i + 1) ∧
    (∀ fuel, q.scanLimit.toNat < fuel →
      fetchLoop F fuel (newRecordCollector q) =
        fetchLoop F (q.scanLimit.toNat + 1) (newRecordCollector q)) ∧
    ∀ result batches, (fetch F q).Runs deliver [] (.ok result) batches →
      result = firstMatches F q batches.flatten ∧ (batches.length : Int) ≤ q.scanLimit := by
  obtain ⟨hlimit, -, hscan, -⟩ := validateQuery_limits hq
  have hkeeps' : q.keepsNewest = false := by
    rw [Query.keepsNewest, Bool.and_eq_false_iff, beq_eq_false_iff_ne]
    by_cases hmode : q.mode = "latest"
    · exact .inr (Bool.not_eq_true _ ▸ fun h => hkeeps ⟨hmode, h⟩)
    · exact .inl hmode
  have hleft := remainingScan_new (q := q) (by omega)
  refine ⟨fun batches => ?_, fun records => ⟨?_, ?_, ?_, ?_⟩, fun fuel hfuel => ?_,
    fun result batches h => ?_⟩
  · have hflat : ∀ c : RecordCollector,
        batches.foldl (fun c records => c.feed F records) c = c.feed F batches.flatten := by
      induction batches with
      | nil => exact fun c => rfl
      | cons records batches ih =>
          intro c
          rw [List.foldl_cons, ih, List.flatten_cons, feed_append]
    rw [hflat]
    exact result_collected hkeeps' hscan
  · exact matched_le hlimit
  · unfold firstMatches
    dsimp only
    split
    · rw [(newestFirst_perm _).length_eq]
    · rfl
  · exact feed_collected hkeeps' hscan
  · exact fun i hi => add_stops hkeeps' hscan hi
  · exact fetchLoop_fuel (by omega) (by omega)
  · obtain ⟨partitions, assignment, s₁, s₂, s₃, s₄, hpartitions, hassign, hconsumer, hloop, hclose⟩ :=
      fetch_runs h
    obtain rfl := fetchPartitions_keeps deliver_listing hpartitions
    obtain ⟨rfl, -, -⟩ := assign_spec deliver_listing hassign
    obtain rfl : s₃ = [] := hconsumer
    obtain rfl : batches = s₄ := hclose
    obtain ⟨bs, hbs, -, hresult, hlength, -⟩ := fetchLoop_runs id
      (I := fun _ => True) (E := fun _ => True)
      (fun max s poll s' _ henv => ⟨henv.2, trivial, fun _ => trivial⟩) (by omega) trivial hloop
    obtain rfl : batches = bs := hbs
    refine ⟨?_, by omega⟩
    rw [hresult]
    exact result_collected hkeeps' hscan

/-- The first two of five records, by offset and without filters. -/
def offsetQuery : Query :=
  { matchQuery with mode := "offset", limit := 2, scanLimit := 2, keyFilter := "", keyOperator := "" }

theorem shortest_scanned_offset :
    validateQuery offsetQuery = .ok offsetQuery ∧
      ((newRecordCollector offsetQuery).feed noFloats fiveRecords).result =
        firstMatches noFloats offsetQuery fiveRecords := by
  have hq : validateQuery offsetQuery = .ok offsetQuery := by decide +kernel
  have hfed := (shortest_scanned noFloats hq (by decide +kernel)).1 [fiveRecords]
  exact ⟨hq, hfed⟩

end KafkaManager.Message
