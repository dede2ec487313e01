import KafkaManager.Proofs.Fetch

/-!
# Whether `Fetch` scans all there is

What has been polled and what is unread is what the consumer began with. So a
result below its limits has it all, unless the last poll was empty too early:
that the deadline of a poll has passed ends the loop without an error.
-/

namespace KafkaManager.Message

open Lib Kafka

/-! ## What a consumer delivers -/

section

variable {unread unread' unread'' : List (List Record)} {records records' : List Record}

theorem Takes.perm (h : Takes unread records unread') :
    unread.flatten.Perm (records ++ unread'.flatten) := by
  induction h with
  | nil unread => exact List.Perm.refl _
  | @cons before after unread' r rest records h ih =>
      have hmiddle : (before ++ (r :: rest) :: after).flatten.Perm
          (r :: (before ++ rest :: after).flatten) := by
        simp only [List.flatten_append, List.flatten_cons, List.cons_append]
        exact List.perm_middle
      exact hmiddle.trans (ih.cons r)

theorem Takes.trans (h : Takes unread records unread') (h' : Takes unread' records' unread'') :
    Takes unread (records ++ records') unread'' := by
  induction h with
  | nil unread => exact h'
  | cons h ih => exact .cons (ih h')

theorem Takes.of_nil (h : Takes unread [] unread') : unread' = unread := by
  cases h
  rfl

/-- A part of a delivery is one. -/
theorem Takes.take (h : Takes unread records unread') (n : Nat) :
    ∃ unread'', Takes unread (records.take n) unread'' := by
  induction h generalizing n with
  | nil unread =>
      rw [List.take_nil]
      exact ⟨unread, .nil unread⟩
  | cons h ih =>
      cases n with
      | zero => exact ⟨_, .nil _⟩
      | succ n =>
          obtain ⟨unread'', htakes⟩ := ih n
          exact ⟨unread'', .cons htakes⟩

/-- One partition may be delivered on its own. -/
theorem takes_one (before after : List (List Record)) (records : List Record) :
    Takes (before ++ records :: after) records (before ++ [] :: after) := by
  induction records with
  | nil => exact .nil _
  | cons r records ih => exact .cons ih

/-- All of them may be. -/
theorem takes_all (before after : List (List Record)) :
    ∃ unread, Takes (before ++ after) after.flatten (before ++ unread) ∧ ∀ l ∈ unread, l = [] := by
  induction after generalizing before with
  | nil => exact ⟨[], .nil _, by simp⟩
  | cons records after ih =>
      obtain ⟨unread, htakes, hempty⟩ := ih (before ++ [[]])
      have hfirst := takes_one before after records
      rw [List.append_assoc, List.append_assoc] at htakes
      refine ⟨[] :: unread, hfirst.trans htakes, fun l hl => ?_⟩
      rcases List.mem_cons.1 hl with rfl | hl
      · rfl
      · exact hempty l hl

theorem flatten_nil {lists : List (List Record)} (h : ∀ l ∈ lists, l = []) : lists.flatten = [] :=
  List.flatten_eq_nil_iff.2 h

end

/-! ## Runs of `Fetch` -/

theorem serve_listing (t : TopicLog) (c : FetchCall) (s : Consumption) (r : c.Answer)
    (s' : Consumption) (hc : c.listing = true) (h : serve t c s r s') : s' = s := by
  cases c with
  | listTopics topic => exact h.1
  | listStartOffsets topic => exact h.1
  | listEndOffsets topic => exact h.1
  | listOffsetsAfterMilli at' topic => exact h.1
  | newConsumer assignment => cases hc
  | pollRecords max => cases hc
  | close => cases hc

theorem servePatiently_listing (t : TopicLog) (c : FetchCall) (s : Consumption) (r : c.Answer)
    (s' : Consumption) (hc : c.listing = true) (h : servePatiently t c s r s') : s' = s :=
  serve_listing t c s r s' hc h.1

/-- The partitions of a query. -/
def selected (t : TopicLog) (q : Query) : List Int :=
  if q.partition = -1 then t.partitions.map PartitionLog.partition else [q.partition]

section

variable {F : Floats} {t : TopicLog} {q : Query}

theorem fetchPartitions_selected {s s' : Consumption} {partitions : List Int}
    (h : (fetchPartitions q).Runs (servePatiently t) s (.ok partitions) s') :
    partitions = selected t q := by
  unfold fetchPartitions at h
  unfold selected
  split at h
  · next hall =>
      simp only [FetchCall.perform, Prog.call_bind, Prog.runs_cmd] at h
      obtain ⟨r, s₁, ⟨⟨-, henv⟩, -⟩, h⟩ := h
      rw [if_pos hall]
      cases r with
      | error e => cases h.1
      | ok found =>
          cases found with
          | none => cases h.1
          | some ps =>
              obtain rfl := Except.ok.inj h.1
              exact henv _ rfl
  · next hone =>
      rw [if_neg hone]
      exact (Except.ok.inj h.1).symm

/-- What the consumer began with, delivered or not. -/
def Consumed (t : TopicLog) (assignment : List (Int × Int)) (s : Consumption) : Prop :=
  s.assigned = assignment ∧
    (assignment.map fun (p, o) => t.recordsFrom p o).flatten.Perm
      (s.batches.flatten ++ s.unread.flatten)

theorem flatten_addBatch (batches : List (List Record)) (records : List Record) :
    (addBatch batches records).flatten = batches.flatten ++ records := by
  unfold addBatch
  split
  · next hnil => rw [List.isEmpty_iff.1 hnil, List.append_nil]
  · rw [List.flatten_append, List.flatten_singleton]

theorem Consumed.poll {assignment : List (Int × Int)} {s s' : Consumption} {max : Nat} {poll : Poll}
    (hs : Consumed t assignment s) (h : serve t (.pollRecords max) s poll s') :
    Consumed t assignment s' := by
  obtain ⟨-, htakes, hassigned, hbatches⟩ := h
  obtain ⟨hsame, hperm⟩ := hs
  refine ⟨hassigned.trans hsame, ?_⟩
  rw [hbatches, flatten_addBatch, List.append_assoc]
  exact hperm.trans (htakes.perm.append_left _)

/-- A run that has a result: where it began, and what it has scanned. -/
theorem fetch_patiently {q₀ : Query} (hq : validateQuery q₀ = .ok q) {result : QueryResult}
    {s s' : Consumption} (h : (fetch F q).Runs (servePatiently t) s (.ok result) s') :
    s'.assigned.map Prod.fst = selected t q ∧
      (∀ a ∈ s'.assigned, (resolveOffset q a.1).Runs (servePatiently t) s (.ok a.2) s) ∧
      (s'.assigned.map fun (p, o) => t.recordsFrom p o).flatten.Perm
        (s'.batches.flatten ++ s'.unread.flatten) ∧
      result = ((newRecordCollector q).feed F s'.batches.flatten).result ∧
      (((newRecordCollector q).feed F s'.batches.flatten).done = true ∨
        ∀ l ∈ s'.unread, l = []) := by
  obtain ⟨-, -, hscan, -⟩ := validateQuery_limits hq
  have hleft := remainingScan_new (q := q) (by omega)
  obtain ⟨partitions, assignment, s₁, s₂, s₃, s₄, hpartitions, hassign, hconsumer, hloop, hclose⟩ :=
    fetch_runs h
  obtain rfl := fetchPartitions_keeps (servePatiently_listing t) hpartitions
  obtain rfl := fetchPartitions_selected hpartitions
  obtain ⟨rfl, hfirst, hoffsets⟩ := assign_spec (servePatiently_listing t) hassign
  obtain rfl : s' = s₄ := hclose.1
  have hstart : s₃ = { assigned := assignment
                       unread := assignment.map fun (p, o) => t.recordsFrom p o
                       batches := [] } := hconsumer.1
  have hbegin : Consumed t assignment s₃ := by
    rw [hstart]
    exact ⟨rfl, List.Perm.refl _⟩
  obtain ⟨bs, hbs, ⟨hassigned, hperm⟩, hresult, -, hend⟩ := fetchLoop_runs
    Consumption.batches (I := Consumed t assignment) (E := fun s => ∀ l ∈ s.unread, l = []) (by
      intro max s poll s' hs henv
      refine ⟨henv.1.2.2.2, hs.poll henv.1, fun hnil => ?_⟩
      have htakes := henv.1.2.1
      rw [hnil] at htakes
      rw [htakes.of_nil]
      exact henv.2 hnil) (by omega) hbegin hloop
  have hbatches : s'.batches = bs := by rw [hbs, hstart, List.nil_append]
  rw [hassigned, hbatches]
  rw [hbatches] at hperm
  exact ⟨hfirst, hoffsets, hperm, hresult, hend⟩

theorem result_scanned (c : RecordCollector) :
    c.result.scanned = c.output.scanned ∧
      c.result.scanLimited = decide ((c.output.scanned : Int) ≥ c.query.scanLimit) := by
  unfold RecordCollector.result
  dsimp only
  split
  · exact ⟨rfl, rfl⟩
  · exact ⟨rfl, rfl⟩

/-- A collector whose result is below both limits is not done. -/
theorem not_done {records : List Record} (hscanLimit : 1 ≤ q.scanLimit)
    (hscan : ((newRecordCollector q).feed F records).result.scanLimited = false)
    (hresult : ((newRecordCollector q).feed F records).result.resultLimited = false) :
    ((newRecordCollector q).feed F records).done = false := by
  have hquery : ((newRecordCollector q).feed F records).query = q := (feed_le records).2
  have hitems : q.keepsNewest = false → ((newRecordCollector q).feed F records).output.matched =
      ((newRecordCollector q).feed F records).output.items.length := by
    intro hkeeps
    obtain ⟨-, hcollected, hitems⟩ := collected_feed (F := F) records hkeeps
      hscanLimit _ (Nat.le_refl _)
    rw [feed_collected hkeeps hscanLimit, hitems]
    exact hcollected.matched
  obtain ⟨c, hc⟩ : ∃ c, c = (newRecordCollector q).feed F records := ⟨_, rfl⟩
  rw [← hc] at hscan hresult hquery hitems ⊢
  have hmatched : ¬ (c.output.scanned : Int) ≥ q.scanLimit := by
    rw [(result_scanned c).2, hquery] at hscan
    exact of_decide_eq_false hscan
  rw [RecordCollector.done, hquery, Bool.or_eq_false_iff]
  refine ⟨decide_eq_false hmatched, ?_⟩
  cases hkeeps : q.keepsNewest with
  | true => rfl
  | false =>
      have hless : ¬ (c.output.matched : Int) ≥ q.limit := by
        by_cases hmode : q.mode = "latest"
        · have hfilters : hasContentFilters q = false := by
            simpa [Query.keepsNewest, hmode] using hkeeps
          simp only [RecordCollector.result, hquery, hmode, if_true, hfilters,
            Bool.false_eq_true, if_false] at hresult
          exact of_decide_eq_false hresult
        · simp only [RecordCollector.result, hquery, hmode, if_false] at hresult
          exact of_decide_eq_false hresult
      rw [hitems hkeeps] at hless
      rw [decide_eq_false hless]
      rfl

end

/-! ## A run for every delivery -/

section

variable {F : Floats} {t : TopicLog} {q : Query}

theorem fetchPartitions_answered (t : TopicLog) (q : Query) (s : Consumption) :
    (fetchPartitions q).Runs (servePatiently t) s (.ok (selected t q)) s := by
  unfold fetchPartitions selected
  split
  · refine ⟨.ok (some (t.partitions.map PartitionLog.partition)), s, ⟨⟨rfl, ?_⟩, trivial⟩, rfl, rfl⟩
    intro ps hps
    exact (Option.some.inj (Except.ok.inj hps)).symm
  · exact ⟨rfl, rfl⟩

/-- The first poll has it all, and the next one, if there is one, is empty. -/
theorem fetchLoop_delivers {c : RecordCollector} {s : Consumption} {records : List Record}
    {unread : List (List Record)} {fuel : Nat} (hdone : c.done = false)
    (hmax : records.length ≤ c.remainingScan.toNat) (htakes : Takes s.unread records unread)
    (hend : (c.feed F records).done = true ∨ ∀ l ∈ unread, l = []) :
    (fetchLoop F (fuel + 2) c).Runs (servePatiently t) s (.ok (c.feed F records).result)
      { assigned := s.assigned
        unread := unread
        batches := addBatch s.batches records } := by
  have hnot : ¬ c.done = true := by simp [hdone]
  rw [fetchLoop, if_neg hnot]
  simp only [FetchCall.perform, Prog.call_bind, Prog.runs_cmd]
  refine ⟨{ records := records, errors := [], deadline := false, request := none },
    { assigned := s.assigned, unread := unread, batches := addBatch s.batches records },
    ⟨⟨hmax, htakes, rfl, rfl⟩, fun hnil => ?_⟩, ?_⟩
  · obtain rfl : records = [] := hnil
    obtain rfl := htakes.of_nil
    rcases hend with hfed | hempty
    · have hsame : c.feed F [] = c := rfl
      rw [hsame, hdone] at hfed
      cases hfed
    · exact hempty
  · cases records with
    | nil => exact ⟨rfl, rfl⟩
    | cons r records =>
        show (fetchLoop F (fuel + 1) (c.feed F (r :: records))).Runs _ _ _ _
        rw [fetchLoop]
        split
        · exact ⟨rfl, rfl⟩
        · next hmore =>
            simp only [FetchCall.perform, Prog.call_bind, Prog.runs_cmd]
            exact ⟨{ records := [], errors := [], deadline := true, request := none }, _,
              ⟨⟨Nat.zero_le _, .nil _, rfl, rfl⟩, fun _ => hend.resolve_left hmore⟩, rfl, rfl⟩

/-- Whatever can be delivered of what is assigned is, in some run. -/
theorem fetch_delivers {q₀ : Query} (hq : validateQuery q₀ = .ok q) {s : Consumption}
    {assignment : List (Int × Int)}
    (hassign : (assign q (selected t q)).Runs (servePatiently t) s (.ok assignment) s)
    {records : List Record} {unread : List (List Record)}
    (htakes : Takes (assignment.map fun (p, o) => t.recordsFrom p o) records unread)
    (hmax : records.length ≤ q.scanLimit.toNat)
    (hend : ((newRecordCollector q).feed F records).done = true ∨ ∀ l ∈ unread, l = []) :
    (fetch F q).Runs (servePatiently t) s (.ok ((newRecordCollector q).feed F records).result)
      { assigned := assignment
        unread := unread
        batches := addBatch [] records } := by
  obtain ⟨hlimit, -, hscan, -⟩ := validateQuery_limits hq
  have hdone : (newRecordCollector q).done = false := by
    rw [RecordCollector.done, newRecordCollector]
    simp only [Bool.or_eq_false_iff, Bool.and_eq_false_iff, decide_eq_false_iff_not]
    exact ⟨by simp; omega, .inr (by simp; omega)⟩
  obtain ⟨fuel, hfuel⟩ : ∃ fuel, q.scanLimit.toNat + 1 = fuel + 2 :=
    ⟨q.scanLimit.toNat - 1, by omega⟩
  refine Prog.runs_bind.2 ⟨_, _, fetchPartitions_answered t q s,
    Prog.runs_bind.2 ⟨_, _, hassign, ?_⟩⟩
  simp only [FetchCall.perform, Prog.call_bind, Prog.runs_cmd]
  refine ⟨none, { assigned := assignment, unread := _, batches := [] }, ⟨rfl, trivial⟩, ?_⟩
  rw [hfuel]
  refine Prog.runs_bind.2 ⟨_, _, fetchLoop_delivers hdone ?_ htakes hend, (), _, ⟨rfl, trivial⟩,
    rfl, rfl⟩
  rw [remainingScan_new (by omega)]
  exact hmax

end

/-! ## A topic of five records -/

def fiveTopic : TopicLog where
  partitions :=
    [{ partition := 0
       records := fiveRecords
       start := 1
       finish := 6
       own := by decide +kernel
       within := by decide +kernel
       ordered := by decide +kernel
       start_nonneg := by decide +kernel }]
  distinct := by decide +kernel

/-- All of them are looked for, from the first on. -/
def earliestQuery : Query :=
  { offsetQuery with mode := "earliest", limit := 10, scanLimit := 10 }

/-- No consumer yet. -/
def notConsuming : Consumption := { assigned := [], unread := [], batches := [] }

theorem assign_five : (assign earliestQuery (selected fiveTopic earliestQuery)).Runs
    (servePatiently fiveTopic) notConsuming (.ok [(0, 1)]) notConsuming := by
  refine ⟨.ok fun p => if p = 0 then some 1 else none, notConsuming, ⟨⟨rfl, ?_⟩, trivial⟩, rfl, rfl⟩
  intro f hf p o ho
  rw [← Except.ok.inj hf] at ho
  dsimp only at ho
  split at ho
  · next hp =>
      refine ⟨_, List.mem_singleton_self _, hp.symm, ?_⟩
      exact (Option.some.inj ho).symm
  · cases ho

/-- A result below both limits has all the records from the offsets the
partitions of the query were resolved to, if no poll was empty while there was
something left. -/
theorem fetch_complete (F : Floats) (t : TopicLog) {q₀ q : Query} (hq : validateQuery q₀ = .ok q)
    {result : QueryResult} {s s' : Consumption}
    (h : (fetch F q).Runs (servePatiently t) s (.ok result) s')
    (hscan : result.scanLimited = false) (hresult : result.resultLimited = false) :
    s'.assigned.map Prod.fst = selected t q ∧
      ∀ a ∈ s'.assigned, (resolveOffset q a.1).Runs (servePatiently t) s (.ok a.2) s ∧
        ∀ r ∈ t.recordsFrom a.1 a.2, r ∈ s'.batches.flatten.take result.scanned := by
  obtain ⟨-, -, hscanLimit, -⟩ := validateQuery_limits hq
  obtain ⟨hselected, hoffsets, hperm, rfl, hend⟩ := fetch_patiently hq h
  refine ⟨hselected, fun a ha => ⟨hoffsets a ha, fun r hr => ?_⟩⟩
  have hdone := not_done hscanLimit hscan hresult
  have hempty : s'.unread.flatten = [] := by
    rcases hend with hdone' | hempty
    · rw [hdone] at hdone'
      cases hdone'
    · exact flatten_nil hempty
  rw [hempty, List.append_nil] at hperm
  have hall : ((newRecordCollector q).feed F s'.batches.flatten).result.scanned =
      s'.batches.flatten.length := by
    have hscanned := feed_all hdone
    have hzero : (newRecordCollector q).output.scanned = 0 := rfl
    rw [(result_scanned _).1, hscanned, hzero, Nat.zero_add]
  rw [hall, List.take_length]
  refine hperm.mem_iff.1 (List.mem_flatten.2 ⟨_, List.mem_map.2 ⟨a, ha, rfl⟩, hr⟩)

theorem fetch_complete_five :
    ∃ s', (fetch noFloats earliestQuery).Runs (servePatiently fiveTopic) notConsuming
        (.ok ((newRecordCollector earliestQuery).feed noFloats fiveRecords).result) s' ∧
      ∀ r ∈ fiveRecords, r ∈ s'.batches.flatten.take 5 := by
  have hq : validateQuery earliestQuery = .ok earliestQuery := by decide +kernel
  have hrun := fetch_delivers (F := noFloats) hq assign_five
    (takes_one [] [] fiveRecords) (by decide +kernel) (.inr (by simp))
  have hcomplete := (fetch_complete noFloats fiveTopic hq hrun (by decide +kernel)
    (by decide +kernel)).2 (0, 1) (List.mem_singleton_self _)
  exact ⟨_, hrun, hcomplete.2⟩

/-- A poll whose deadline passes while the records are on their way ends it with
none of them and no limit. -/
theorem fetch_deadline :
    ∃ result s', (fetch noFloats earliestQuery).Runs (serve fiveTopic) notConsuming (.ok result) s' ∧
      result.scanLimited = false ∧ result.resultLimited = false ∧ s'.assigned = [(0, 1)] ∧
      fiveTopic.recordsFrom 0 1 = fiveRecords ∧ result.scanned = 0 ∧ s'.batches = [] := by
  have hresolved : (assign earliestQuery (selected fiveTopic earliestQuery)).Runs
      (serve fiveTopic) notConsuming (.ok [(0, 1)]) notConsuming :=
    Prog.Runs.map (f := id) (fun _ _ _ _ h => h.1) assign_five
  have hlate : (fetchLoop noFloats 11 (newRecordCollector earliestQuery)).Runs (serve fiveTopic)
      { assigned := [(0, 1)], unread := [fiveRecords], batches := [] }
      (.ok (newRecordCollector earliestQuery).result)
      { assigned := [(0, 1)], unread := [fiveRecords], batches := [] } :=
    ⟨{ records := [], errors := [.deadlineExceeded], deadline := true, request := none }, _,
      ⟨Nat.zero_le _, .nil _, rfl, rfl⟩, rfl, rfl⟩
  refine ⟨(newRecordCollector earliestQuery).result,
    { assigned := [(0, 1)], unread := [fiveRecords], batches := [] }, Prog.runs_bind.2 ⟨.ok [0],
    notConsuming, ⟨rfl, rfl⟩, Prog.runs_bind.2 ⟨_, _, hresolved, ?_⟩⟩, by decide +kernel,
    by decide +kernel, rfl, by decide +kernel, by decide +kernel, rfl⟩
  simp only [FetchCall.perform, Prog.call_bind, Prog.runs_cmd]
  exact ⟨none, { assigned := [(0, 1)], unread := [fiveRecords], batches := [] }, rfl,
    Prog.runs_bind.2 ⟨_, _, hlate, (), _, rfl, rfl, rfl⟩⟩

end KafkaManager.Message
