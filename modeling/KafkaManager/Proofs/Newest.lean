import KafkaManager.Proofs.Complete

/-!
# Whether a latest query scans the newest

A latest query begins with the records that lie, in offsets, as near to the end
of their partition as it may scan records. If they are no more than that, they
are what it scans; if they are more, then there is an order of delivery in which
any of them is scanned.
-/

namespace KafkaManager.Message

open Lib Kafka

/-! ## The records it begins with -/

/-- The records within so many offsets of the end. -/
def PartitionLog.recent (n : Int) (l : PartitionLog) : List Record :=
  l.records.filter fun r => l.finish - n ≤ r.offset

/-- The records before them. -/
def PartitionLog.earlier (n : Int) (l : PartitionLog) : List Record :=
  l.records.filter fun r => !decide (l.finish - n ≤ r.offset)

def selectedLogs (t : TopicLog) (q : Query) : List PartitionLog :=
  t.partitions.filter fun l => q.partition == -1 || l.partition == q.partition

/-- The records of the partitions of a query. -/
def content (t : TopicLog) (q : Query) : List Record :=
  (selectedLogs t q).flatMap PartitionLog.records

def recent (t : TopicLog) (q : Query) : List Record :=
  (selectedLogs t q).flatMap (PartitionLog.recent q.scanLimit)

def earlier (t : TopicLog) (q : Query) : List Record :=
  (selectedLogs t q).flatMap (PartitionLog.earlier q.scanLimit)

section

variable {t : TopicLog} {q : Query}

theorem recent_earlier (t : TopicLog) (q : Query) :
    (recent t q ++ earlier t q).Perm (content t q) := by
  unfold recent earlier content
  induction selectedLogs t q with
  | nil => exact List.Perm.refl _
  | cons l logs ih =>
      have hl : (l.recent q.scanLimit ++ l.earlier q.scanLimit).Perm l.records :=
        List.filter_append_perm _ _
      simp only [List.flatMap_cons]
      refine List.Perm.trans ?_ (hl.append ih)
      rw [List.append_assoc, List.append_assoc]
      refine List.Perm.append_left _ ?_
      rw [← List.append_assoc, ← List.append_assoc]
      exact List.perm_append_comm.append_right _

/-- The log of a partition is found by its number. -/
theorem find_partition {l : PartitionLog} (hl : l ∈ t.partitions) :
    t.partitions.find? (fun l' => l'.partition == l.partition) = some l := by
  have hsome : (t.partitions.find? fun l' => l'.partition == l.partition).isSome = true :=
    List.find?_isSome.2 ⟨l, hl, by simp⟩
  obtain ⟨found, hfound⟩ := Option.isSome_iff_exists.1 hsome
  have hpartition : found.partition = l.partition := by simpa using List.find?_some hfound
  have hsame := List.inj_on_of_nodup_map t.distinct (List.mem_of_find?_eq_some hfound) hl hpartition
  rw [hfound, hsame]

/-- The records the consumer of a latest query begins with, by the number of
the partition. -/
def recentOf (t : TopicLog) (q : Query) (partition : Int) : List Record :=
  match t.partitions.find? fun l => l.partition == partition with
  | none => []
  | some l => l.recent q.scanLimit

theorem recentOf_partition {l : PartitionLog} (hl : l ∈ t.partitions) :
    recentOf t q l.partition = l.recent q.scanLimit := by
  rw [recentOf, find_partition hl]

theorem recentOf_selected (t : TopicLog) (q : Query) :
    ((selected t q).map (recentOf t q)).flatten = recent t q := by
  unfold selected recent selectedLogs
  split
  · next hall =>
      have hkeep : (t.partitions.filter fun l => q.partition == -1 || l.partition == q.partition) =
          t.partitions := by
        rw [List.filter_eq_self]
        exact fun l _ => by simp [hall]
      rw [hkeep, List.map_map, List.flatMap_def]
      refine congrArg List.flatten (List.map_congr_left fun l hl => ?_)
      exact recentOf_partition hl
  · next hone =>
      have hpred : (fun l : PartitionLog => q.partition == -1 || l.partition == q.partition) =
          fun l => l.partition == q.partition := by
        funext l
        simp [hone]
      rw [hpred]
      simp only [List.map_cons, List.map_nil, List.flatten_singleton]
      cases hfind : t.partitions.find? fun l => l.partition == q.partition with
      | none =>
          have hnone : (t.partitions.filter fun l => l.partition == q.partition) = [] :=
            List.filter_eq_nil_iff.2 (List.find?_eq_none.1 hfind)
          rw [recentOf, hfind, hnone]
          rfl
      | some l =>
          have hl := List.mem_of_find?_eq_some hfind
          have hpartition : l.partition = q.partition := by simpa using List.find?_some hfind
          have hsingle : (t.partitions.filter fun l => l.partition == q.partition) = [l] := by
            obtain ⟨-, before, after, hsplit, hbefore⟩ := List.find?_eq_some_iff_append.1 hfind
            have hdistinct := t.distinct
            rw [hsplit] at hdistinct ⊢
            have hafter : ∀ l' ∈ after, ¬ (l'.partition == q.partition) = true := by
              intro l' hl' heq
              rw [List.map_append, List.map_cons, List.nodup_append, List.nodup_cons] at hdistinct
              refine hdistinct.2.1.1 (List.mem_map.2 ⟨l', hl', ?_⟩)
              rw [eq_of_beq heq, hpartition]
            have hnone : (before.filter fun l => l.partition == q.partition) = [] :=
              List.filter_eq_nil_iff.2 fun l' hl' => by simpa using hbefore l' hl'
            rw [List.filter_append, hnone, List.filter_cons_of_pos (by simpa using hpartition),
              List.filter_eq_nil_iff.2 hafter]
            rfl
          rw [recentOf, hfind, hsingle]
          simp

theorem resolveOffset_latest (hmode : q.mode = "latest") {partition offset : Int}
    {s s' : Consumption}
    (h : (resolveOffset q partition).Runs (servePatiently t) s (.ok offset) s') :
    ∃ l ∈ t.partitions, l.partition = partition ∧
      offset = if l.finish - q.scanLimit < 0 then 0 else l.finish - q.scanLimit := by
  simp only [resolveOffset, hmode, String.reduceEq, if_false, true_or, if_true,
    FetchCall.perform, Prog.call_bind, Prog.runs_cmd] at h
  obtain ⟨r, s₁, ⟨⟨-, henv⟩, -⟩, hlookup, -⟩ := h
  cases r with
  | error e => cases hlookup
  | ok listed =>
      rw [lookupOffset] at hlookup
      split at hlookup
      · cases hlookup
      · next o hlisted =>
          obtain ⟨l, hl, hpartition, ho⟩ := henv listed rfl partition o hlisted
          refine ⟨l, hl, hpartition, ?_⟩
          rw [← ho]
          simp only [hmode, if_true] at hlookup
          exact (Except.ok.inj hlookup).symm

theorem recordsFrom_latest {partition offset : Int} {l : PartitionLog} (hl : l ∈ t.partitions)
    (hpartition : l.partition = partition)
    (hoffset : offset = if l.finish - q.scanLimit < 0 then 0 else l.finish - q.scanLimit) :
    t.recordsFrom partition offset = recentOf t q partition := by
  rw [← hpartition, recentOf_partition hl, TopicLog.recordsFrom, find_partition hl]
  refine List.filter_congr fun r hr => ?_
  have hstart := (l.within r hr).1
  have hnonneg := l.start_nonneg
  rw [decide_eq_decide, hoffset]
  split
  · omega
  · exact Iff.rfl

/-- What a run of a latest query has polled and left unread. -/
theorem latest_consumed {F : Floats} {q₀ : Query} (hq : validateQuery q₀ = .ok q)
    (hmode : q.mode = "latest") {result : QueryResult} {s s' : Consumption}
    (h : (fetch F q).Runs (servePatiently t) s (.ok result) s') :
    (recent t q).Perm (s'.batches.flatten ++ s'.unread.flatten) ∧
      result = ((newRecordCollector q).feed F s'.batches.flatten).result ∧
      (((newRecordCollector q).feed F s'.batches.flatten).done = true ∨
        ∀ l ∈ s'.unread, l = []) := by
  obtain ⟨hselected, hoffsets, hperm, hresult, hend⟩ := fetch_patiently hq h
  refine ⟨?_, hresult, hend⟩
  refine (List.Perm.of_eq ?_).trans hperm
  rw [← recentOf_selected, ← hselected, List.map_map]
  refine congrArg List.flatten (List.map_congr_left fun a ha => ?_)
  obtain ⟨l, hl, hpartition, hoffset⟩ := resolveOffset_latest hmode (hoffsets a ha)
  exact (recordsFrom_latest hl hpartition hoffset).symm

/-- The offsets of a latest query, if its partitions are there. -/
theorem assign_latest (hmode : q.mode = "latest") (s : Consumption) {partitions : List Int}
    (hthere : ∀ p ∈ partitions, ∃ l ∈ t.partitions, l.partition = p) :
    ∃ assignment, (assign q partitions).Runs (servePatiently t) s (.ok assignment) s ∧
      (assignment.map fun (p, o) => t.recordsFrom p o) = partitions.map (recentOf t q) := by
  induction partitions with
  | nil => exact ⟨[], ⟨rfl, rfl⟩, rfl⟩
  | cons p partitions ih =>
      obtain ⟨l, hl, hpartition⟩ := hthere p (.head _)
      obtain ⟨assignment, hassign, hlogs⟩ := ih fun p' hp' => hthere p' (.tail _ hp')
      have hresolve : (resolveOffset q p).Runs (servePatiently t) s
          (.ok (if l.finish - q.scanLimit < 0 then 0 else l.finish - q.scanLimit)) s := by
        simp only [resolveOffset, hmode, String.reduceEq, if_false, true_or, if_true,
          FetchCall.perform, Prog.call_bind, Prog.runs_cmd]
        refine ⟨.ok fun p' => if p' = p then some l.finish else none, s, ⟨⟨rfl, ?_⟩, trivial⟩, ?_,
          rfl⟩
        · intro f hf p' o ho
          rw [← Except.ok.inj hf] at ho
          dsimp only at ho
          split at ho
          · next hp' => exact ⟨l, hl, hpartition.trans hp'.symm, (Option.some.inj ho).symm⟩
          · cases ho
        · simp only [lookupOffset, hmode, if_true]
      refine ⟨_ :: assignment, Prog.runs_bind.2 ⟨_, s, hresolve, Prog.runs_bind.2 ⟨_, s, hassign,
        rfl, rfl⟩⟩, ?_⟩
      rw [List.map_cons, List.map_cons, hlogs]
      exact congrArg (· :: _) (recordsFrom_latest hl hpartition rfl)

end

/-! ## What it scans -/

section

variable {F : Floats} {q : Query}

theorem matching_unfiltered (h : hasContentFilters q = false) (r : Record) :
    matching F q r = true := by
  unfold hasContentFilters at h
  simp only [Bool.or_eq_false_iff, bne_eq_false_iff_eq, Bool.not_eq_false'] at h
  obtain ⟨⟨hkey, hvalue⟩, hjson⟩ := h
  simp [matching, matchRecord, hkey, hvalue, hjson]

theorem countP_unfiltered (h : hasContentFilters q = false) (records : List Record) :
    records.countP (matching F q) = records.length :=
  List.countP_eq_length.2 fun r _ => matching_unfiltered h r

/-- Without filters the shortest part is as many records as may be scanned. -/
theorem shortest_unfiltered (h : hasContentFilters q = false) (hsame : q.scanLimit = q.limit)
    (records : List Record) :
    shortest F q records = min q.scanLimit.toNat records.length := by
  have hle := shortest_le F q records
  have hleast : ¬ q.scanLimit.toNat < shortest F q records := by
    intro hlt
    have hnot := shortest_before hlt
    rw [enough, Bool.or_eq_false_iff, decide_eq_false_iff_not, decide_eq_false_iff_not,
      countP_unfiltered h, List.length_take_of_le (by omega)] at hnot
    omega
  rcases Nat.lt_or_ge (shortest F q records) records.length with hlt | hge
  · have hstop := shortest_stop hlt
    rw [enough, Bool.or_eq_true, decide_eq_true_eq, decide_eq_true_eq, countP_unfiltered h,
      List.length_take_of_le hle] at hstop
    omega
  · omega

/-- A latest query scans as much as it may, and has the newest matches among
what it scans. -/
theorem latest_scanned {q₀ : Query} (hq : validateQuery q₀ = .ok q) (hmode : q.mode = "latest")
    (records : List Record) :
    ((newRecordCollector q).feed F records).result.scanned =
        min q.scanLimit.toNat records.length ∧
      (((newRecordCollector q).feed F records).done = true ↔
        q.scanLimit.toNat ≤ records.length) ∧
      First recordNewer q.limit.toNat ((records.take q.scanLimit.toNat).filter (matching F q))
        ((newRecordCollector q).feed F records).result.items := by
  obtain ⟨hlimit, -, hscan, -, hsame⟩ := validateQuery_limits hq
  cases hfilters : hasContentFilters q with
  | true =>
      have hnewest : q.keepsNewest = true := by simp [Query.keepsNewest, hmode, hfilters]
      obtain ⟨⟨hquery, hscanned, -, -⟩, hkept⟩ :=
        feed_keepsNewest (F := F) hnewest hlimit hscan records
      obtain ⟨c, hc⟩ : ∃ c, c = (newRecordCollector q).feed F records := ⟨_, rfl⟩
      rw [← hc] at hquery hscanned hkept ⊢
      rw [List.length_take] at hscanned
      have hnewest' : c.query.keepsNewest = true := by rw [hquery, hnewest]
      refine ⟨(result_scanned c).1.trans hscanned, ?_, ?_⟩
      · rw [done_keepsNewest hnewest', decide_eq_true_eq, hquery, hscanned]
        omega
      · have hitems : c.result.items = newestFirst c.output.items := by
          simp only [RecordCollector.result, hquery, hmode, if_true]
          rfl
        rw [hitems]
        exact hkept.first (newestFirst_perm _) (newestFirst_ordered _)
  | false =>
      have hsame := hsame hfilters
      have hkeeps : q.keepsNewest = false := by simp [Query.keepsNewest, hfilters]
      have hshort := shortest_unfiltered (F := F) hfilters hsame records
      have hscanned : records.take (shortest F q records) = records.take q.scanLimit.toNat := by
        rw [hshort, List.take_eq_take_iff]
        omega
      obtain ⟨hle, hcollected⟩ := collected_feed (F := F) records hkeeps hscan _
        (Nat.le_refl _)
      rw [result_collected hkeeps hscan]
      refine ⟨?_, ?_, ?_⟩
      · simp only [firstMatches, List.length_take, hshort]
        omega
      · rw [feed_collected hkeeps hscan, hcollected.done hkeeps hle, enough, Bool.or_eq_true,
          decide_eq_true_eq, decide_eq_true_eq, countP_unfiltered hfilters, hscanned,
          List.length_take]
        omega
      · simp only [firstMatches, hmode, if_true, hscanned]
        have hall : (newestFirst ((records.take q.scanLimit.toNat).filter
            (matching F q))).length ≤ q.limit.toNat := by
          have hscans : (records.take q.scanLimit.toNat).length ≤ q.scanLimit.toNat :=
            List.length_take_le _ _
          have hfound := List.length_filter_le (matching F q) (records.take q.scanLimit.toNat)
          rw [(newestFirst_perm _).length_eq]
          omega
        have hfirst := first_take (n := q.limit.toNat)
          (newestFirst_perm ((records.take q.scanLimit.toNat).filter (matching F q)))
          (newestFirst_ordered _)
        rw [List.take_of_length_le hall] at hfirst
        exact hfirst

end

/-! ## The records of a topic -/

theorem distinct_records (l : PartitionLog) : Distinct l.records := by
  refine List.Pairwise.map Record.place (fun a b hab heq => ?_) l.ordered
  have hoffset : a.offset = b.offset := congrArg Prod.snd heq
  omega

theorem distinct_content (t : TopicLog) (q : Query) : Distinct (content t q) := by
  have hlogs : (selectedLogs t q).Pairwise fun l l' => l.partition ≠ l'.partition :=
    (List.pairwise_map.1 t.distinct).sublist List.filter_sublist
  rw [Distinct, content, List.map_flatMap, List.nodup_flatMap]
  refine ⟨fun l _ => distinct_records l, hlogs.imp fun {l l'} hne => ?_⟩
  intro place hl hl'
  obtain ⟨r, hr, rfl⟩ := List.mem_map.1 hl
  obtain ⟨r', hr', hplace⟩ := List.mem_map.1 hl'
  have hpartition : r'.partition = r.partition := congrArg Prod.fst hplace
  exact hne ((l.own r hr).symm.trans (hpartition.symm.trans (l'.own r' hr')))

theorem distinct_recent (t : TopicLog) (q : Query) : (recent t q).Nodup := by
  have hall : (recent t q ++ earlier t q).Nodup :=
    (recent_earlier t q).nodup_iff.2 (distinct_content t q).of_map
  exact (List.nodup_append.1 hall).1

/-- No partition alone has more of them than may be scanned. -/
theorem length_recent (l : PartitionLog) (n : Nat) : (l.recent n).length ≤ n := by
  have hnodup : ((l.recent n).map fun r => (r.offset - (l.finish - n)).toNat).Nodup := by
    have hordered : (l.recent n).Pairwise fun a b => a.offset < b.offset :=
      l.ordered.sublist List.filter_sublist
    refine List.Pairwise.map _ (fun a b h => h) (hordered.imp_of_mem fun {a b} ha hb hab heq => ?_)
    have hwithin : l.finish - n ≤ a.offset := by simpa using List.of_mem_filter ha
    omega
  have hrange : ((l.recent n).map fun r => (r.offset - (l.finish - n)).toNat) ⊆ List.range n := by
    intro k hk
    obtain ⟨r, hr, rfl⟩ := List.mem_map.1 hk
    have hwithin : l.finish - n ≤ r.offset := by simpa using List.of_mem_filter hr
    have hbefore := (l.within r (List.mem_of_mem_filter hr)).2
    rw [List.mem_range]
    omega
  have hlength := (hnodup.subperm hrange).length_le
  rw [List.length_map, List.length_range] at hlength
  exact hlength

/-! ## The newest -/

/-- Whatever the order of delivery, the records that are scanned are the newest
of the partitions of the query, and its items the newest matches among them. -/
def NewestScanned (F : Floats) (t : TopicLog) (q : Query) : Prop :=
  ∀ result s s', (fetch F q).Runs (servePatiently t) s (.ok result) s' →
    (∃ newest, First recordNewer q.scanLimit.toNat (content t q) newest ∧
      (s'.batches.flatten.take result.scanned).Perm newest) ∧
    First recordNewer q.limit.toNat
      ((s'.batches.flatten.take result.scanned).filter (matching F q)) result.items

/-- The records a latest query begins with are as many as it is to scan, and
those before them are no newer. -/
def RecentAreNewest (t : TopicLog) (q : Query) : Prop :=
  (recent t q).length = min q.scanLimit.toNat (content t q).length ∧
    ∀ a ∈ recent t q, ∀ b ∈ earlier t q, recordNewer b a = false

section

variable {F : Floats} {t : TopicLog} {q₀ q : Query}

theorem newestScanned_of_recent (hq : validateQuery q₀ = .ok q) (hmode : q.mode = "latest")
    (h : RecentAreNewest t q) : NewestScanned F t q := by
  intro result s s' hrun
  obtain ⟨hlength, hearlier⟩ := h
  obtain ⟨hperm, rfl, hend⟩ := latest_consumed hq hmode hrun
  obtain ⟨hscanned, hdone, hitems⟩ := latest_scanned (F := F) hq hmode s'.batches.flatten
  have hcount := hperm.length_eq
  rw [List.length_append] at hcount
  have hnone : s'.unread.flatten = [] := by
    rcases hend with hend | hend
    · have hfull := hdone.1 hend
      exact List.eq_nil_of_length_eq_zero (by omega)
    · exact flatten_nil hend
  rw [hnone, List.append_nil] at hperm
  have hall : s'.batches.flatten.take q.scanLimit.toNat = s'.batches.flatten :=
    List.take_of_length_le (by omega)
  have hall' : s'.batches.flatten.take
      ((newRecordCollector q).feed F s'.batches.flatten).result.scanned = s'.batches.flatten :=
    List.take_of_length_le (by omega)
  rw [hall] at hitems
  rw [hall']
  refine ⟨⟨newestFirst (recent t q), ⟨?_, newestFirst_ordered _, earlier t q, ?_, ?_⟩, ?_⟩, hitems⟩
  · rw [(newestFirst_perm _).length_eq, hlength]
  · exact ((newestFirst_perm _).append_right _).trans (recent_earlier t q)
  · exact fun a ha => hearlier a ((newestFirst_perm _).mem_iff.1 ha)
  · exact hperm.symm.trans (newestFirst_perm _).symm

/-- A run that scans these records, of those it begins with. -/
theorem NewestScanned.delivered (h : NewestScanned F t q) (hq : validateQuery q₀ = .ok q)
    (hmode : q.mode = "latest") (hthere : ∀ p ∈ selected t q, ∃ l ∈ t.partitions, l.partition = p)
    {records : List Record} {unread : List (List Record)}
    (htakes : Takes ((selected t q).map (recentOf t q)) records unread)
    (hmax : records.length ≤ q.scanLimit.toNat)
    (hend : records.length = q.scanLimit.toNat ∨ ∀ l ∈ unread, l = []) :
    ∃ newest, First recordNewer q.scanLimit.toNat (content t q) newest ∧ records.Perm newest := by
  obtain ⟨hscanned, hdone, -⟩ := latest_scanned (F := F) hq hmode records
  obtain ⟨assignment, hassign, hlogs⟩ :=
    assign_latest (q := q) hmode { assigned := [], unread := [], batches := [] } hthere
  rw [← hlogs] at htakes
  have hend' : ((newRecordCollector q).feed F records).done = true ∨ ∀ l ∈ unread, l = [] := by
    rcases hend with hfull | hempty
    · exact .inl (hdone.2 (by omega))
    · exact .inr hempty
  have hrun := fetch_delivers hq hassign htakes hmax hend'
  obtain ⟨newest, hfirst, hperm⟩ := (h _ _ _ hrun).1
  have hflat : (addBatch [] records).flatten = records := flatten_addBatch [] records
  have hall : records.take ((newRecordCollector q).feed F records).result.scanned = records :=
    List.take_of_length_le (by omega)
  simp only [hflat, hall] at hperm
  exact ⟨newest, hfirst, hperm⟩

/-- With too many of them, one that is not among the newest can be scanned. -/
theorem NewestScanned.length_recent (h : NewestScanned F t q) (hq : validateQuery q₀ = .ok q)
    (hmode : q.mode = "latest")
    (hthere : ∀ p ∈ selected t q, ∃ l ∈ t.partitions, l.partition = p) :
    (recent t q).length ≤ q.scanLimit.toNat := by
  obtain ⟨-, -, hscan, -⟩ := validateQuery_limits hq
  refine Nat.le_of_not_lt fun hmore => ?_
  obtain ⟨r, hr, hold⟩ : ∃ r ∈ recent t q,
      r ∉ (newestFirst (content t q)).take q.scanLimit.toNat := by
    refine Classical.byContradiction fun hnot => ?_
    have hsub : recent t q ⊆ (newestFirst (content t q)).take q.scanLimit.toNat := fun r hr =>
      Classical.byContradiction fun hold => hnot ⟨r, hr, hold⟩
    have hle := ((distinct_recent t q).subperm hsub).length_le
    have htake : ((newestFirst (content t q)).take q.scanLimit.toNat).length ≤
        q.scanLimit.toNat := List.length_take_le _ _
    omega
  rw [← recentOf_selected] at hr
  obtain ⟨own, hown, hr⟩ := List.mem_flatten.1 hr
  have hfew : own.length ≤ q.scanLimit.toNat := by
    obtain ⟨p, hp, rfl⟩ := List.mem_map.1 hown
    obtain ⟨l, hl, rfl⟩ := hthere p hp
    have hle := Message.length_recent l q.scanLimit.toNat
    rw [Int.toNat_of_nonneg (by omega)] at hle
    rw [recentOf_partition hl]
    exact hle
  obtain ⟨before, after, hsplit⟩ := List.append_of_mem hown
  obtain ⟨unread, hrest, -⟩ := takes_all [] (before ++ [] :: after)
  have hfirst := (takes_one before after own).trans hrest
  obtain ⟨unread', htakes⟩ := hfirst.take q.scanLimit.toNat
  have htotal : (own ++ (before ++ [] :: after).flatten).length = (recent t q).length := by
    rw [← recentOf_selected, hsplit]
    simp only [List.length_append, List.flatten_append, List.flatten_cons, List.nil_append]
    omega
  rw [← hsplit] at htakes
  have hfull : ((own ++ (before ++ [] :: after).flatten).take q.scanLimit.toNat).length =
      q.scanLimit.toNat := List.length_take_of_le (by omega)
  obtain ⟨newest, hnewest, hperm⟩ := h.delivered hq hmode hthere htakes (by omega) (.inl hfull)
  have htop := first_newest (distinct_content t q) hnewest
  rw [htop] at hperm
  refine hold (hperm.mem_iff.1 ?_)
  rw [List.take_append, List.take_of_length_le hfew]
  exact List.mem_append_left _ hr

theorem NewestScanned.recent (h : NewestScanned F t q) (hq : validateQuery q₀ = .ok q)
    (hmode : q.mode = "latest") : RecentAreNewest t q := by
  by_cases hthere : ∀ p ∈ selected t q, ∃ l ∈ t.partitions, l.partition = p
  · have hfew := h.length_recent hq hmode hthere
    obtain ⟨unread, htakes, hempty⟩ := takes_all [] ((selected t q).map (recentOf t q))
    rw [recentOf_selected] at htakes
    obtain ⟨newest, ⟨hlength, -, rest, hrest, hleast⟩, hperm⟩ :=
      h.delivered hq hmode hthere htakes hfew (.inr hempty)
    have hearlier : (earlier t q).Perm rest := by
      have hboth := (recent_earlier t q).trans (hrest.symm.trans (hperm.symm.append_right rest))
      exact (List.perm_append_left_iff _).1 hboth
    refine ⟨hperm.length_eq.trans hlength, fun a ha b hb => ?_⟩
    exact hleast a (hperm.mem_iff.1 ha) b (hearlier.mem_iff.1 hb)
  · have hnone : selectedLogs t q = [] := by
      refine List.filter_eq_nil_iff.2 fun l hl hsel => hthere fun p hp => ?_
      unfold selected at hp
      split at hp
      · obtain ⟨l', hl', rfl⟩ := List.mem_map.1 hp
        exact ⟨l', hl', rfl⟩
      · next hone =>
          simp only [Bool.or_eq_true, beq_iff_eq, hone, false_or] at hsel
          exact ⟨l, hl, hsel.trans (List.mem_singleton.1 hp).symm⟩
    simp [RecentAreNewest, Message.recent, earlier, content, hnone]

end

/-- A latest query scans the newest records, in whatever order they come, if and
only if it begins with no more than it may scan and nothing before is newer. -/
theorem newest_scanned (F : Floats) (t : TopicLog) {q₀ q : Query} (hq : validateQuery q₀ = .ok q)
    (hmode : q.mode = "latest") : NewestScanned F t q ↔ RecentAreNewest t q :=
  ⟨fun h => h.recent hq hmode, newestScanned_of_recent hq hmode⟩

/-- The two newest, without a filter. -/
def newestQuery : Query := { offsetQuery with mode := "latest" }

theorem newest_scanned_five : NewestScanned noFloats fiveTopic newestQuery := by
  have hq : validateQuery newestQuery = .ok newestQuery := by decide +kernel
  exact (newest_scanned noFloats fiveTopic hq rfl).2 ⟨by decide +kernel, by decide +kernel⟩

/-- An older record of one partition, and a newer one of the other. -/
def olderRecord : Record :=
  { topic := "orders", partition := 0, offset := 0, timestamp := 1000, key := "a", value := ""
    headers := [] }

def newerRecord : Record :=
  { topic := "orders", partition := 1, offset := 0, timestamp := 2000, key := "b", value := ""
    headers := [] }

def twoTopic : TopicLog where
  partitions :=
    [{ partition := 0, records := [olderRecord], start := 0, finish := 1, own := by decide +kernel
       within := by decide +kernel, ordered := by decide +kernel
       start_nonneg := by decide +kernel },
     { partition := 1, records := [newerRecord], start := 0, finish := 1, own := by decide +kernel
       within := by decide +kernel, ordered := by decide +kernel
       start_nonneg := by decide +kernel }]
  distinct := by decide +kernel

def oneOfAll : Query := { newestQuery with partition := -1, limit := 1, scanLimit := 1 }

/-- One poll for one record gives the older. -/
theorem older_scanned : ¬ NewestScanned noFloats twoTopic oneOfAll := by
  intro h
  have hq : validateQuery oneOfAll = .ok oneOfAll := by decide +kernel
  obtain ⟨newest, ⟨-, -, rest, hrest, hleast⟩, hperm⟩ := h.delivered hq rfl
    (by decide +kernel)
    (takes_one [] [[newerRecord]] [olderRecord]) (by decide +kernel) (.inl (by decide +kernel))
  have hnewest : newest = [olderRecord] := List.perm_singleton.1 hperm.symm
  rw [hnewest] at hrest hleast
  have hmem : newerRecord ∈ [olderRecord] ++ rest :=
    hrest.mem_iff.2 (show newerRecord ∈ content twoTopic oneOfAll by decide +kernel)
  have hnewer : newerRecord ∈ rest := by
    rcases List.mem_append.1 hmem with hold | hnew
    · exact absurd hold (by decide +kernel)
    · exact hnew
  exact absurd (hleast olderRecord (by simp) newerRecord hnewer) (by decide +kernel)

end KafkaManager.Message
