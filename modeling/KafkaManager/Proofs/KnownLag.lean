import KafkaManager.Dashboard.Source
import KafkaManager.Proofs.SamplingInvariant
import Mathlib.Algebra.BigOperators.Group.List.Basic

/-!
# Whether the lag that is shown is known

The answer of `Lag` has an error of its own for every group. `Snapshot` looks at
the error of the whole call only and adds up what the groups have, so its total
is of all groups if and only if no group has failed and the sum is an `int64`.
The sampler trusts `LagAvailable`, and keeps a point with the same total.
-/

namespace KafkaManager.Dashboard

open Lib Cluster

/-- The answer of `Lag` for these groups, by group. -/
structure LagAnswer (groups : List String) where
  lags : List DescribedLag
  distinct : (lags.map DescribedLag.group).Nodup
  asked : ∀ l ∈ lags, l.group ∈ groups

/-- What Kafka has answered: the groups, and their lag if it was asked for. -/
structure Described where
  groups : Option (List String)
  lags : Option (Except String (List DescribedLag))

/-- Kafka answers what it likes. A listing names a group once. -/
def describe : (c : SourceCmd) → Described → c.Answer → Described → Prop
  | .listGroups _, d, r, d' =>
      (∀ groups, r = .ok groups → groups.Nodup) ∧ d' = { d with groups := r.toOption }
  | .lag _ groups, d, r, d' =>
      (∃ e, r = .error e ∧ d' = { d with lags := some (.error e) }) ∨
        ∃ a : LagAnswer groups, r = .ok a.lags ∧ d' = { d with lags := some (.ok a.lags) }
  | .kafka _, d, _, d' => d' = d
  | .beginUpsert _, d, _, d' => d' = d
  | .awaitUpsert _, d, _, d' => d' = d
  | .errorText _, d, _, d' => d' = d
  | .now, d, _, d' => d' = d
  | .listBrokers _, d, _, d' => d' = d
  | .listTopics _, d, _, d' => d' = d

def undescribed : Described := { groups := none, lags := none }

/-- The lag of a group could be computed. -/
def KnownLag (lags : List DescribedLag) (group : String) (n : Int) : Prop :=
  ∃ l ∈ lags, l.group = group ∧ l.error = none ∧ l.total = n

/-- Every group that is listed has a lag, and this is their sum. -/
def Complete (d : Described) (total : Int) : Prop :=
  ∃ groups lag, d.groups = some groups ∧ total = (groups.map lag).sum ∧
    ∀ group ∈ groups, ∃ lags, d.lags = some (.ok lags) ∧ KnownLag lags group (lag group)

/-- Lag that is available is that of all groups, in the snapshot and in the
points the sampler keeps of it. -/
def LagShown (d : Described) (snapshot : Snapshot) : Prop :=
  (snapshot.lagAvailable = true → Complete d snapshot.totalLag) ∧
    ∀ (s : Sampler) (cfg : ClusterConfig) (now : Int) (id : String),
      ∀ p ∈ (s.keepResult cfg.id (normalizeSnapshot snapshot cfg now) now).history[id]?.getD [],
        p ∈ s.history[id]?.getD [] ∨ Complete d p.totalLag

/-- If the lag was answered at all, then of every group that is listed. -/
def EveryGroupAnswered (d : Described) : Prop :=
  ∀ groups lags, d.groups = some groups → d.lags = some (.ok lags) →
    ∀ group ∈ groups, ∃ l ∈ lags, l.group = group ∧ l.error = none

/-- What is added up is an `int64`. -/
def SumFits (d : Described) : Prop :=
  ∀ lags, d.lags = some (.ok lags) → fits64 (lags.map DescribedLag.total).sum = true

/-! ## The sum -/

/-- It does not matter where the sum wraps. -/
theorem sumLag_eq (lags : List DescribedLag) :
    KafkaSource.sumLag lags = wrap64 (lags.map DescribedLag.total).sum := by
  have hfold : ∀ total : Int,
      lags.foldl (fun total group => wrap64 (total + group.total)) (wrap64 total) =
        wrap64 (total + (lags.map DescribedLag.total).sum) := by
    induction lags with
    | nil => simp
    | cons l lags ih =>
        intro total
        rw [List.foldl_cons, wrap64_add, ih, List.map_cons, List.sum_cons, Int.add_assoc]
  have hzero := hfold 0
  rw [Int.zero_add] at hzero
  exact hzero

/-- What is known of every group determines the sum. -/
theorem sum_known {groups : List String} (hgroups : groups.Nodup) (a : LagAnswer groups)
    {lag : String → Int} (h : ∀ group ∈ groups, KnownLag a.lags group (lag group)) :
    (groups.map lag).sum = (a.lags.map DescribedLag.total).sum := by
  have hlag : ∀ l ∈ a.lags, lag l.group = l.total := by
    intro l hl
    obtain ⟨l', hl', hgroup, -, htotal⟩ := h l.group (a.asked l hl)
    rw [← htotal, List.inj_on_of_nodup_map a.distinct hl' hl hgroup]
  have hperm : (a.lags.map DescribedLag.group).Perm groups := by
    rw [List.perm_ext_iff_of_nodup a.distinct hgroups]
    intro group
    constructor
    · intro hmem
      obtain ⟨l, hl, rfl⟩ := List.mem_map.1 hmem
      exact a.asked l hl
    · intro hmem
      obtain ⟨l, hl, rfl, -⟩ := h group hmem
      exact List.mem_map.2 ⟨l, hl, rfl⟩
  rw [← (hperm.map lag).sum_eq, List.map_map]
  exact congrArg List.sum (List.map_congr_left hlag)

theorem lags_answered {groups : List String} {lags : List DescribedLag}
    (h : ∀ group ∈ groups, ∃ l ∈ lags, l.group = group ∧ l.error = none) :
    ∃ lag : String → Int, ∀ group ∈ groups, KnownLag lags group (lag group) := by
  have hknown : ∀ group, ∃ n, group ∈ groups → KnownLag lags group n := by
    intro group
    by_cases hgroup : group ∈ groups
    · obtain ⟨l, hl, hname, herror⟩ := h group hgroup
      exact ⟨l.total, fun _ => ⟨l, hl, hname, herror, rfl⟩⟩
    · exact ⟨0, fun h => absurd h hgroup⟩
  exact Classical.skolem.1 hknown

/-! ## Runs of `Snapshot` -/

/-- How a snapshot may end: without lag, with no groups, with the error of the
call, or with its sum. -/
inductive Measured (d : Described) (snapshot : Snapshot) : Prop
  | offline (available : snapshot.lagAvailable = false) (lags : d.lags = none)
  | noGroups (groups : d.groups = some []) (lags : d.lags = none) (total : snapshot.totalLag = 0)
  | failed (e : String) (available : snapshot.lagAvailable = false)
      (lags : d.lags = some (.error e))
  | answered (groups : List String) (a : LagAnswer groups) (hgroups : groups.Nodup)
      (listed : d.groups = some groups) (available : snapshot.lagAvailable = true)
      (lags : d.lags = some (.ok a.lags))
      (total : snapshot.totalLag = wrap64 (a.lags.map DescribedLag.total).sum)

theorem measure_runs {client : Client} {snapshot : Snapshot} {d d' : Described}
    (hd : d.lags = none) (h : (KafkaSource.measure client).Runs describe d snapshot d') :
    Measured d' snapshot := by
  simp only [KafkaSource.measure, SourceCmd.perform, Prog.call_bind, Prog.runs_cmd] at h
  obtain ⟨start, d₁, rfl, brokers, d₂, rfl, h⟩ := h
  cases brokers with
  | error e =>
      obtain ⟨rfl, rfl⟩ := h
      exact .offline rfl hd
  | ok brokers =>
      simp only [Prog.runs_cmd] at h
      obtain ⟨topics, d₃, rfl, h⟩ := h
      cases topics with
      | error e =>
          obtain ⟨rfl, rfl⟩ := h
          exact .offline rfl hd
      | ok topics =>
          simp only [Prog.runs_cmd] at h
          obtain ⟨groups, d₄, ⟨hgroups, hd₄⟩, h⟩ := h
          cases groups with
          | error e =>
              obtain ⟨rfl, rfl⟩ := h
              exact .offline rfl (hd₄ ▸ hd)
          | ok groups =>
              have hlisted : d₄.groups = some groups := hd₄ ▸ rfl
              have hlags : d₄.lags = none := hd₄ ▸ hd
              simp only [Prog.runs_cmd] at h
              obtain ⟨finish, d₅, rfl, h⟩ := h
              split at h
              · next hnone =>
                  obtain ⟨rfl, rfl⟩ := h
                  rw [List.isEmpty_iff.1 hnone] at hlisted
                  exact .noGroups hlisted hlags rfl
              · simp only [Prog.runs_cmd] at h
                obtain ⟨lags, d₆, henv, rfl, rfl⟩ := h
                rcases henv with ⟨e, rfl, rfl⟩ | ⟨a, rfl, rfl⟩
                · exact .failed e rfl rfl
                · exact .answered groups a (hgroups groups rfl) hlisted rfl rfl (sumLag_eq a.lags)

theorem snapshot_runs {cfg : ClusterConfig} {snapshot : Snapshot} {d : Described}
    (h : (KafkaSource.snapshot cfg).Runs describe undescribed snapshot d) :
    Measured d snapshot := by
  simp only [KafkaSource.snapshot, SourceCmd.perform, Prog.call_bind, Prog.runs_cmd] at h
  obtain ⟨client, d₁, rfl, h⟩ := h
  cases client with
  | some client => exact measure_runs rfl h
  | none =>
      simp only [Prog.runs_cmd] at h
      obtain ⟨o, d₂, rfl, err, d₃, rfl, h⟩ := h
      cases err with
      | some err =>
          simp only [Prog.runs_cmd] at h
          obtain ⟨text, d₄, rfl, rfl, rfl⟩ := h
          exact .offline rfl rfl
      | none =>
          simp only [Prog.runs_cmd] at h
          obtain ⟨client, d₄, rfl, h⟩ := h
          cases client with
          | none =>
              obtain ⟨rfl, rfl⟩ := h
              exact .offline rfl rfl
          | some client => exact measure_runs rfl h

/-- The points after a result are those before it, and one with its total if
its lag is available. -/
theorem mem_history {s : Sampler} {cfg : ClusterConfig} {snapshot : Snapshot} {now : Int}
    {id : String} {p : Point}
    (h : p ∈ (s.keepResult cfg.id (normalizeSnapshot snapshot cfg now) now).history[id]?.getD []) :
    p ∈ s.history[id]?.getD [] ∨ snapshot.lagAvailable = true ∧ p.totalLag = snapshot.totalLag := by
  unfold Sampler.keepResult at h
  dsimp only at h
  split at h
  · split at h
    · exact .inl h
    · exact .inl h
  · split at h
    · exact .inl h
    · next havailable =>
        rw [GoMap.get_insert] at h
        split at h
        · next hid =>
            rw [Option.getD_some] at h
            rcases List.mem_append.1 ((lastPoints_suffix _ _).subset h) with hold | hnew
            · rw [← hid]
              exact .inl hold
            · rw [List.mem_singleton.1 hnew]
              exact .inr ⟨by simpa [normalizeSnapshot] using havailable, rfl⟩
        · exact .inl h

/-! ## What an answer makes of the total -/

section

variable {d : Described}

/-- Where nothing was answered there is nothing to be known. -/
theorem answered_of_none (h : ∀ lags, d.lags ≠ some (.ok lags)) :
    EveryGroupAnswered d ∧ SumFits d :=
  ⟨fun _ lags _ hlags => absurd hlags (h lags), fun lags hlags => absurd hlags (h lags)⟩

variable {groups : List String} {a : LagAnswer groups} {total : Int}

theorem answered_of_complete (hnodup : groups.Nodup) (hlisted : d.groups = some groups)
    (hanswered : d.lags = some (.ok a.lags))
    (htotal : total = wrap64 (a.lags.map DescribedLag.total).sum) (h : Complete d total) :
    EveryGroupAnswered d ∧ SumFits d := by
  obtain ⟨groups', lag, hgroups', hsum, hknown⟩ := h
  obtain rfl := Option.some.inj (hlisted.symm.trans hgroups')
  have hknown' : ∀ group ∈ groups, KnownLag a.lags group (lag group) := by
    intro group hgroup
    obtain ⟨lags, hlags, hlag⟩ := hknown group hgroup
    obtain rfl := Except.ok.inj (Option.some.inj (hanswered.symm.trans hlags))
    exact hlag
  constructor
  · intro groups' lags hgroups hlags group hgroup
    obtain rfl := Option.some.inj (hlisted.symm.trans hgroups)
    obtain rfl := Except.ok.inj (Option.some.inj (hanswered.symm.trans hlags))
    obtain ⟨l, hl, hname, herror, -⟩ := hknown' group hgroup
    exact ⟨l, hl, hname, herror⟩
  · intro lags hlags
    obtain rfl := Except.ok.inj (Option.some.inj (hanswered.symm.trans hlags))
    rw [sum_known hnodup a hknown', htotal] at hsum
    rw [← hsum]
    exact decide_eq_true (wrap64_range _)

theorem complete_of_answered (hnodup : groups.Nodup) (hlisted : d.groups = some groups)
    (hanswered : d.lags = some (.ok a.lags))
    (htotal : total = wrap64 (a.lags.map DescribedLag.total).sum) (hevery : EveryGroupAnswered d)
    (hfits : SumFits d) : Complete d total := by
  obtain ⟨lag, hknown⟩ := lags_answered (hevery groups a.lags hlisted hanswered)
  obtain ⟨hlow, hhigh⟩ := of_decide_eq_true (hfits a.lags hanswered)
  rw [wrap64_fits hlow hhigh, ← sum_known hnodup a hknown] at htotal
  exact ⟨groups, lag, hlisted, htotal, fun group hgroup =>
    ⟨a.lags, hanswered, hknown group hgroup⟩⟩

end

/-- What is shown as lag is known if and only if every group was answered and
the sum of the answers is an `int64`. -/
theorem lag_shown {cfg : ClusterConfig} {snapshot : Snapshot} {d : Described}
    (h : (KafkaSource.snapshot cfg).Runs describe undescribed snapshot d) :
    LagShown d snapshot ↔ EveryGroupAnswered d ∧ SumFits d := by
  have hmeasured := snapshot_runs h
  constructor
  · rintro ⟨hshown, -⟩
    cases hmeasured with
    | offline available hnone => exact answered_of_none (by simp [hnone])
    | noGroups hempty hnone => exact answered_of_none (by simp [hnone])
    | failed e available hfailed => exact answered_of_none (by simp [hfailed])
    | answered groups a hnodup listed available hanswered total =>
        exact answered_of_complete hnodup listed hanswered total (hshown available)
  · rintro ⟨hevery, hfits⟩
    have hcomplete : snapshot.lagAvailable = true → Complete d snapshot.totalLag := by
      intro havailable
      cases hmeasured with
      | offline available hnone => rw [available] at havailable; cases havailable
      | noGroups hempty hnone total => exact ⟨[], fun _ => 0, hempty, total, by simp⟩
      | failed e available hfailed => rw [available] at havailable; cases havailable
      | answered groups a hnodup listed available hanswered total =>
          exact complete_of_answered hnodup listed hanswered total hevery hfits
    refine ⟨hcomplete, fun s cfg now id p hp => ?_⟩
    rcases mem_history hp with hold | ⟨havailable, htotal⟩
    · exact .inl hold
    · rw [htotal]
      exact .inr (hcomplete havailable)

/-! ## Two groups -/

/-- Kafka may give any answer to a listing that names a group. -/
theorem snapshot_answers (cfg : ClusterConfig) {groups : List String} (hne : groups ≠ [])
    (hgroups : groups.Nodup) (a : LagAnswer groups) :
    ∃ snapshot, (KafkaSource.snapshot cfg).Runs describe undescribed snapshot
        { groups := some groups, lags := some (.ok a.lags) } ∧
      snapshot.lagAvailable = true ∧ snapshot.totalLag = KafkaSource.sumLag a.lags := by
  obtain ⟨result, hresult⟩ : ∃ result, result = KafkaSource.online 0 1 [] groups := ⟨_, rfl⟩
  refine ⟨KafkaSource.recordLag result (.ok (KafkaSource.sumLag a.lags)), ?_, rfl, rfl⟩
  have hlisted : (if groups.isEmpty then Prog.ret (KafkaSource.recordLag result (.ok 0))
      else Prog.cmd (SourceCmd.lag ⟨0, cfg, true⟩ groups) fun lags =>
        Prog.ret (KafkaSource.recordLag result (lags.map KafkaSource.sumLag))).Runs describe
      { groups := some groups, lags := none }
      (KafkaSource.recordLag result (.ok (KafkaSource.sumLag a.lags)))
      { groups := some groups, lags := some (.ok a.lags) } := by
    rw [if_neg (by simpa using hne)]
    exact ⟨.ok a.lags, _, .inr ⟨a, rfl, rfl⟩, rfl, rfl⟩
  rw [hresult] at hlisted ⊢
  exact ⟨some ⟨0, cfg, true⟩, undescribed, rfl, 0, undescribed, rfl, .ok 1, undescribed, rfl, .ok [],
    undescribed, rfl, .ok groups, { groups := some groups, lags := none },
    ⟨fun _ h => Except.ok.inj h ▸ hgroups, rfl⟩, 0, _, rfl, hlisted⟩

def billingLag : DescribedLag := { group := "billing", error := none, total := 5 }

def ordersLag : DescribedLag := { group := "orders", error := none, total := 7 }

/-- The lag of both groups is there. -/
def bothAnswers : LagAnswer ["billing", "orders"] where
  lags := [ordersLag, billingLag]
  distinct := by decide +kernel
  asked := by decide +kernel

/-- That of one is not. -/
def oneAnswer : LagAnswer ["billing", "orders"] where
  lags := [billingLag, { group := "orders", error := some "COORDINATOR_NOT_AVAILABLE", total := 0 }]
  distinct := by decide +kernel
  asked := by decide +kernel

/-- What Kafka has answered about the two. -/
abbrev describedTwo (a : LagAnswer ["billing", "orders"]) : Described :=
  { groups := some ["billing", "orders"], lags := some (.ok a.lags) }

theorem lag_shown_both :
    ∃ snapshot, (KafkaSource.snapshot (plainCluster "dev" "localhost:9092")).Runs describe
        undescribed snapshot (describedTwo bothAnswers) ∧
      snapshot.totalLag = 12 ∧ LagShown (describedTwo bothAnswers) snapshot := by
  obtain ⟨snapshot, hruns, -, htotal⟩ := snapshot_answers (plainCluster "dev" "localhost:9092")
    (by decide) (by decide) bothAnswers
  refine ⟨snapshot, hruns, htotal.trans (by decide), (lag_shown hruns).2 ⟨?_, ?_⟩⟩
  · rintro groups lags hgroups hlags group hgroup
    obtain rfl := Option.some.inj hgroups
    obtain rfl := Except.ok.inj (Option.some.inj hlags)
    rcases List.mem_pair.1 hgroup with rfl | rfl
    · exact ⟨billingLag, by simp [bothAnswers], rfl, rfl⟩
    · exact ⟨ordersLag, by simp [bothAnswers], rfl, rfl⟩
  · intro lags hlags
    obtain rfl := Except.ok.inj (Option.some.inj hlags)
    have hsum : (bothAnswers.lags.map DescribedLag.total).sum = 12 := rfl
    rw [hsum]
    decide

/-- The total of one group is shown for both. -/
theorem lag_shown_two :
    ∃ snapshot, (KafkaSource.snapshot (plainCluster "dev" "localhost:9092")).Runs describe
        undescribed snapshot (describedTwo oneAnswer) ∧
      snapshot.totalLag = 5 ∧ ¬ LagShown (describedTwo oneAnswer) snapshot := by
  obtain ⟨snapshot, hruns, havailable, htotal⟩ :=
    snapshot_answers (plainCluster "dev" "localhost:9092") (by decide) (by decide) oneAnswer
  refine ⟨snapshot, hruns, htotal.trans (by decide), fun ⟨hshown, _⟩ => ?_⟩
  obtain ⟨groups, lag, hgroups, -, hknown⟩ := hshown havailable
  obtain rfl := Option.some.inj hgroups
  obtain ⟨lags, hlags, l, hl, hname, herror, -⟩ := hknown "orders" (by decide)
  obtain rfl := Except.ok.inj (Option.some.inj hlags)
  have hnone : ∀ l ∈ oneAnswer.lags, l.group = "orders" → l.error ≠ none := by decide
  exact hnone l hl hname herror

end KafkaManager.Dashboard
