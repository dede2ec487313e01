import KafkaManager.Proofs.SamplingInvariant

/-!
# What the dashboard shows

`Read` gives one snapshot for each enabled cluster, and each is what the log
says: the last result committed since the cluster was added or its connection
changed, or that nothing has been measured yet. The history has the points of
those results, without gaps and in the order of the commits, as far back as the
limit allows.
-/

namespace KafkaManager.Dashboard

open Lib

/-- What a snapshot shows of a cluster: its present name and mode, and the
newest result for its connection, if there is one. -/
structure Shows (log : List Moment) (cfg : ClusterConfig) (snapshot : Snapshot) : Prop where
  id : snapshot.id = cfg.id
  name : snapshot.name = cfg.name
  readOnly : snapshot.readOnly = cfg.readOnly
  content : (commits cfg.id log = [] ∧ snapshot = loadingSnapshot cfg) ∨
    ∃ c rest, commits cfg.id log = c :: rest ∧
      snapshot = { c.result.snapshot with name := cfg.name, readOnly := cfg.readOnly } ∧
      sameConnection cfg c.result.cfg = true ∧ Answered log c.result

theorem Known.shows {m : Sampling} (h : Known m) {cfg : ClusterConfig}
    (hcfg : cfg ∈ m.sampler.configs) :
    Shows m.log cfg
      (m.sampler.items[cfg.id]?.getD { id := "", name := "", readOnly := false }) := by
  have hentry := entry_of_mem h.follows.distinct hcfg
  rw [h.follows.item cfg.id, hentry, Option.map_some, Option.getD_some]
  cases hcommits : commits cfg.id m.log with
  | nil => exact ⟨rfl, rfl, rfl, .inl ⟨hcommits, rfl⟩⟩
  | cons c rest =>
      obtain ⟨hid, hsame, hanswered, -⟩ :=
        h.follows.source cfg.id cfg hentry c (hcommits ▸ List.mem_cons_self)
      have hsnapshot : c.result.snapshot.id = cfg.id := by
        obtain ⟨raw, now, -, hraw⟩ := hanswered
        rw [hraw, ← hid]
        rfl
      refine ⟨rfl, rfl, rfl, .inr ⟨c, rest, hcommits, ?_, hsame, hanswered⟩⟩
      rw [shown, ← hsnapshot]

/-- In every run, `Read` shows each enabled cluster of the last `Update` once,
in that order, and nothing that was measured through another connection. -/
theorem read_shows {configs : List ClusterConfig} (hd : DistinctIDs configs) (options : Options)
    {events : List SamplingEvent} (hevents : ∀ e ∈ events, e.Distinct) :
    let m := run Sampling.step (Sampling.new configs options) events
    List.Forall₂ (Shows m.log) (enabledIn m.log) m.sampler.read.1 := by
  intro m
  have h : Known m := Known.run hd options hevents
  rw [← h.follows.configs, Sampler.read, List.forall₂_map_right_iff, List.forall₂_same]
  exact fun cfg hcfg => h.shows hcfg

/-! The source is slow, and the cluster gets another broker in the meantime. -/

def localCluster (broker : String) : ClusterConfig :=
  { id := "local", name := "local", brokers := [broker], enabled := none, readOnly := false
    security := { protocol := "PLAINTEXT", mechanism := "", username := "", password := ""
                  tls := false } }

theorem localCluster_distinct (broker : String) : DistinctIDs [localCluster broker] :=
  List.nodup_singleton _

def onlineSnapshot : Snapshot :=
  { id := "", name := "", readOnly := false, online := true, lagAvailable := true, totalLag := 7 }

def slowAnswer : List SamplingEvent :=
  [.start 0, .call 0, .update [localCluster "b:9092"] ⟨0, 0, 0⟩, .answer 0 onlineSnapshot none 5,
    .commit fun _ => 6]

theorem slowAnswer_distinct : ∀ e ∈ slowAnswer, e.Distinct := by
  simp [slowAnswer, SamplingEvent.Distinct, localCluster_distinct]

theorem read_shows_slowAnswer :
    let m := run Sampling.step (Sampling.new [localCluster "a:9092"] ⟨0, 0, 0⟩) slowAnswer
    m.sampler.read.1.map Snapshot.status = [.loading] ∧
      List.Forall₂ (Shows m.log) [localCluster "b:9092"] m.sampler.read.1 :=
  ⟨rfl, read_shows (localCluster_distinct "a:9092") ⟨0, 0, 0⟩ slowAnswer_distinct⟩

/-- In every run, the history of an enabled cluster is a final piece of its
points, no longer than the limit, and all that the limit allows if the limit
has been one since the cluster was added or its connection changed. A cluster
that is not enabled has none. -/
theorem history_kept {configs : List ClusterConfig} (hd : DistinctIDs configs) (options : Options)
    {events : List SamplingEvent} (hevents : ∀ e ∈ events, e.Distinct) (id : String) :
    let m := run Sampling.step (Sampling.new configs options) events
    let limit := (optionsIn m.log).historyPoints
    (entry (enabledIn m.log) id = none → m.sampler.history[id]? = none) ∧
      ∀ cfg, entry (enabledIn m.log) id = some cfg → ∃ l, m.sampler.history[id]? = some l ∧
        l <:+ points (commits id m.log) ∧ (l.length : Int) ≤ limit ∧
        ((∀ n ∈ limits id m.log, n = limit) →
          (l.length : Int) = min ((points (commits id m.log)).length : Int) limit) := by
  intro m limit
  have h : Known m := Known.run hd options hevents
  have hoptions : limit = m.sampler.options.historyPoints := by rw [h.follows.options]
  rw [← h.follows.configs]
  refine ⟨h.follows.dropped id, fun cfg hentry => ?_⟩
  obtain ⟨l, hl, hkept⟩ := h.follows.kept id cfg hentry
  rw [← hoptions] at hkept
  refine ⟨l, hl, hkept.suffix, hkept.length, fun hsteady => ?_⟩
  have hnormal := (h.follows.normal (List.ne_nil_of_mem (entry_mem hentry))).historyPoints
  rw [hkept.steady hsteady]
  exact length_lastPoints (by omega) _

/-! The cluster is measured twice, and keeps its broker under a new limit. -/

def measuredTwice : List SamplingEvent :=
  [.start 0, .call 0, .answer 0 onlineSnapshot none 1000000, .commit fun _ => 6,
    .update [localCluster "a:9092"] ⟨0, 2, 0⟩, .start 20, .call 0,
    .answer 0 onlineSnapshot none 2000000, .commit fun _ => 26]

theorem measuredTwice_distinct : ∀ e ∈ measuredTwice, e.Distinct := by
  simp [measuredTwice, SamplingEvent.Distinct, localCluster_distinct]

theorem history_kept_measuredTwice :
    let m := run Sampling.step (Sampling.new [localCluster "a:9092"] ⟨0, 0, 0⟩) measuredTwice
    (points (commits "local" m.log)).map Point.timestamp = [1, 2] ∧
      ∃ l, m.sampler.history["local"]? = some l ∧ l <:+ points (commits "local" m.log) ∧
        (l.length : Int) ≤ 2 := by
  obtain ⟨l, hl, hsuffix, hlength, -⟩ :=
    (history_kept (localCluster_distinct "a:9092") ⟨0, 0, 0⟩
      measuredTwice_distinct "local").2 (localCluster "a:9092") rfl
  exact ⟨by decide, l, hl, hsuffix, hlength⟩

end KafkaManager.Dashboard
