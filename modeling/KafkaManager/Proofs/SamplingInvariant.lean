import Mathlib.Data.List.DropRight
import Mathlib.Algebra.Order.Ring.Int
import Mathlib.Tactic.Ring
import KafkaManager.Dashboard.Refresh

/-!
# The sampler is what its history says

What the sampler holds is determined by what happened: by the last `Update`,
and for each cluster by the results that were committed since the cluster was
added or its connection changed last. This file reads both off the log
(`enabledIn`, `optionsIn`, `commits`) and says from them what the sampler is to
show (`shown`), which points it has (`points`) and when it tries again
(`retryOf`). `Follows` is that it does, and every step keeps it.

The proof is about two steps. An `Update` begins a new list of commits for a
cluster or goes on with the old one, and the sampler makes the same choice by
comparing connections; a commit puts one result in front. Everything else
leaves both sides alone.
-/

namespace KafkaManager.Dashboard

open Lib

/-! ## Reading the log -/

/-- The clusters of the last `Update`. -/
def enabledIn : List Moment → List ClusterConfig
  | [] => []
  | .updated configs _ :: _ => configs
  | .started _ :: rest | .ended :: rest | .called _ :: rest | .answered .. :: rest
  | .committed _ :: rest | .finished :: rest => enabledIn rest

def optionsIn : List Moment → Options
  | [] => ⟨0, 0, 0⟩
  | .updated _ options :: _ => options
  | .started _ :: rest | .ended :: rest | .called _ :: rest | .answered .. :: rest
  | .committed _ :: rest | .finished :: rest => optionsIn rest

/-- The entry of an id. -/
def entry (configs : List ClusterConfig) (id : String) : Option ClusterConfig :=
  configs.find? fun cfg => cfg.id == id

/-- The cluster is in both lists, with one connection. -/
def stays (before after : List ClusterConfig) (id : String) : Bool :=
  match entry before id, entry after id with
  | some old, some new => sameConnection old new
  | _, _ => false

/-- The results committed for a cluster since it was last added or its
connection last changed, the newest first. -/
def commits (id : String) : List Moment → List Commit
  | [] => []
  | .updated configs _ :: rest =>
      if stays (enabledIn rest) configs id then commits id rest else []
  | .committed c :: rest =>
      if c.result.cfg.id = id then c :: commits id rest else commits id rest
  | .started _ :: rest | .ended :: rest | .called _ :: rest | .answered .. :: rest
  | .finished :: rest => commits id rest

/-- The values `HistoryPoints` has had in that time. -/
def limits (id : String) : List Moment → List Int
  | [] => []
  | .updated configs options :: rest =>
      options.historyPoints :: if stays (enabledIn rest) configs id then limits id rest else []
  | .started _ :: rest | .ended :: rest | .called _ :: rest | .answered .. :: rest
  | .committed _ :: rest | .finished :: rest => limits id rest

def Commit.status (c : Commit) : Status := c.result.snapshot.status

/-- The result is a point of the history. -/
def Commit.counted (c : Commit) : Bool :=
  c.status == .online && c.result.snapshot.lagAvailable

/-- The points of these results, in the order of the commits. -/
def points (cs : List Commit) : List Point :=
  (cs.reverse.filter Commit.counted).map fun c => c.result.snapshot.point

/-- The offline results since the last online one, the newest first. -/
def offlines (cs : List Commit) : List Commit :=
  (cs.takeWhile fun c => c.status != .online).filter fun c => c.status == .offline

/-- The delay after `f` failures. -/
def delay (interval : Int) (f : Nat) : Int := min (interval * 2 ^ f) fiveMinutes

/-- The retry entry these results call for. -/
def retryOf (cs : List Commit) : Option RetryState :=
  match offlines cs with
  | [] => none
  | c :: rest => some ⟨(rest.length + 1 : Nat), c.time + delay c.interval (rest.length + 1)⟩

/-- The snapshot these results call for. -/
def shown (cfg : ClusterConfig) : List Commit → Snapshot
  | [] => loadingSnapshot cfg
  | c :: _ =>
      { c.result.snapshot with id := cfg.id, name := cfg.name, readOnly := cfg.readOnly }

/-- The source was called with the configuration of the result and answered
with its snapshot. -/
def Answered (log : List Moment) (r : Result) : Prop :=
  ∃ (raw : Snapshot) (now : Int), Moment.answered r.cfg raw now ∈ log ∧
    r.snapshot = normalizeSnapshot raw r.cfg now

/-- What remains of the points under a limit. -/
structure KeptPoints (limit : Int) (past : List Int) (all kept : List Point) : Prop where
  suffix : kept <:+ all
  length : (kept.length : Int) ≤ limit
  steady : (∀ n ∈ past, n = limit) → kept = lastPoints limit all

/-! ## Connections and entries -/

theorem sameConnection_iff {a b : ClusterConfig} :
    sameConnection a b = true ↔ a.brokers = b.brokers ∧ a.security = b.security := by
  simp [sameConnection]

theorem sameConnection_symm {a b : ClusterConfig} (h : sameConnection a b = true) :
    sameConnection b a = true := by
  rw [sameConnection_iff] at h ⊢
  exact ⟨h.1.symm, h.2.symm⟩

theorem sameConnection_trans {a b c : ClusterConfig} (hab : sameConnection a b = true)
    (hbc : sameConnection b c = true) : sameConnection a c = true := by
  rw [sameConnection_iff] at hab hbc ⊢
  exact ⟨hab.1.trans hbc.1, hab.2.trans hbc.2⟩

theorem entry_id {configs : List ClusterConfig} {id : String} {cfg : ClusterConfig}
    (h : entry configs id = some cfg) : cfg.id = id := by
  simpa using List.find?_some h

theorem entry_mem {configs : List ClusterConfig} {id : String} {cfg : ClusterConfig}
    (h : entry configs id = some cfg) : cfg ∈ configs := List.mem_of_find?_eq_some h

theorem entry_of_mem {configs : List ClusterConfig} (hd : DistinctIDs configs)
    {cfg : ClusterConfig} (h : cfg ∈ configs) : entry configs cfg.id = some cfg := by
  unfold entry
  induction configs with
  | nil => exact absurd h List.not_mem_nil
  | cons c rest ih =>
      rw [DistinctIDs, List.map_cons, List.nodup_cons] at hd
      rcases List.mem_cons.1 h with rfl | hrest
      · rw [List.find?_cons, beq_self_eq_true]
      · have hne : (c.id == cfg.id) = false := by
          rw [beq_eq_false_iff_ne]
          intro heq
          exact hd.1 (heq ▸ List.mem_map_of_mem hrest)
        rw [List.find?_cons, hne]
        exact ih hd.2 hrest

theorem distinct_enabled {configs : List ClusterConfig} (hd : DistinctIDs configs) :
    DistinctIDs (enabledClusters configs) :=
  List.Nodup.sublist (List.Sublist.map _ List.filter_sublist) hd

theorem distinct_reverse {configs : List ClusterConfig} (hd : DistinctIDs configs) :
    DistinctIDs configs.reverse := by
  rw [DistinctIDs, List.map_reverse, List.nodup_reverse]
  exact hd

theorem previousConfig_eq {s : Sampler} (hd : DistinctIDs s.configs) (id : String) :
    s.previousConfig id = entry s.configs id := by
  show entry s.configs.reverse id = _
  cases h : entry s.configs id with
  | some cfg =>
      rw [← entry_id h]
      exact entry_of_mem (distinct_reverse hd) (List.mem_reverse.2 (entry_mem h))
  | none =>
      unfold entry at h ⊢
      rw [List.find?_eq_none] at h ⊢
      exact fun c hc => h c (List.mem_reverse.1 hc)

theorem carriesOver_eq {s : Sampler} (hd : DistinctIDs s.configs) {configs : List ClusterConfig}
    {id : String} {cfg : ClusterConfig} (h : entry configs id = some cfg) :
    s.carriesOver cfg = stays s.configs configs id := by
  unfold Sampler.carriesOver stays
  rw [previousConfig_eq hd, entry_id h, h]
  cases entry s.configs id <;> rfl

theorem stays_entry {before after : List ClusterConfig} {id : String}
    (h : stays before after id = true) : ∃ old new, entry before id = some old ∧
      entry after id = some new ∧ sameConnection old new = true := by
  unfold stays at h
  split at h
  · next old new hold hnew => exact ⟨old, new, hold, hnew, h⟩
  · simp at h

/-! ## Points -/

theorem lastPoints_suffix (n : Int) (l : List Point) : lastPoints n l <:+ l := by
  unfold lastPoints
  split
  · exact List.drop_suffix ..
  · exact List.suffix_refl l

theorem length_lastPoints {n : Int} (hn : 0 ≤ n) (l : List Point) :
    ((lastPoints n l).length : Int) = min (l.length : Int) n := by
  unfold lastPoints
  split
  · rw [List.length_drop]
    omega
  · omega

/-- Suffixes of one list are told apart by their lengths. -/
theorem eq_of_suffix {l a b : List Point} (ha : a <:+ l) (hb : b <:+ l)
    (hlen : a.length = b.length) : a = b := by
  rw [List.suffix_iff_eq_drop] at ha hb
  rw [ha, hb, hlen]

/-- Trimming, adding one and trimming again is trimming once. -/
theorem lastPoints_concat {n : Int} (hn : 1 ≤ n) (l : List Point) (p : Point) :
    lastPoints n (lastPoints n l ++ [p]) = lastPoints n (l ++ [p]) := by
  have hsuffix : lastPoints n l ++ [p] <:+ l ++ [p] := by
    obtain ⟨front, hfront⟩ := lastPoints_suffix n l
    exact ⟨front, by rw [← List.append_assoc, hfront]⟩
  refine eq_of_suffix ((lastPoints_suffix ..).trans hsuffix) (lastPoints_suffix ..) ?_
  have hleft := length_lastPoints (n := n) (by omega) (lastPoints n l ++ [p])
  have hright := length_lastPoints (n := n) (by omega) (l ++ [p])
  have hinner := length_lastPoints (n := n) (by omega) l
  simp only [List.length_append, List.length_cons, List.length_nil] at hleft hright
  omega

theorem lastPoints_idem {n : Int} (hn : 0 ≤ n) (l : List Point) :
    lastPoints n (lastPoints n l) = lastPoints n l := by
  refine eq_of_suffix (lastPoints_suffix ..) (List.suffix_refl _) ?_
  have hleft := length_lastPoints hn (lastPoints n l)
  have hinner := length_lastPoints hn l
  omega

/-- The limit may change. -/
theorem KeptPoints.trim {limit limit' : Int} {past : List Int} {all kept : List Point}
    (h : KeptPoints limit past all kept) (hlimit : limit ∈ past) (hpos : 0 ≤ limit') :
    KeptPoints limit' (limit' :: past) all (lastPoints limit' kept) where
  suffix := (lastPoints_suffix ..).trans h.suffix
  length := by
    have hlen := length_lastPoints hpos kept
    omega
  steady hsteady := by
    have hpast : ∀ n ∈ past, n = limit' := fun n hn => hsteady n (List.mem_cons_of_mem _ hn)
    have hsame : limit = limit' := hpast limit hlimit
    subst hsame
    rw [h.steady hpast, lastPoints_idem hpos]

theorem KeptPoints.add {limit : Int} {past : List Int} {all kept : List Point}
    (h : KeptPoints limit past all kept) (hpos : 1 ≤ limit) (p : Point) :
    KeptPoints limit past (all ++ [p]) (lastPoints limit (kept ++ [p])) where
  suffix := by
    obtain ⟨front, hfront⟩ := h.suffix
    exact (lastPoints_suffix ..).trans ⟨front, by rw [← List.append_assoc, hfront]⟩
  length := by
    have hlen := length_lastPoints (n := limit) (by omega) (kept ++ [p])
    omega
  steady hsteady := by rw [h.steady hsteady, lastPoints_concat hpos]

theorem KeptPoints.empty {limit : Int} (hpos : 0 ≤ limit) :
    KeptPoints limit [limit] [] (lastPoints limit []) where
  suffix := lastPoints_suffix ..
  length := by
    have hlen := length_lastPoints hpos []
    omega
  steady _ := rfl

theorem points_cons (c : Commit) (cs : List Commit) :
    points (c :: cs) =
      if c.counted then points cs ++ [c.result.snapshot.point] else points cs := by
  unfold points
  rw [List.reverse_cons, List.filter_append, List.map_append]
  cases hc : c.counted <;> simp [hc]

/-! ## Delays -/

theorem fiveMinutes_eq : fiveMinutes = 300000000000 := by decide

/-- The loop of `failureBackoff` doubles and stops at five minutes. Doubling
what is below half of that does not overflow. -/
theorem backoffLoop_eq (n : Nat) {d : Int} (hd : 0 < d) : backoffLoop n d = delay d n := by
  induction n generalizing d with
  | zero =>
      unfold backoffLoop delay
      split <;> omega
  | succ n ih =>
      have hpow : (1 : Int) ≤ 2 ^ n := one_le_pow₀ (by omega)
      have hdouble : d * 2 ^ (n + 1) = d * 2 * 2 ^ n := by ring
      unfold backoffLoop
      split
      · have hlong : d * 2 ≤ d * 2 * 2 ^ n := le_mul_of_one_le_right (by omega) hpow
        have hhalf : fiveMinutes / 2 = 150000000000 := by decide
        have hfull := fiveMinutes_eq
        unfold delay
        rw [hdouble]
        omega
      · have hhalf : fiveMinutes / 2 = 150000000000 := by decide
        have hfits : Int.bmod (d * 2) (2 ^ 64) = d * 2 := by
          rw [Int.bmod_eq_of_le] <;> omega
        rw [hfits, ih (by omega), delay, delay, hdouble]

theorem failureBackoff_eq {interval : Int} (h : 0 < interval) (f : Nat) :
    failureBackoff interval f = delay interval f := by
  unfold failureBackoff
  rw [if_neg (by omega), Int.toNat_natCast]
  exact backoffLoop_eq f h

theorem offlines_online {c : Commit} {cs : List Commit} (h : c.status = .online) :
    offlines (c :: cs) = [] := by
  simp [offlines, h]

theorem offlines_offline {c : Commit} {cs : List Commit} (h : c.status = .offline) :
    offlines (c :: cs) = c :: offlines cs := by
  simp [offlines, h]

theorem offlines_other {c : Commit} {cs : List Commit} (hon : c.status ≠ .online)
    (hoff : c.status ≠ .offline) : offlines (c :: cs) = offlines cs := by
  simp [offlines, hon, hoff]

theorem length_offlines_retry (cs : List Commit) :
    ((retryOf cs).getD ⟨0, 0⟩).failures = (offlines cs).length := by
  unfold retryOf
  split
  · next h => rw [h]; rfl
  · next h => rw [h]; rfl

theorem shown_renamed (old cfg : ClusterConfig) (cs : List Commit) :
    { shown old cs with id := cfg.id, name := cfg.name, readOnly := cfg.readOnly } =
      shown cfg cs := by
  cases cs <;> rfl

/-! ## The invariant -/

/-- What `normalizeOptions` makes sure of. -/
structure Options.Normal (options : Options) : Prop where
  interval : 0 < options.interval
  historyPoints : 2 ≤ options.historyPoints
  maxConcurrent : 1 ≤ options.maxConcurrent

/-- The sampler is what the log says. -/
structure Follows (s : Sampler) (log : List Moment) : Prop where
  distinct : DistinctIDs s.configs
  configs : s.configs = enabledIn log
  options : s.options = optionsIn log
  normal : s.configs ≠ [] → s.options.Normal
  limit : ∀ id cfg, entry s.configs id = some cfg → s.options.historyPoints ∈ limits id log
  source : ∀ id cfg, entry s.configs id = some cfg → ∀ c ∈ commits id log,
    c.result.cfg.id = id ∧ sameConnection cfg c.result.cfg = true ∧ Answered log c.result ∧
      0 < c.interval
  item : ∀ id, s.items[id]? = (entry s.configs id).map fun cfg => shown cfg (commits id log)
  kept : ∀ id cfg, entry s.configs id = some cfg → ∃ l, s.history[id]? = some l ∧
    KeptPoints s.options.historyPoints (limits id log) (points (commits id log)) l
  dropped : ∀ id, entry s.configs id = none → s.history[id]? = none
  retry : ∀ id, s.retries[id]? = (entry s.configs id).bind fun _ => retryOf (commits id log)

/-- What neither replaces the configurations nor stores a result. -/
def Moment.Quiet : Moment → Prop
  | .updated .. | .committed _ => False
  | .started _ | .ended | .called _ | .answered .. | .finished => True

section Quiet

variable {x : Moment} (hx : x.Quiet) (log : List Moment)

include hx

theorem enabledIn_quiet : enabledIn (x :: log) = enabledIn log := by
  cases x <;> first | rfl | exact hx.elim

theorem optionsIn_quiet : optionsIn (x :: log) = optionsIn log := by
  cases x <;> first | rfl | exact hx.elim

theorem commits_quiet (id : String) : commits id (x :: log) = commits id log := by
  cases x <;> first | rfl | exact hx.elim

theorem limits_quiet (id : String) : limits id (x :: log) = limits id log := by
  cases x <;> first | rfl | exact hx.elim

end Quiet

theorem mem_of_mem_commits {id : String} {log : List Moment} {c : Commit}
    (h : c ∈ commits id log) : Moment.committed c ∈ log := by
  induction log with
  | nil => exact absurd h List.not_mem_nil
  | cons x rest ih =>
      cases x with
      | updated configs options =>
          unfold commits at h
          split at h
          · exact List.mem_cons_of_mem _ (ih h)
          · exact absurd h List.not_mem_nil
      | committed c' =>
          unfold commits at h
          split at h
          · rcases List.mem_cons.1 h with rfl | hrest
            · exact List.mem_cons_self
            · exact List.mem_cons_of_mem _ (ih hrest)
          · exact List.mem_cons_of_mem _ (ih h)
      | started | ended | called | answered | finished => exact List.mem_cons_of_mem _ (ih h)

theorem Answered.cons {log : List Moment} {r : Result} (h : Answered log r) (x : Moment) :
    Answered (x :: log) r := by
  obtain ⟨raw, now, hmem, hraw⟩ := h
  exact ⟨raw, now, List.mem_cons_of_mem _ hmem, hraw⟩

theorem Follows.quiet {s : Sampler} {log : List Moment} (h : Follows s log) {x : Moment}
    (hx : x.Quiet) : Follows s (x :: log) where
  distinct := h.distinct
  configs := by rw [enabledIn_quiet hx]; exact h.configs
  options := by rw [optionsIn_quiet hx]; exact h.options
  normal := h.normal
  limit id cfg hentry := by rw [limits_quiet hx]; exact h.limit id cfg hentry
  source id cfg hentry c hc := by
    rw [commits_quiet hx] at hc
    obtain ⟨hid, hsame, hanswered, hinterval⟩ := h.source id cfg hentry c hc
    exact ⟨hid, hsame, hanswered.cons x, hinterval⟩
  item id := by rw [commits_quiet hx]; exact h.item id
  kept id cfg hentry := by rw [limits_quiet hx, commits_quiet hx]; exact h.kept id cfg hentry
  dropped := h.dropped
  retry id := by rw [commits_quiet hx]; exact h.retry id

/-! ## An update -/

/-- The retry entry an `Update` carries over. -/
def Sampler.keptRetry (s : Sampler) (cfg : ClusterConfig) : Option RetryState :=
  if s.carriesOver cfg then s.retries[cfg.id]? else none

theorem Sampler.update_retries (s : Sampler) {configs : List ClusterConfig}
    (hd : DistinctIDs configs) (options : Options) (id : String) :
    (s.update configs options).retries[id]? =
      (entry (enabledClusters configs) id).bind s.keptRetry := by
  have hloop := GoMap.get_foldl_insert s.keptRetry (distinct_enabled hd) (∅ : GoMap String _) id
  rw [Std.ExtTreeMap.getElem?_empty, Option.or_none] at hloop
  rw [entry, ← hloop]
  refine congrArg (fun f => (List.foldl f (∅ : GoMap String _) (enabledClusters configs))[id]?) ?_
  funext m cfg
  unfold Sampler.keptRetry
  cases s.retries[cfg.id]? <;> cases s.carriesOver cfg <;> rfl

theorem normalizeOptions_normal (options : Options) : (normalizeOptions options).Normal := by
  have hsecond : second = 1000000000 := rfl
  unfold normalizeOptions
  constructor
  case interval => simp only; split <;> omega
  case historyPoints => simp only; split <;> omega
  case maxConcurrent => simp only; split <;> omega

section Update

variable {s : Sampler} {log : List Moment} (h : Follows s log) {configs : List ClusterConfig}
  (options : Options)

include h

theorem Follows.nextItem {id : String} {cfg : ClusterConfig}
    (hentry : entry (enabledClusters configs) id = some cfg) :
    s.nextItem cfg = shown cfg
      (commits id (.updated (enabledClusters configs) (normalizeOptions options) :: log)) := by
  have hover := carriesOver_eq h.distinct hentry
  unfold Sampler.nextItem commits
  rw [hover, entry_id hentry, h.item id, ← h.configs]
  by_cases hstays : stays s.configs (enabledClusters configs) id = true
  · obtain ⟨old, new, hold, hnew, -⟩ := stays_entry hstays
    rw [hold, hstays]
    simp only [Option.map_some, if_true]
    rw [← entry_id hentry]
    exact shown_renamed old cfg _
  · rw [Bool.not_eq_true] at hstays
    rw [hstays]
    have hid := entry_id hentry
    subst hid
    cases entry s.configs cfg.id <;> rfl

theorem Follows.nextHistory {id : String} {cfg : ClusterConfig}
    (hentry : entry (enabledClusters configs) id = some cfg) :
    KeptPoints (normalizeOptions options).historyPoints
      (limits id (.updated (enabledClusters configs) (normalizeOptions options) :: log))
      (points (commits id (.updated (enabledClusters configs) (normalizeOptions options) :: log)))
      (s.nextHistory (normalizeOptions options).historyPoints cfg) := by
  have hover := carriesOver_eq h.distinct hentry
  have hpos : 0 ≤ (normalizeOptions options).historyPoints := by
    have hnormal := (normalizeOptions_normal options).historyPoints
    omega
  unfold Sampler.nextHistory commits limits
  rw [hover, entry_id hentry, ← h.configs]
  by_cases hstays : stays s.configs (enabledClusters configs) id = true
  · obtain ⟨old, new, hold, -, -⟩ := stays_entry hstays
    obtain ⟨l, hl, hkept⟩ := h.kept id old hold
    rw [hstays, hl]
    exact hkept.trim (h.limit id old hold) hpos
  · rw [Bool.not_eq_true] at hstays
    rw [hstays]
    exact KeptPoints.empty hpos

theorem Follows.keptRetry {id : String} {cfg : ClusterConfig}
    (hentry : entry (enabledClusters configs) id = some cfg) :
    s.keptRetry cfg = retryOf
      (commits id (.updated (enabledClusters configs) (normalizeOptions options) :: log)) := by
  have hover := carriesOver_eq h.distinct hentry
  unfold Sampler.keptRetry commits
  rw [hover, entry_id hentry, h.retry id, ← h.configs]
  by_cases hstays : stays s.configs (enabledClusters configs) id = true
  · obtain ⟨old, new, hold, -, -⟩ := stays_entry hstays
    rw [hold, hstays]
    rfl
  · rw [Bool.not_eq_true] at hstays
    rw [hstays]
    rfl

/-- An `Update` with distinct ids. -/
theorem Follows.update (hd : DistinctIDs configs) :
    Follows (s.update configs options)
      (.updated (enabledClusters configs) (normalizeOptions options) :: log) where
  distinct := distinct_enabled hd
  configs := rfl
  options := rfl
  normal _ := normalizeOptions_normal options
  limit _ _ _ := List.mem_cons_self
  source id cfg hentry c hc := by
    unfold commits at hc
    split at hc
    · next hstays =>
        rw [← h.configs] at hstays
        obtain ⟨old, new, hold, hnew, hsame⟩ := stays_entry hstays
        have hcfg : new = cfg := Option.some.inj (hnew.symm.trans hentry)
        subst hcfg
        obtain ⟨hid, hold, hanswered, hinterval⟩ := h.source id old hold c hc
        exact ⟨hid, sameConnection_trans (sameConnection_symm hsame) hold, hanswered.cons _,
          hinterval⟩
    · exact absurd hc List.not_mem_nil
  item id := by
    have hloop := GoMap.get_foldl_insert_all s.nextItem (distinct_enabled hd) id
    refine hloop.trans ?_
    show (entry (enabledClusters configs) id).map _ = (entry (enabledClusters configs) id).map _
    cases hentry : entry (enabledClusters configs) id with
    | none => rfl
    | some cfg => exact congrArg some (h.nextItem options hentry)
  kept id cfg hentry := by
    have hloop := GoMap.get_foldl_insert_all
      (s.nextHistory (normalizeOptions options).historyPoints) (distinct_enabled hd) id
    refine ⟨_, hloop.trans ?_, h.nextHistory options hentry⟩
    rw [Sampler.update_configs, entry] at hentry
    rw [hentry, Option.map_some]
  dropped id hentry := by
    have hloop := GoMap.get_foldl_insert_all
      (s.nextHistory (normalizeOptions options).historyPoints) (distinct_enabled hd) id
    refine hloop.trans ?_
    rw [Sampler.update_configs, entry] at hentry
    rw [hentry, Option.map_none]
  retry id := by
    rw [s.update_retries hd, Sampler.update_configs]
    cases hentry : entry (enabledClusters configs) id with
    | none => rfl
    | some cfg => exact h.keptRetry options hentry

end Update

/-! ## A commit -/

theorem Sampler.currentConfig_entry {s : Sampler} {sampled current : ClusterConfig}
    (h : s.currentConfig sampled = some current) :
    entry s.configs sampled.id = some current ∧ sameConnection current sampled = true := by
  unfold Sampler.currentConfig at h
  split at h
  · next cfg hcfg =>
      split at h
      · next hsame =>
          obtain rfl := Option.some.inj h
          exact ⟨hcfg, hsame⟩
      · cases h
  · cases h

section Keep

variable (s : Sampler) (id : String) (snapshot : Snapshot) (now : Int)

theorem Sampler.keepResult_items :
    (s.keepResult id snapshot now).items = s.items.insert id snapshot := by
  unfold Sampler.keepResult
  split
  · split <;> rfl
  · split <;> rfl

theorem Sampler.keepResult_history :
    (s.keepResult id snapshot now).history =
      if snapshot.status = .online ∧ snapshot.lagAvailable = true then
        s.history.insert id
          (lastPoints s.options.historyPoints (s.history[id]?.getD [] ++ [snapshot.point]))
      else s.history := by
  unfold Sampler.keepResult
  cases hstatus : snapshot.status with
  | online => cases snapshot.lagAvailable <;> rfl
  | offline | unset | loading => rfl

theorem Sampler.keepResult_retries :
    (s.keepResult id snapshot now).retries =
      match snapshot.status with
      | .online => s.retries.erase id
      | .offline => s.retries.insert id (s.nextRetry id now)
      | .unset | .loading => s.retries := by
  unfold Sampler.keepResult
  cases hstatus : snapshot.status with
  | online => cases snapshot.lagAvailable <;> rfl
  | offline | unset | loading => rfl

/-! A result of one cluster leaves the others as they were. -/

variable {s id snapshot now}

theorem Sampler.keepResult_history_other {i : String} (hi : id ≠ i) :
    (s.keepResult id snapshot now).history[i]? = s.history[i]? := by
  rw [Sampler.keepResult_history]
  split
  · rw [GoMap.get_insert, if_neg hi]
  · rfl

theorem Sampler.keepResult_retries_other {i : String} (hi : id ≠ i) :
    (s.keepResult id snapshot now).retries[i]? = s.retries[i]? := by
  rw [Sampler.keepResult_retries]
  split
  · rw [GoMap.get_erase, if_neg hi]
  · rw [GoMap.get_insert, if_neg hi]
  · rfl
  · rfl

end Keep

section Commit

variable {s : Sampler} {log : List Moment} (h : Follows s log)

include h

theorem Follows.nextRetry {id : String} {current : ClusterConfig}
    (hentry : entry s.configs id = some current) {c : Commit}
    (hinterval : c.interval = s.options.interval) (hstatus : c.status = .offline) :
    retryOf (c :: commits id log) = some (s.nextRetry id c.time) := by
  have hne : s.configs ≠ [] := List.ne_nil_of_mem (entry_mem hentry)
  have hfailures : (s.retries[id]?.getD ⟨0, 0⟩).failures = (offlines (commits id log)).length := by
    rw [h.retry id, hentry]
    exact length_offlines_retry _
  have hdelay := failureBackoff_eq (h.normal hne).interval ((offlines (commits id log)).length + 1)
  unfold retryOf Sampler.nextRetry
  rw [offlines_offline hstatus, hfailures]
  simp only [Nat.cast_add, Nat.cast_one] at hdelay ⊢
  rw [hdelay, hinterval]

variable {id : String} {cfg : ClusterConfig} {c : Commit}

/-- The points kept of a cluster after a commit of its own. -/
theorem Follows.keptPoints (hcfg : entry s.configs id = some cfg)
    (hlimit : 1 ≤ s.options.historyPoints) (name : String) (readOnly : Bool) (now : Int) :
    ∃ l, (s.keepResult id
          { c.result.snapshot with name := name, readOnly := readOnly } now).history[id]? = some l ∧
      KeptPoints s.options.historyPoints (limits id log) (points (c :: commits id log)) l := by
  obtain ⟨l, hl, hkept⟩ := h.kept id cfg hcfg
  have hcounted : c.counted = true ↔
      c.result.snapshot.status = .online ∧ c.result.snapshot.lagAvailable = true := by
    simp [Commit.counted, Commit.status]
  rw [Sampler.keepResult_history, points_cons, hl, Option.getD_some]
  by_cases hc : c.counted = true
  · rw [if_pos hc, if_pos (hcounted.1 hc)]
    refine ⟨_, ?_, hkept.add hlimit _⟩
    rw [GoMap.get_insert, if_pos rfl]
    rfl
  · rw [if_neg hc, if_neg fun hboth => hc (hcounted.2 hboth)]
    exact ⟨l, hl, hkept⟩

/-- Its next retry after such a commit. -/
theorem Follows.retryAfter (hcfg : entry s.configs id = some cfg)
    (hinterval : c.interval = s.options.interval) (name : String) (readOnly : Bool) :
    (s.keepResult id
      { c.result.snapshot with name := name, readOnly := readOnly } c.time).retries[id]? =
      retryOf (c :: commits id log) := by
  have hold := h.retry id
  rw [hcfg, Option.bind_some] at hold
  rw [Sampler.keepResult_retries]
  cases hstatus : c.result.snapshot.status with
  | online =>
      have hon : c.status = .online := hstatus
      rw [GoMap.get_erase, if_pos rfl, retryOf, offlines_online hon]
  | offline =>
      have hoff : c.status = .offline := hstatus
      rw [GoMap.get_insert, if_pos rfl, h.nextRetry hcfg hinterval hoff]
  | unset | loading =>
      have hoff : offlines (c :: commits id log) = offlines (commits id log) := by
        refine offlines_other ?_ ?_ <;> simp [Commit.status, hstatus]
      rw [hold, retryOf, retryOf, hoff]

/-- The commit of a result whose connection is the current one. -/
theorem Follows.commitResult {result : Result} (hr : Answered log result)
    {current : ClusterConfig} (hcurrent : s.currentConfig result.cfg = some current) (now : Int) :
    Follows
      (s.keepResult result.cfg.id
        { result.snapshot with name := current.name, readOnly := current.readOnly } now)
      (.committed ⟨result, now, s.options.interval⟩ :: log) := by
  obtain ⟨hentry, hsame⟩ := Sampler.currentConfig_entry hcurrent
  have hne : s.configs ≠ [] := List.ne_nil_of_mem (entry_mem hentry)
  have hlimit : 1 ≤ s.options.historyPoints := by
    have hnormal := (h.normal hne).historyPoints
    omega
  have hid : result.snapshot.id = current.id := by
    obtain ⟨raw, at', -, hraw⟩ := hr
    rw [hraw, entry_id hentry]
    rfl
  set c : Commit := ⟨result, now, s.options.interval⟩
  -- the commits of this cluster have one more in front, the others are as they were
  have hown : commits result.cfg.id (.committed c :: log) = c :: commits result.cfg.id log :=
    if_pos rfl
  have hother : ∀ id, result.cfg.id ≠ id → commits id (.committed c :: log) = commits id log :=
    fun id hne => if_neg hne
  constructor
  case distinct => rw [Sampler.keepResult_configs]; exact h.distinct
  case configs => rw [Sampler.keepResult_configs]; exact h.configs
  case options => rw [Sampler.keepResult_options]; exact h.options
  case normal =>
    rw [Sampler.keepResult_configs, Sampler.keepResult_options]
    exact h.normal
  case limit =>
    rw [Sampler.keepResult_configs, Sampler.keepResult_options]
    exact h.limit
  case source =>
    rw [Sampler.keepResult_configs]
    intro id cfg hcfg d hd
    by_cases hown' : result.cfg.id = id
    · subst hown'
      rw [hown] at hd
      obtain rfl := Option.some.inj (hentry.symm.trans hcfg)
      rcases List.mem_cons.1 hd with rfl | hd
      · exact ⟨rfl, hsame, hr.cons _, (h.normal hne).interval⟩
      · obtain ⟨hdid, hdsame, hdanswered, hinterval⟩ := h.source _ _ hcfg d hd
        exact ⟨hdid, hdsame, hdanswered.cons _, hinterval⟩
    · rw [hother id hown'] at hd
      obtain ⟨hdid, hdsame, hdanswered, hinterval⟩ := h.source id cfg hcfg d hd
      exact ⟨hdid, hdsame, hdanswered.cons _, hinterval⟩
  case item =>
    intro id
    rw [Sampler.keepResult_configs, Sampler.keepResult_items, GoMap.get_insert]
    by_cases hown' : result.cfg.id = id
    · subst hown'
      rw [if_pos rfl, hown, hentry, Option.map_some, shown, ← hid]
    · rw [if_neg hown', hother id hown']
      exact h.item id
  case kept =>
    rw [Sampler.keepResult_configs, Sampler.keepResult_options]
    intro id cfg hcfg
    by_cases hown' : result.cfg.id = id
    · subst hown'
      rw [hown]
      exact h.keptPoints (c := c) hcfg hlimit current.name current.readOnly now
    · rw [hother id hown', Sampler.keepResult_history_other hown']
      exact h.kept id cfg hcfg
  case dropped =>
    rw [Sampler.keepResult_configs]
    intro id hnone
    have hown' : result.cfg.id ≠ id := by
      intro heq
      rw [← heq, hentry] at hnone
      cases hnone
    rw [Sampler.keepResult_history_other hown']
    exact h.dropped id hnone
  case retry =>
    intro id
    rw [Sampler.keepResult_configs]
    by_cases hown' : result.cfg.id = id
    · subst hown'
      rw [hown, hentry, Option.bind_some]
      exact h.retryAfter (c := c) hentry rfl current.name current.readOnly
    · rw [hother id hown', Sampler.keepResult_retries_other hown']
      exact h.retry id

end Commit

/-! ## Runs -/

/-- The sampler is what the log says, and the results a `Refresh` has collected
are answers of the source. -/
structure Known (m : Sampling) : Prop where
  follows : Follows m.sampler m.log
  pending : ∀ r, m.refresh = some r → ∀ x ∈ r.results, Answered m.log x

section Steps

variable {m : Sampling} (h : Known m)

include h

theorem Known.note {x : Moment} (hx : x.Quiet) : Known (m.note x) where
  follows := h.follows.quiet hx
  pending r hr y hy := (h.pending r hr y hy).cons x

/-- A `Refresh` that has collected nothing new. -/
theorem Known.setRefresh {r : Refresh} (hr : ∀ x ∈ r.results, Answered m.log x) :
    Known { m with refresh := some r } where
  follows := h.follows
  pending r' hr' x hx := by
    obtain rfl := Option.some.inj hr'
    exact hr x hx

theorem Known.clearRefresh : Known { m with refresh := none } where
  follows := h.follows
  pending _ hr := nomatch hr

theorem Known.update {configs : List ClusterConfig} (hd : DistinctIDs configs)
    (options : Options) : Known (m.update configs options) where
  follows := h.follows.update options hd
  pending r hr x hx := (h.pending r hr x hx).cons _

theorem Known.start (now : Int) : Known (m.start now) := by
  have hstarted : Known (m.note (.started now)) := h.note trivial
  unfold Sampling.start
  split
  · exact h
  · simp only
    split
    · exact hstarted.note trivial
    · exact hstarted.setRefresh fun x hx => nomatch hx

theorem Known.endContext : Known m.endContext := by
  unfold Sampling.endContext
  split
  · exact h
  · next r hr =>
      have hended : Known (m.note .ended) := h.note trivial
      exact hended.setRefresh fun x hx => hended.pending r hr x hx

theorem Known.call (k : Nat) : Known (m.call k) := by
  unfold Sampling.call
  split
  · exact h
  · next r hr =>
      split
      · exact h
      · next w _ =>
          split
          · have hcalled : Known (m.note (.called w.cfg)) := h.note trivial
            exact hcalled.setRefresh fun x hx => hcalled.pending r hr x hx
          · exact h

theorem Known.giveUp (k : Nat) : Known (m.giveUp k) := by
  unfold Sampling.giveUp
  split
  · exact h
  · next r hr =>
      split
      · exact h
      · split
        · exact h.setRefresh fun x hx => h.pending r hr x hx
        · exact h

theorem Known.answer (k : Nat) (snapshot : Snapshot) (via : Option Cluster.Client) (now : Int) :
    Known (m.answer k snapshot via now) := by
  unfold Sampling.answer
  split
  · exact h
  · next r hr =>
      split
      · exact h
      · next w _ =>
          split
          · have hnoted : Known (m.note (.answered w.cfg snapshot now)) := h.note trivial
            refine hnoted.setRefresh fun x hx => ?_
            rcases List.mem_append.1 hx with hx | hx
            · exact hnoted.pending r hr x hx
            · obtain rfl := List.mem_singleton.1 hx
              exact ⟨snapshot, now, List.mem_cons_self, rfl⟩
          · exact h

theorem Known.commitResult {result : Result} (hr : Answered m.log result) (now : Int) :
    Known (m.commitResult result now) := by
  unfold Sampling.commitResult
  split
  · exact h
  · next current hcurrent =>
      exact ⟨h.follows.commitResult hr hcurrent now, fun r hr x hx =>
        (h.pending r hr x hx).cons _⟩

end Steps

/-- The log only grows, so that an answer stays an answer. -/
theorem Answered.commitResult {m : Sampling} {r : Result} (h : Answered m.log r)
    (result : Result) (now : Int) : Answered (m.commitResult result now).log r := by
  unfold Sampling.commitResult
  split
  · exact h
  · exact h.cons _

theorem Known.commitResults {m : Sampling} (h : Known m) (clock : Nat → Int)
    {xs : List (Result × Nat)} (hxs : ∀ x ∈ xs, Answered m.log x.1) :
    Known (m.commitResults clock xs) := by
  induction xs generalizing m with
  | nil => exact h
  | cons x xs ih =>
      exact ih (h.commitResult (hxs x List.mem_cons_self) _) fun y hy =>
        (hxs y (List.mem_cons_of_mem _ hy)).commitResult _ _

theorem Known.commit {m : Sampling} (h : Known m) (clock : Nat → Int) :
    Known (m.commit clock) := by
  unfold Sampling.commit
  split
  · exact h
  · next r hr =>
      split
      · have hloop : Known (m.commitResults clock r.results.zipIdx) :=
          h.commitResults clock fun x hx => h.pending r hr _ (List.fst_mem_of_mem_zipIdx hx)
        have hfinished : Moment.finished.Quiet := trivial
        exact (hloop.note hfinished).clearRefresh
      · exact h

theorem Known.step {m : Sampling} {e : SamplingEvent} (he : e.Distinct) (h : Known m) :
    Known (m.step e) := by
  cases e with
  | update configs options => exact h.update he options
  | start now => exact h.start now
  | endContext => exact h.endContext
  | call k => exact h.call k
  | giveUp k => exact h.giveUp k
  | answer k snapshot via now => exact h.answer k snapshot via now
  | commit clock => exact h.commit clock

/-- A sampler that has not been given anything. -/
theorem follows_empty (wake : Bool) :
    Follows { configs := [], options := ⟨0, 0, 0⟩, items := ∅, history := ∅, retries := ∅, wake }
      [] where
  distinct := List.nodup_nil
  configs := rfl
  options := rfl
  normal hne := absurd rfl hne
  limit _ _ hentry := nomatch hentry
  source _ _ hentry := nomatch hentry
  item _ := Std.ExtTreeMap.getElem?_empty
  kept _ _ hentry := nomatch hentry
  dropped _ _ := Std.ExtTreeMap.getElem?_empty
  retry _ := Std.ExtTreeMap.getElem?_empty

theorem Known.new {configs : List ClusterConfig} (hd : DistinctIDs configs) (options : Options) :
    Known (Sampling.new configs options) where
  follows :=
    have h := (follows_empty false).update options hd
    ⟨h.distinct, h.configs, h.options, h.normal, h.limit, h.source, h.item, h.kept, h.dropped,
      h.retry⟩
  pending _ hr := nomatch hr

/-- A run from a new sampler. -/
theorem Known.run {configs : List ClusterConfig} (hd : DistinctIDs configs) (options : Options)
    {events : List SamplingEvent} (hevents : ∀ e ∈ events, e.Distinct) :
    Known (run Sampling.step (Sampling.new configs options) events) :=
  run_invariant_of (fun _ _ he h => h.step he) (Known.new hd options) hevents

end KafkaManager.Dashboard
