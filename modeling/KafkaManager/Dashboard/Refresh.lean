import KafkaManager.Lib.Run
import KafkaManager.Cluster.Manager
import KafkaManager.Dashboard.Sampler

/-!
# Sampling (`Refresh` and `Read` in `internal/dashboard/sampler.go`)

A `Refresh` has three parts that do not interrupt each other's critical
sections but run beside `Update`: it captures the configurations that are due,
one goroutine for each calls the source, and when all of them have ended the
results are committed in the order in which they arrived. `refreshMu` keeps a
second `Refresh` out until then.

`Sampling` is the sampler with the `Refresh` that is under way. Two things in it
are not in the source: `log` lists what happened, the newest first, and the
results about whole runs compare the sampler with it; `via` is the client a
result was measured through.
-/

namespace KafkaManager.Dashboard

open Lib

/-! ## One result -/

/-- `Time.UnixMilli` of an instant in nanoseconds. -/
def unixMilli (now : Int) : Int := now / 1000000

def normalizeSnapshot (snapshot : Snapshot) (cfg : ClusterConfig) (now : Int) : Snapshot :=
  let status :=
    if snapshot.status = .unset then
      if snapshot.online then .online else .offline
    else snapshot.status
  { snapshot with
    id := cfg.id
    name := cfg.name
    readOnly := cfg.readOnly
    status := status
    online := status == .online
    sampledAt := if snapshot.sampledAt = 0 then unixMilli now else snapshot.sampledAt }

def fiveMinutes : Int := 300 * second

/-- The loop of `failureBackoff`, with `n` rounds to go. A duration has 64
bits. -/
def backoffLoop : Nat → Int → Int
  | 0, delay => if delay > fiveMinutes then fiveMinutes else delay
  | n + 1, delay =>
      if delay ≥ fiveMinutes / 2 then fiveMinutes
      else backoffLoop n (Int.bmod (delay * 2) (2 ^ 64))

def failureBackoff (base failures : Int) : Int :=
  backoffLoop failures.toNat (if base ≤ 0 then 15 * second else base)

/-- What the source was called with and what became of its answer. `via` is
there if the source got hold of a client. -/
structure Result where
  cfg : ClusterConfig
  snapshot : Snapshot
  via : Option Cluster.Client

def Snapshot.point (snapshot : Snapshot) : Point :=
  { timestamp := snapshot.sampledAt
    totalLag := snapshot.totalLag
    partitions := snapshot.partitions
    topics := snapshot.topics }

namespace Sampler

/-- `retry.after.After(now)` -/
def backedOff (s : Sampler) (now : Int) (cfg : ClusterConfig) : Bool :=
  match s.retries[cfg.id]? with
  | some retry => decide (retry.after > now)
  | none => false

/-- `currentConfigLocked` -/
def currentConfig (s : Sampler) (sampled : ClusterConfig) : Option ClusterConfig :=
  match s.configs.find? fun cfg => cfg.id == sampled.id with
  | some cfg => if sameConnection cfg sampled then some cfg else none
  | none => none

/-- The retry entry after an offline result. -/
def nextRetry (s : Sampler) (id : String) (now : Int) : RetryState :=
  let failures := (s.retries[id]?.getD ⟨0, 0⟩).failures + 1
  ⟨failures, now + failureBackoff s.options.interval failures⟩

/-- What the loop of the commit does with a result that is current. -/
def keepResult (s : Sampler) (id : String) (snapshot : Snapshot) (now : Int) : Sampler :=
  let s := { s with items := s.items.insert id snapshot }
  if snapshot.status ≠ .online then
    if snapshot.status = .offline then
      { s with retries := s.retries.insert id (s.nextRetry id now) }
    else s
  else
    let s := { s with retries := s.retries.erase id }
    if !snapshot.lagAvailable then s
    else
      { s with
        history := s.history.insert id
          (lastPoints s.options.historyPoints (s.history[id]?.getD [] ++ [snapshot.point])) }

/-- `Read` -/
def read (s : Sampler) : List Snapshot × GoMap String (List Point) :=
  (s.configs.map fun cfg => s.items[cfg.id]?.getD { id := "", name := "", readOnly := false },
    s.configs.foldl (fun m cfg => m.insert cfg.id (s.history[cfg.id]?.getD [])) ∅)

end Sampler

/-! ## A `Refresh` under way -/

/-- Where a goroutine of `Refresh` is: it waits for the semaphore, the source
is working, it has sent a result, or it has seen that the context ended. -/
inductive Progress
  | waiting
  | calling
  | returned
  | gaveUp
deriving DecidableEq, Repr

structure Worker where
  cfg : ClusterConfig
  progress : Progress

/-- `ended` is whether the context is done. -/
structure Refresh where
  maximum : Int
  workers : List Worker
  results : List Result
  ended : Bool

def Refresh.calling (r : Refresh) : Nat := r.workers.countP fun w => w.progress == .calling

/-- `workers.Wait()` returns. -/
def Refresh.complete (r : Refresh) : Bool :=
  r.workers.all fun w => w.progress == .returned || w.progress == .gaveUp

def Refresh.setProgress (r : Refresh) (k : Nat) (w : Worker) (progress : Progress) : Refresh :=
  { r with workers := r.workers.set k { w with progress := progress } }

/-! ## What happened -/

/-- A result that was stored, when, and under which interval. -/
structure Commit where
  result : Result
  time : Int
  interval : Int

/-- `Update` replaced the configurations, a `Refresh` started, its context
ended, the source was called, it answered, the answer was stored, the `Refresh`
returned. -/
inductive Moment
  | updated (configs : List ClusterConfig) (options : Options)
  | started (now : Int)
  | ended
  | called (cfg : ClusterConfig)
  | answered (cfg : ClusterConfig) (snapshot : Snapshot) (now : Int)
  | committed (c : Commit)
  | finished

structure Sampling where
  sampler : Sampler
  refresh : Option Refresh
  log : List Moment

namespace Sampling

def note (m : Sampling) (x : Moment) : Sampling := { m with log := x :: m.log }

/-- `NewSampler` -/
def new (configs : List ClusterConfig) (options : Options) : Sampling :=
  { sampler := Sampler.new configs options
    refresh := none
    log := [.updated (enabledClusters configs) (normalizeOptions options)] }

/-- `Update` -/
def update (m : Sampling) (configs : List ClusterConfig) (options : Options) : Sampling :=
  { m with
    sampler := m.sampler.update configs options
    log := .updated (enabledClusters configs) (normalizeOptions options) :: m.log }

/-- A `Refresh` begins, once `refreshMu` is free, with a context that has not
ended. -/
def start (m : Sampling) (now : Int) : Sampling :=
  match m.refresh with
  | some _ => m
  | none =>
      let configs := m.sampler.configs.filter fun cfg => !m.sampler.backedOff now cfg
      let m := m.note (.started now)
      if configs.isEmpty then m.note .finished
      else
        { m with
          refresh := some
            { maximum := m.sampler.options.maxConcurrent
              workers := configs.map fun cfg => ⟨cfg, .waiting⟩
              results := []
              ended := false } }

/-- The context of the `Refresh` ends. -/
def endContext (m : Sampling) : Sampling :=
  match m.refresh with
  | none => m
  | some r => { m.note .ended with refresh := some { r with ended := true } }

/-- Goroutine `k` has the semaphore and calls the source. -/
def call (m : Sampling) (k : Nat) : Sampling :=
  match m.refresh with
  | none => m
  | some r =>
      match r.workers[k]? with
      | none => m
      | some w =>
          if w.progress = .waiting ∧ (r.calling : Int) < r.maximum then
            { m.note (.called w.cfg) with refresh := some (r.setProgress k w .calling) }
          else m

/-- Goroutine `k` sees that the context has ended. -/
def giveUp (m : Sampling) (k : Nat) : Sampling :=
  match m.refresh with
  | none => m
  | some r =>
      match r.workers[k]? with
      | none => m
      | some w =>
          if w.progress = .waiting ∧ r.ended = true then
            { m with refresh := some (r.setProgress k w .gaveUp) }
          else m

/-- The source answers goroutine `k`. -/
def answer (m : Sampling) (k : Nat) (snapshot : Snapshot) (via : Option Cluster.Client)
    (now : Int) : Sampling :=
  match m.refresh with
  | none => m
  | some r =>
      match r.workers[k]? with
      | none => m
      | some w =>
          if w.progress = .calling then
            let result : Result := ⟨w.cfg, normalizeSnapshot snapshot w.cfg now, via⟩
            { m.note (.answered w.cfg snapshot now) with
              refresh := some
                { r.setProgress k w .returned with results := r.results ++ [result] } }
          else m

/-- One round of the loop of the commit. -/
def commitResult (m : Sampling) (result : Result) (now : Int) : Sampling :=
  match m.sampler.currentConfig result.cfg with
  | none => m
  | some current =>
      let snapshot := { result.snapshot with name := current.name, readOnly := current.readOnly }
      { m.note (.committed ⟨result, now, m.sampler.options.interval⟩) with
        sampler := m.sampler.keepResult result.cfg.id snapshot now }

/-- The loop of the commit. `clock` is what the clock shows in each round. -/
def commitResults (m : Sampling) (clock : Nat → Int) (xs : List (Result × Nat)) : Sampling :=
  run (fun m x => m.commitResult x.1 (clock x.2)) m xs

/-- The commit. -/
def commit (m : Sampling) (clock : Nat → Int) : Sampling :=
  match m.refresh with
  | none => m
  | some r =>
      if r.complete then
        { (m.commitResults clock r.results.zipIdx).note .finished with refresh := none }
      else m

end Sampling

/-- What can happen to a sampler. -/
inductive SamplingEvent
  | update (configs : List ClusterConfig) (options : Options)
  | start (now : Int)
  | endContext
  | call (k : Nat)
  | giveUp (k : Nat)
  | answer (k : Nat) (snapshot : Snapshot) (via : Option Cluster.Client) (now : Int)
  | commit (clock : Nat → Int)

def Sampling.step (m : Sampling) : SamplingEvent → Sampling
  | .update configs options => m.update configs options
  | .start now => m.start now
  | .endContext => m.endContext
  | .call k => m.call k
  | .giveUp k => m.giveUp k
  | .answer k snapshot via now => m.answer k snapshot via now
  | .commit clock => m.commit clock

/-- The lists an `Update` is called with have distinct ids, as `Validate` makes
sure. -/
def SamplingEvent.Distinct : SamplingEvent → Prop
  | .update configs _ => DistinctIDs configs
  | _ => True

/-! ## A commit is a sample

What a `Refresh` stores leaves the configurations and the options alone, so
that it is one of the samples the server reckons with. -/

/-- The fields that sampling writes. -/
def Sampler.samples (s : Sampler) : Samples :=
  { items := s.items, history := s.history, retries := s.retries, wake := s.wake }

theorem Sampler.eq_sampled {s s' : Sampler} (hconfigs : s'.configs = s.configs)
    (hoptions : s'.options = s.options) : s' = s.sampled s'.samples := by
  obtain ⟨configs, options, items, history, retries, wake⟩ := s'
  subst hconfigs hoptions
  rfl

@[simp] theorem Sampler.keepResult_configs (s : Sampler) (id : String) (snapshot : Snapshot)
    (now : Int) : (s.keepResult id snapshot now).configs = s.configs := by
  unfold Sampler.keepResult
  split
  · split <;> rfl
  · split <;> rfl

@[simp] theorem Sampler.keepResult_options (s : Sampler) (id : String) (snapshot : Snapshot)
    (now : Int) : (s.keepResult id snapshot now).options = s.options := by
  unfold Sampler.keepResult
  split
  · split <;> rfl
  · split <;> rfl

namespace Sampling

variable (m : Sampling)

@[simp] theorem commitResult_configs (result : Result) (now : Int) :
    (m.commitResult result now).sampler.configs = m.sampler.configs := by
  unfold commitResult
  split
  · rfl
  · exact Sampler.keepResult_configs ..

@[simp] theorem commitResult_options (result : Result) (now : Int) :
    (m.commitResult result now).sampler.options = m.sampler.options := by
  unfold commitResult
  split
  · rfl
  · exact Sampler.keepResult_options ..

theorem commitResults_sampled (clock : Nat → Int) (xs : List (Result × Nat)) :
    (m.commitResults clock xs).sampler =
      m.sampler.sampled (m.commitResults clock xs).sampler.samples := by
  have hloop : (m.commitResults clock xs).sampler.configs = m.sampler.configs ∧
      (m.commitResults clock xs).sampler.options = m.sampler.options := by
    refine run_invariant (P := fun n : Sampling => n.sampler.configs = m.sampler.configs ∧
      n.sampler.options = m.sampler.options) (fun n x hn => ?_) ⟨rfl, rfl⟩ xs
    rw [commitResult_configs, commitResult_options]
    exact hn
  exact Sampler.eq_sampled hloop.1 hloop.2

theorem commit_sampled (clock : Nat → Int) :
    (m.commit clock).sampler = m.sampler.sampled (m.commit clock).sampler.samples := by
  unfold commit
  split
  · rfl
  · next r _ =>
      split
      · exact m.commitResults_sampled clock r.results.zipIdx
      · rfl

end Sampling

end KafkaManager.Dashboard
