import KafkaManager.Lib.GoInt
import KafkaManager.Lib.GoMap
import KafkaManager.Config.Model

/-!
# What the sampler is configured with (`internal/dashboard/sampler.go`)

`Sampler` is the Go struct without its locks and its source. `update` is
`Update`: one critical section that replaces every field, carrying over what
was sampled through a connection that stays. A `time.Duration` and an instant
are integers of nanoseconds.
-/

namespace KafkaManager.Dashboard

open Lib

/-- `unset` is the empty string, which `normalizeSnapshot` replaces. -/
inductive Status
  | unset
  | loading
  | online
  | offline
deriving DecidableEq, Repr

structure Snapshot where
  id : String
  name : String
  status : Status := .unset
  online : Bool := false
  error : String := ""
  sampledAt : Int := 0
  latencyMS : Int := 0
  brokers : Int := 0
  topics : Int := 0
  partitions : Int := 0
  consumerGroups : Int := 0
  underReplicated : Int := 0
  totalLag : Int := 0
  lagAvailable : Bool := false
  lagError : String := ""
  readOnly : Bool

structure Point where
  timestamp : Int
  totalLag : Int
  partitions : Int
  topics : Int
deriving DecidableEq, Repr

structure Options where
  interval : Int
  historyPoints : Int
  maxConcurrent : Int
deriving DecidableEq, Repr

structure RetryState where
  failures : Int
  after : Int
deriving DecidableEq, Repr

/-- `wake` holds a token. -/
structure Sampler where
  configs : List ClusterConfig
  options : Options
  items : GoMap String Snapshot
  history : GoMap String (List Point)
  retries : GoMap String RetryState
  wake : Bool

/-- What sampling writes: `Run` takes the token of `wake`, `Refresh` stores
snapshots, points and retries. -/
structure Samples where
  items : GoMap String Snapshot
  history : GoMap String (List Point)
  retries : GoMap String RetryState
  wake : Bool

def second : Int := 1000000000

def normalizeOptions (options : Options) : Options :=
  { interval := if options.interval ≤ 0 then 15 * second else options.interval
    historyPoints := if options.historyPoints < 2 then 240 else options.historyPoints
    maxConcurrent := if options.maxConcurrent < 1 then 4 else options.maxConcurrent }

def enabledClusters (configs : List ClusterConfig) : List ClusterConfig :=
  configs.filter fun cfg => !cfg.disabled

def loadingSnapshot (cfg : ClusterConfig) : Snapshot :=
  { id := cfg.id, name := cfg.name, status := .loading, readOnly := cfg.readOnly }

def sameConnection (left right : ClusterConfig) : Bool :=
  left.brokers == right.brokers && left.security == right.security

/-- The last `n` points. -/
def lastPoints (n : Int) (points : List Point) : List Point :=
  if (points.length : Int) > n then points.drop (points.length - n).toNat else points

namespace Sampler

/-- `previousConfigs[id]`: the last entry of that id. -/
def previousConfig (s : Sampler) (id : String) : Option ClusterConfig :=
  s.configs.reverse.find? fun cfg => cfg.id == id

/-- What was sampled for the cluster was sampled through its connection. -/
def carriesOver (s : Sampler) (cfg : ClusterConfig) : Bool :=
  match s.previousConfig cfg.id with
  | some previous => sameConnection previous cfg
  | none => false

def nextItem (s : Sampler) (cfg : ClusterConfig) : Snapshot :=
  let item :=
    match s.items[cfg.id]? with
    | some item => if s.carriesOver cfg then item else loadingSnapshot cfg
    | none => loadingSnapshot cfg
  { item with id := cfg.id, name := cfg.name, readOnly := cfg.readOnly }

def nextHistory (s : Sampler) (historyPoints : Int) (cfg : ClusterConfig) : List Point :=
  lastPoints historyPoints (if s.carriesOver cfg then s.history[cfg.id]?.getD [] else [])

/-- `Update` -/
def update (s : Sampler) (configs : List ClusterConfig) (options : Options) : Sampler :=
  let options := normalizeOptions options
  let enabled := enabledClusters configs
  { configs := enabled
    options := options
    items := enabled.foldl (fun m cfg => m.insert cfg.id (s.nextItem cfg)) ∅
    history := enabled.foldl
      (fun m cfg => m.insert cfg.id (s.nextHistory options.historyPoints cfg)) ∅
    retries := enabled.foldl (fun m cfg =>
      match s.retries[cfg.id]? with
      | some retry => if s.carriesOver cfg then m.insert cfg.id retry else m
      | none => m) ∅
    wake := true }

/-- `NewSampler` -/
def new (configs : List ClusterConfig) (options : Options) : Sampler :=
  let empty : Sampler :=
    { configs := [], options := ⟨0, 0, 0⟩, items := ∅, history := ∅, retries := ∅, wake := false }
  { empty.update configs options with wake := false }

/-- A round of sampling, whatever it found. It reads `configs` and `options`
and leaves them. -/
def sampled (s : Sampler) (x : Samples) : Sampler :=
  { s with items := x.items, history := x.history, retries := x.retries, wake := x.wake }

@[simp] theorem update_configs (s : Sampler) (configs : List ClusterConfig) (options : Options) :
    (s.update configs options).configs = enabledClusters configs := rfl

@[simp] theorem new_configs (configs : List ClusterConfig) (options : Options) :
    (new configs options).configs = enabledClusters configs := rfl

end Sampler

/-- `dashboardOptions` of `internal/api/server.go` -/
def dashboardOptions (cfg : Config) : Options :=
  { interval := cfg.dashboard.sampleIntervalSeconds * second
    historyPoints := cfg.dashboard.historyPoints
    maxConcurrent := 4 }

end KafkaManager.Dashboard
