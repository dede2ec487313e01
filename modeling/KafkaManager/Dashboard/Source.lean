import KafkaManager.Lib.Prog
import KafkaManager.Cluster.Operations
import KafkaManager.Dashboard.Refresh

/-!
# The source of the dashboard (`internal/dashboard/kafka_source.go`)

`Snapshot` looks the client up by the cluster's id, connects the cluster if
there is none, and asks the client four things. It is a program over these
steps: two go to the pool, the others to Kafka, to the clock or to an error,
and are answered from outside. The time limit only decides what they answer.
-/

namespace KafkaManager.Dashboard

open Lib Cluster

/-- Of a partition, how many replicas it has and how many are in sync. -/
structure PartitionDetail where
  isr : Nat
  replicas : Nat

/-- An entry of the answer of `Lag`: a group, and what its `Error` and the
`Total` of its `Lag` return. -/
structure DescribedLag where
  group : String
  error : Option String
  total : Int
deriving DecidableEq

/-- A topic is the list of its partitions. -/
inductive SourceCmd
  | kafka (id : String)
  | beginUpsert (cfg : ClusterConfig)
  | awaitUpsert (o : Nat)
  | errorText (e : OpError)
  | now
  | listBrokers (client : Client)
  | listTopics (client : Client)
  | listGroups (client : Client)
  | lag (client : Client) (groups : List String)

abbrev SourceCmd.Answer : SourceCmd → Type
  | .kafka _ => Option Client
  | .beginUpsert _ => Nat
  | .awaitUpsert _ => Option OpError
  | .errorText _ => String
  | .now => Int
  | .listBrokers _ => Except String Nat
  | .listTopics _ => Except String (List (List PartitionDetail))
  | .listGroups _ => Except String (List String)
  | .lag .. => Except String (List DescribedLag)

/-- The client a step asks. -/
def SourceCmd.client : SourceCmd → Option Client
  | .listBrokers client | .listTopics client | .listGroups client | .lag client _ => some client
  | .kafka _ | .beginUpsert _ | .awaitUpsert _ | .errorText _ | .now => none

abbrev SourceProg (α : Type) : Type := Prog SourceCmd SourceCmd.Answer α

abbrev SourceCmd.perform (c : SourceCmd) : SourceProg c.Answer := Prog.call c

namespace KafkaSource

/-- `Snapshot{Status: StatusOffline}` with an error. -/
def offline (error : String) : Snapshot :=
  { id := "", name := "", readOnly := false, status := .offline, error := error }

def recordLag (result : Snapshot) : Except String Int → Snapshot
  | .error e => { result with lagAvailable := false, lagError := e }
  | .ok total => { result with lagAvailable := true, lagError := "", totalLag := total }

/-- The snapshot of a cluster that has answered. -/
def online (latency : Int) (brokers : Nat) (topics : List (List PartitionDetail))
    (groups : List String) : Snapshot :=
  { id := "", name := "", readOnly := false
    status := .online
    online := true
    latencyMS := latency.tdiv 1000000
    brokers := brokers
    topics := topics.length
    consumerGroups := groups.length
    partitions := (topics.map List.length).sum
    underReplicated := (topics.map fun partitions =>
      partitions.countP fun partition => partition.isr < partition.replicas).sum }

/-- The loop over the answer of `Lag`, in whatever order. -/
def sumLag (lags : List DescribedLag) : Int :=
  lags.foldl (fun total group => wrap64 (total + group.total)) 0

/-- `Snapshot` from the time it has a client. -/
def measure (client : Client) : SourceProg Snapshot := do
  let start ← SourceCmd.perform .now
  match ← SourceCmd.perform (.listBrokers client) with
  | .error e => pure (offline e)
  | .ok brokers =>
      match ← SourceCmd.perform (.listTopics client) with
      | .error e => pure (offline e)
      | .ok topics =>
          match ← SourceCmd.perform (.listGroups client) with
          | .error e => pure (offline e)
          | .ok groups =>
              let finish ← SourceCmd.perform .now
              let result := online (finish - start) brokers topics groups
              if groups.isEmpty then pure (recordLag result (.ok 0))
              else
                let lags ← SourceCmd.perform (.lag client groups)
                pure (recordLag result (lags.map sumLag))

def snapshot (cfg : ClusterConfig) : SourceProg Snapshot := do
  match ← SourceCmd.perform (.kafka cfg.id) with
  | some client => measure client
  | none =>
      let o ← SourceCmd.perform (.beginUpsert cfg)
      match ← SourceCmd.perform (.awaitUpsert o) with
      | some err =>
          let text ← SourceCmd.perform (.errorText err)
          pure (offline text)
      | none =>
          match ← SourceCmd.perform (.kafka cfg.id) with
          | none => pure (offline "集群客户端不可用")
          | some client => measure client

end KafkaSource

end KafkaManager.Dashboard
