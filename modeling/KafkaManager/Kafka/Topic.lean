import KafkaManager.Kafka.Client
import KafkaManager.Lib.GoInt

/-!
# Topics (`internal/kafka/topic/service.go`)

The four operations that change a topic: the checks of `Service` in their
order, and what `KadmAdmin` asks of the cluster. A Go `int` has 64 bits, and
`targetPartitionCount` adds two of them.
-/

namespace KafkaManager.Topic

open Lib Kafka

structure CreateRequest where
  name : String
  partitions : Int
  replicationFactor : Int
  configs : GoMap String String

inductive TopicError
  | nameRequired                -- topic name is required
  | partitionsNotPositive       -- partitions must be greater than zero
  | replicationNotPositive      -- replicationFactor must be greater than zero
  | incrementNotPositive        -- partition increment must be positive
  | changeRequired              -- at least one config change is required
  | configNameRequired          -- config name is required
  | topicNotFound               -- topic not found
  | kafka (e : Kafka.Error)
deriving DecidableEq, Repr

def ofCall : Option Kafka.Error → Option TopicError := Option.map .kafka

/-- `Service.Create` and `KadmAdmin.Create` -/
def create (request : CreateRequest) : KafkaProg (Option TopicError) :=
  if isBlank request.name then pure (some .nameRequired)
  else if request.partitions < 1 then pure (some .partitionsNotPositive)
  else if request.replicationFactor < 1 then pure (some .replicationNotPositive)
  else do
    let err ← Call.perform (.createTopic request.partitions request.replicationFactor
      request.configs request.name)
    pure (ofCall err)

/-- `Service.Delete` and `KadmAdmin.Delete` -/
def delete (name : String) : KafkaProg (Option TopicError) :=
  if isBlank name then pure (some .nameRequired)
  else do
    let err ← Call.perform (.deleteTopic name)
    pure (ofCall err)

/-- A sum of two `int`s. -/
def targetPartitionCount (current increment : Int) : Int := Int.bmod (current + increment) (2 ^ 64)

/-- `KadmAdmin.AddPartitions` -/
def adminAddPartitions (name : String) (count : Int) : KafkaProg (Option TopicError) := do
  match ← Call.perform (.listTopics name) with
  | .error e => pure (some (.kafka e))
  | .ok none => pure (some .topicNotFound)
  | .ok (some current) => do
      let targetCount := targetPartitionCount current count
      match ← Call.perform (.createPartitions targetCount name) with
      | .error e => pure (some (.kafka e))
      | .ok err => pure (ofCall err)

/-- `Service.AddPartitions` -/
def addPartitions (name : String) (count : Int) : KafkaProg (Option TopicError) :=
  if count < 1 then pure (some .incrementNotPositive) else adminAddPartitions name count

/-- The changes as `kadm` takes them, by name. -/
def alterations (changes : GoMap String (Option String)) : List AlterConfig :=
  changes.toList.map fun (name, value) =>
    { op := if value.isNone then .deleteConfig else .setConfig, name := name, value := value }

/-- `Service.AlterConfigs` and `KadmAdmin.AlterConfigs` -/
def alterConfigs (name : String) (changes : GoMap String (Option String)) :
    KafkaProg (Option TopicError) :=
  if isBlank name then pure (some .nameRequired)
  else if changes.size = 0 then pure (some .changeRequired)
  else if changes.toList.any fun (key, _) => isBlank key then pure (some .configNameRequired)
  else do
    match ← Call.perform (.alterTopicConfigs (alterations changes) name) with
    | .error e => pure (some (.kafka e))
    | .ok (.error e) => pure (some (.kafka e))
    | .ok (.ok err) => pure (ofCall err)

end KafkaManager.Topic
