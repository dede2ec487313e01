import KafkaManager.Kafka.Client

/-!
# Producing a message (`internal/kafka/message`)

`Service.Produce` checks a request; `KafkaBackend.Produce` sends it through the
cluster's client, or, if the request names a partition, through a client of its
own that it makes from the cluster's configuration and closes in the end.
-/

namespace KafkaManager.Message

open Lib Kafka

structure ProduceRequest where
  topic : String
  partition : Int
  key : String
  value : String
  headers : List Header
deriving DecidableEq, Repr

/-- `message.Record`, as far as producing fills it in. -/
structure Record where
  topic : String
  partition : Int
  offset : Int
  timestamp : Int
  key : String
  value : String
  headers : List Header
deriving DecidableEq, Repr

inductive MessageError
  | topicRequired    -- topic is required
  | messageTooLarge  -- message exceeds 10 MiB
  | kafka (e : Kafka.Error)
deriving DecidableEq, Repr

/-- The record a request asks for. -/
def ProduceRequest.record (r : ProduceRequest) : Kafka.Record :=
  { topic := r.topic
    partition := if r.partition ≥ 0 then some r.partition else none
    key := r.key
    value := r.value
    headers := r.headers }

/-- What `Produce` returns of what the library does. -/
def ProduceRequest.stored (r : ProduceRequest) (result : Produced) : Record :=
  { topic := result.topic
    partition := result.partition
    offset := result.offset
    timestamp := result.timestamp
    key := r.key
    value := r.value
    headers := r.headers }

/-- `KafkaBackend.Produce` -/
def backendProduce (cfg : ClusterConfig) (r : ProduceRequest) :
    KafkaProg (Except MessageError Record) :=
  if r.partition ≥ 0 then do
    match ← Call.perform (.newClient cfg) with
    | some e => pure (.error (.kafka e))
    | none => do
        let result ← Call.perform (.produceSync true r.record)
        let _ ← Call.perform .closeClient
        pure ((result.mapError .kafka).map r.stored)
  else do
    let result ← Call.perform (.produceSync false r.record)
    pure ((result.mapError .kafka).map r.stored)

/-- `Service.Produce`. The length of a Go string is in bytes. -/
def produce (cfg : ClusterConfig) (r : ProduceRequest) :
    KafkaProg (Except MessageError Record) :=
  if isBlank r.topic then pure (.error .topicRequired)
  else if r.value.utf8ByteSize > 10 * 1024 * 1024 then pure (.error .messageTooLarge)
  else backendProduce cfg r

end KafkaManager.Message
