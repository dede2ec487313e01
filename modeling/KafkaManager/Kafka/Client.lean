import KafkaManager.Lib.GoMap
import KafkaManager.Lib.Prog
import KafkaManager.Config.Model

/-!
# The calls to the Kafka client library

The services under `internal/kafka` act on a cluster through `kadm` and `kgo`
only. A `Call` is one call of the services behind the mutating requests, with
its arguments; an `Answer` is as much of what it returns as they look at. The
context every call takes is left out.

A service is a program over these calls. Which of them change the cluster is
`Call.mutates`.
-/

namespace KafkaManager.Kafka

open Lib

/-- The text of an error of the library. -/
abbrev Error : Type := String

/-- A partition of `GroupLag`. The group may have no committed offset in it. -/
structure MemberLag where
  topic : String
  partition : Int
deriving DecidableEq, Repr

/-- `kadm.DescribedGroupLag`. The partitions are as `Sorted` lists them. -/
structure GroupLag where
  state : String
  lag : List MemberLag
deriving DecidableEq, Repr

structure Offset where
  topic : String
  partition : Int
  offset : Int
deriving DecidableEq, Repr

inductive AlterOp
  | setConfig
  | deleteConfig
deriving DecidableEq, Repr

structure AlterConfig where
  op : AlterOp
  name : String
  value : Option String
deriving DecidableEq, Repr

structure Header where
  key : String
  value : String
deriving DecidableEq, Repr

/-- A record to produce. The partition is what `Record.Partition` is set to,
if it is. -/
structure Record where
  topic : String
  partition : Option Int
  key : String
  value : String
  headers : List Header
deriving DecidableEq, Repr

/-- Where a record was stored. -/
structure Produced where
  topic : String
  partition : Int
  offset : Int
  timestamp : Int
deriving DecidableEq, Repr

inductive Call
  | listTopics (topic : String)
  | createTopic (partitions replicationFactor : Int) (configs : GoMap String String)
      (topic : String)
  | deleteTopic (topic : String)
  | createPartitions (add : Int) (topic : String)
  | alterTopicConfigs (configs : List AlterConfig) (topic : String)
  | lag (group : String)
  | listStartOffsets (topics : List String)
  | listEndOffsets (topics : List String)
  | listOffsetsAfterMilli (timestamp : Int) (topics : List String)
  | commitAllOffsets (group : String) (offsets : List Offset)
  | deleteGroup (group : String)
  | newClient (cfg : ClusterConfig)
  | closeClient
  | produceSync (manual : Bool) (record : Record)

/-- What a call returns: for `listTopics` the number of partitions if the topic
is in the answer, for `lag` the entry of the group, for the offset listings
what `Offsets` makes of them, for the two calls with a response per topic the
response's own error behind the call's. -/
abbrev Call.Answer : Call → Type
  | .listTopics _ => Except Error (Option Nat)
  | .createTopic .. | .deleteTopic _ | .commitAllOffsets .. | .deleteGroup _ => Option Error
  | .createPartitions .. => Except Error (Option Error)
  | .alterTopicConfigs .. => Except Error (Except Error (Option Error))
  | .lag _ => Except Error (Option GroupLag)
  | .listStartOffsets _ | .listEndOffsets _ | .listOffsetsAfterMilli .. =>
      Except Error (List Offset)
  | .newClient _ => Option Error
  | .closeClient => Unit
  | .produceSync .. => Except Error Produced

/-- The call changes the cluster. -/
def Call.mutates : Call → Bool
  | .createTopic .. | .deleteTopic _ | .createPartitions .. | .alterTopicConfigs ..
  | .commitAllOffsets .. | .deleteGroup _ | .produceSync .. => true
  | _ => false

/-- A program that talks to one cluster. -/
abbrev KafkaProg (α : Type) : Type := Prog Call Call.Answer α

abbrev Call.perform (c : Call) : KafkaProg c.Answer := Prog.call c

end KafkaManager.Kafka
