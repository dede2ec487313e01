import KafkaManager.Lib.Mux

/-!
# The routes (`NewServer` in `internal/api/server.go`)

What is registered behind the session. No request matches two of the patterns.
-/

namespace KafkaManager.Api

open Lib

inductive Handler
  | listClusters
  | dashboard
  | getConfig
  | putConfig
  | listConfigBackups
  | restoreConfigBackup
  | listAudit
  | listTopics
  | createTopic
  | deleteTopic
  | addPartitions
  | listTopicConfigs
  | alterTopicConfigs
  | listMessages
  | streamMessages
  | produceMessage
  | listConsumerGroups
  | resetConsumerGroup
  | deleteConsumerGroup
deriving DecidableEq

/-- `/api/v1/clusters/{cluster}` and what is after it. -/
def ofCluster (rest : List PatternSegment) : List PatternSegment :=
  .lit "api" :: .lit "v1" :: .lit "clusters" :: .wild "cluster" :: rest

/-- `/api/v1` and what is after it. -/
def ofApi (rest : List PatternSegment) : List PatternSegment := .lit "api" :: .lit "v1" :: rest

/-- What the handler is registered for. -/
def Handler.pattern : Handler → Pattern
  | .listClusters => ⟨"GET", ofApi [.lit "clusters"]⟩
  | .dashboard => ⟨"GET", ofApi [.lit "dashboard"]⟩
  | .getConfig => ⟨"GET", ofApi [.lit "config"]⟩
  | .putConfig => ⟨"PUT", ofApi [.lit "config"]⟩
  | .listConfigBackups => ⟨"GET", ofApi [.lit "config", .lit "backups"]⟩
  | .restoreConfigBackup => ⟨"POST", ofApi [.lit "config", .lit "backups", .multi "backup"]⟩
  | .listAudit => ⟨"GET", ofApi [.lit "audit"]⟩
  | .listTopics => ⟨"GET", ofCluster [.lit "topics"]⟩
  | .createTopic => ⟨"POST", ofCluster [.lit "topics"]⟩
  | .deleteTopic => ⟨"DELETE", ofCluster [.lit "topics", .wild "topic"]⟩
  | .addPartitions => ⟨"POST", ofCluster [.lit "topics", .wild "topic", .lit "partitions"]⟩
  | .listTopicConfigs => ⟨"GET", ofCluster [.lit "topics", .wild "topic", .lit "configs"]⟩
  | .alterTopicConfigs => ⟨"PUT", ofCluster [.lit "topics", .wild "topic", .lit "configs"]⟩
  | .listMessages => ⟨"GET", ofCluster [.lit "messages"]⟩
  | .streamMessages => ⟨"GET", ofCluster [.lit "messages", .lit "stream"]⟩
  | .produceMessage => ⟨"POST", ofCluster [.lit "messages"]⟩
  | .listConsumerGroups => ⟨"GET", ofCluster [.lit "consumer-groups"]⟩
  | .resetConsumerGroup =>
      ⟨"POST", ofCluster [.lit "consumer-groups", .wild "group", .lit "reset"]⟩
  | .deleteConsumerGroup => ⟨"DELETE", ofCluster [.lit "consumer-groups", .wild "group"]⟩

def protectedHandlers : List Handler :=
  [.listClusters, .dashboard, .getConfig, .putConfig, .listConfigBackups, .restoreConfigBackup,
    .listAudit, .listTopics, .createTopic, .deleteTopic, .addPartitions, .listTopicConfigs,
    .alterTopicConfigs, .listMessages, .streamMessages, .produceMessage, .listConsumerGroups,
    .resetConsumerGroup, .deleteConsumerGroup]

def protectedRoutes : List (Pattern × Handler) := protectedHandlers.map fun h => (h.pattern, h)

end KafkaManager.Api
