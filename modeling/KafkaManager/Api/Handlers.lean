import KafkaManager.Api.Server

/-!
# The handlers of `internal/api/server.go` and the poll of `main.go`

Each handler is the Go function as a program over the commands of the server,
in the order of its text. A deferred unlock is the command that ends a
`transaction` or a `readLocked` section. What differs between handlers that
share their text is a parameter: the guard and the error code, the kind of
body, the service call, the names under which the audit log has it.

The handlers that only read from a cluster are left out but for the lookup
they begin with, `kafka` or `kafkaClient`.
-/

namespace KafkaManager.Api

open Lib Cluster

variable (d : Setting)

/-! ## Transactions -/

/-- The section under `configTxn.Lock()`. -/
def transaction {α : Type} (txn : Txn) (failed : α → Bool) (body : ServerProg α) :
    ServerProg α := do
  Cmd.perform (.lock txn)
  let r ← body
  Cmd.perform (.unlock (failed r))
  pure r

def updateConfig (cfg : Config) : ServerProg Unit := do
  Cmd.perform (.writeConfig cfg)
  Cmd.perform (.updateMonitor cfg)

/-- A call of the pool: it begins, and it returns. -/
def poolCall (r : Cluster.Request) : ServerProg (Option OpError) := do
  let o ← Cmd.perform (.begin r)
  Cmd.perform (.await o)

def applyClustersIfChanged (clusters : List ClusterConfig) : ServerProg (Except OpError Bool) := do
  if ← Cmd.perform (.matchesClusters clusters) then pure (.ok false)
  else
    match ← poolCall (.apply clusters) with
    | some e => pure (.error e)
    | none => pure (.ok true)

def rollbackClusters (clusters : List ClusterConfig) : ServerProg (Option OpError) := do
  match ← poolCall (.apply clusters) with
  | some e =>
      let _ ← poolCall (.setDesired clusters)
      pure (some e)
  | none => pure none

/-- How `putConfig` and `restoreConfigBackup` go back when `Save` has failed. -/
def saveFailed (current : Config) (connectionsChanged : Bool) (code : String) (e : SaveError) :
    ServerProg Reply :=
  if connectionsChanged then do
    match ← rollbackClusters current.clusters with
    | some rollbackErr => pure (.error 500 code (.saveRollback e rollbackErr))
    | none => pure (.error 500 code (.save e))
  else pure (.error 500 code (.save e))

/-- What both do from `applyClustersIfChanged` on. -/
def install (current cfg : Config) (text : List Char) (code action resource : String) :
    ServerProg Reply := do
  match ← applyClustersIfChanged cfg.clusters with
  | .error e => pure (.error 400 "connection_failed" (.pool e))
  | .ok connectionsChanged =>
      match ← Cmd.perform (.save text) with
      | some e => saveFailed current connectionsChanged code e
      | none =>
          updateConfig cfg
          Cmd.perform (.audit action resource none)
          pure (.done 204 none)

/-- `putConfig` once it has read the configuration it is to replace. -/
def putCandidate (current candidate : Config) : ServerProg Reply :=
  let candidate := fillSecrets current candidate
  match candidate.validate with
  | some e => pure (.error 400 "invalid_config" (.config e))
  | none =>
      match marshal d.yaml candidate with
      | none => pure (.error 500 "encode_config" .encode)
      | some data => install current candidate data "save_config" "config.update" "config.yaml"

/-- `putConfig` once it has the lock. -/
def putLocked (candidate : Config) : ServerProg Reply := do
  let current ← Cmd.perform .readConfig
  putCandidate d current candidate

def invalidRequest : Reply := .error 400 "invalid_request" .invalidRequest

def storeMissing : Reply := .error 503 "config_read_only" .configReadOnly

def putConfig : ServerProg Reply :=
  if !d.store then pure storeMissing
  else do
    match ← Cmd.perform (.readBody .config) with
    | none => pure invalidRequest
    | some candidate => transaction (.put candidate) Reply.failed (putLocked d candidate)

/-- `restoreConfigBackup` once it has the lock. -/
def restoreLocked (backup : String) (data : List Char) (runtimeCfg : Config) :
    ServerProg Reply := do
  let current ← Cmd.perform .readConfig
  install current runtimeCfg data "backup_restore" "config.restore" backup

def restoreConfigBackup (backup : String) : ServerProg Reply :=
  if !d.store then pure storeMissing
  else do
    match ← Cmd.perform (.readBackup backup) with
    | .error e => pure (.error 400 "backup_restore" (.backup e))
    | .ok data =>
        match load d.yaml d.env data with
        | .error e => pure (.error 400 "backup_restore" (.load e))
        | .ok persisted =>
            match runtime d.gcm persisted d.secret with
            | .error e => pure (.error 400 "backup_decrypt" (.runtime e))
            | .ok runtimeCfg =>
                transaction (.restore runtimeCfg) Reply.failed
                  (restoreLocked backup data runtimeCfg)

/-- `ReconcileConfig` once it has the lock. -/
def reconcileLocked (cfg : Config) : ServerProg (Option OpError) := do
  match ← applyClustersIfChanged cfg.clusters with
  | .error e => pure (some e)
  | .ok _ =>
      updateConfig cfg
      pure none

def reconcileConfig (cfg : Config) : ServerProg (Option OpError) :=
  transaction (.reconcile cfg) Option.isSome (reconcileLocked cfg)

/-! ## The watcher -/

/-- The callback `main` gives to `NewWatcher`. -/
def onChange (updated : Config) : ServerProg Unit :=
  match runtime d.gcm updated d.secret with
  | .error e => Cmd.perform (.rejected (.runtime e))
  | .ok runtimeCfg => do
      match ← reconcileConfig runtimeCfg with
      | some e => Cmd.perform (.rejected (.pool e))
      | none => pure ()

/-- `Poll` once it has the text and the hash of the last one. -/
def pollText (data : List Char) (known : List UInt8) : ServerProg Unit :=
  if d.sum256 data = known then pure ()
  else
    match load d.yaml d.env data with
    | .error _ => pure ()
    | .ok cfg => do
        Cmd.perform (.writeHash (d.sum256 data))
        onChange d cfg

/-- `Watcher.Poll` -/
def poll : ServerProg Unit := do
  Cmd.perform .pollBegin
  match ← Cmd.perform .readFile with
  | .error _ => Cmd.perform (.pollEnd none)
  | .ok data =>
      let known ← Cmd.perform .readHash
      pollText d data known
      Cmd.perform (.pollEnd (some data))

/-! ## Lookups -/

/-- The section under `configTxn.RLock()` of a lookup. -/
def readLocked {ε : Type} (id : String) (body : ServerProg (Except ε (Client × ClusterConfig))) :
    ServerProg (Except ε (Client × ClusterConfig)) := do
  Cmd.perform .rLock
  let r ← body
  Cmd.perform (.rUnlock (r.toOption.map fun found => ⟨id, found.1, found.2⟩))
  pure r

def kafkaClientLocked (id : String) : ServerProg (Except Problem (Client × ClusterConfig)) := do
  match ← Cmd.perform (.clusterConfig id) with
  | none => pure (.error (.clusterNotFound id))
  | some cfg =>
      match ← Cmd.perform (.kafkaClient id) with
      | none => pure (.error (.clusterOffline id))
      | some client => pure (.ok (client, cfg))

/-- The `kadm` client wraps the client. -/
def kafkaLocked (id : String) : ServerProg (Except Problem (Client × ClusterConfig)) :=
  kafkaClientLocked id

def kafkaClient (id : String) : ServerProg (Except Problem (Client × ClusterConfig)) :=
  readLocked id (kafkaClientLocked id)

def kafka (id : String) : ServerProg (Except Problem (Client × ClusterConfig)) :=
  readLocked id (kafkaLocked id)

/-- The common text of the two guards. -/
def writable (id action resource : String)
    (locked : ServerProg (Except Problem (Client × ClusterConfig))) :
    ServerProg (Except Reply (Client × ClusterConfig)) :=
  readLocked id do
    match ← Cmd.perform (.clusterConfig id) with
    | none => pure (.error (.error 503 "cluster_unavailable" (.clusterNotFound id)))
    | some cfg =>
        if cfg.readOnly then
          Cmd.perform (.audit action resource (some (.clusterReadOnly cfg.name)))
          pure (.error (.error 403 "cluster_read_only" (.clusterReadOnly cfg.name)))
        else
          match ← locked with
          | .error e => pure (.error (.error 503 "cluster_unavailable" e))
          | .ok found => pure (.ok found)

def writableKafka (id action resource : String) :
    ServerProg (Except Reply (Client × ClusterConfig)) :=
  writable id action resource (kafkaLocked id)

def writableKafkaClient (id action resource : String) :
    ServerProg (Except Reply (Client × ClusterConfig)) :=
  writable id action resource (kafkaClientLocked id)

/-! ## Mutating handlers -/

/-- The calls of a service, made to the cluster through the client. -/
def through {α : Type} (id : String) (client : Client) (p : Kafka.KafkaProg α) : ServerProg α :=
  p.interp fun call => Cmd.perform (.kafka id client call)

/-- A handler behind a guard. -/
def guarded (guard : ServerProg (Except Reply (Client × ClusterConfig)))
    (next : Client → ClusterConfig → ServerProg Reply) : ServerProg Reply := do
  match ← guard with
  | .error reply => pure reply
  | .ok (client, cfg) => next client cfg

def decodeJSON (b : Body) (next : b.Value → ServerProg Reply) : ServerProg Reply := do
  match ← Cmd.perform (.readBody b) with
  | none => pure invalidRequest
  | some request => next request

/-- How every mutating handler ends. -/
def answer (action resource : String) (problem : Option Problem) (reply : Reply) :
    ServerProg Reply := do
  Cmd.perform (.audit action resource problem)
  match problem with
  | some e => pure (.error 400 "kafka_error" e)
  | none => pure reply

def createTopic (cluster : String) : ServerProg Reply :=
  guarded (writableKafka cluster "topic.create" "") fun admin _ =>
    decodeJSON .topic fun request => do
      let err ← through cluster admin (Topic.create request)
      answer "topic.create" request.name (err.map .topic) (.done 201 none)

def deleteTopic (cluster name : String) : ServerProg Reply :=
  guarded (writableKafka cluster "topic.delete" name) fun admin _ => do
    let err ← through cluster admin (Topic.delete name)
    answer "topic.delete" name (err.map .topic) (.done 204 none)

def addPartitions (cluster topic : String) : ServerProg Reply :=
  guarded (writableKafka cluster "topic.partitions.add" topic) fun admin _ =>
    decodeJSON .count fun count => do
      let err ← through cluster admin (Topic.addPartitions topic count)
      answer "topic.partitions.add" topic (err.map .topic) (.done 204 none)

def alterTopicConfigs (cluster topic : String) : ServerProg Reply :=
  guarded (writableKafka cluster "topic.config.alter" topic) fun admin _ =>
    decodeJSON .topicConfigs fun configs => do
      let err ← through cluster admin (Topic.alterConfigs topic configs)
      answer "topic.config.alter" topic (err.map .topic) (.done 204 none)

def produceMessage (cluster : String) : ServerProg Reply :=
  guarded (writableKafkaClient cluster "message.produce" "") fun client cfg =>
    decodeJSON .message fun request => do
      match ← through cluster client (Message.produce cfg request) with
      | .error e => answer "message.produce" request.topic (some (.message e)) (.done 201 none)
      | .ok record => answer "message.produce" request.topic none (.done 201 (some record))

def resetConsumerGroup (cluster group : String) : ServerProg Reply :=
  guarded (writableKafka cluster "consumer.offset.reset" group) fun admin _ =>
    decodeJSON .reset fun request => do
      let err ← through cluster admin (Consumer.reset { request with group := group })
      answer "consumer.offset.reset" group (err.map .consumer) (.done 204 none)

def deleteConsumerGroup (cluster group : String) : ServerProg Reply :=
  guarded (writableKafka cluster "consumer.group.delete" group) fun admin _ => do
    let err ← through cluster admin (Consumer.delete group)
    answer "consumer.group.delete" group (err.map .consumer) (.done 204 none)

/-! ## The system -/

/-- What a thread runs: a request with its path values, or one poll. -/
inductive Task
  | putConfig
  | restoreConfigBackup (backup : String)
  | poll
  | kafka (cluster : String)
  | kafkaClient (cluster : String)
  | createTopic (cluster : String)
  | deleteTopic (cluster topic : String)
  | addPartitions (cluster topic : String)
  | alterTopicConfigs (cluster topic : String)
  | produceMessage (cluster : String)
  | resetConsumerGroup (cluster group : String)
  | deleteConsumerGroup (cluster group : String)

/-- A program of which only the effects matter. -/
def ended {α : Type} (p : ServerProg α) : ServerProg (Option Reply) := do
  let _ ← p
  pure none

/-- A handler. -/
def replied (p : ServerProg Reply) : ServerProg (Option Reply) := do
  let reply ← p
  pure (some reply)

def Task.prog : Task → ServerProg (Option Reply)
  | .putConfig => replied (Api.putConfig d)
  | .restoreConfigBackup backup => replied (Api.restoreConfigBackup d backup)
  | .poll => ended (Api.poll d)
  | .kafka cluster => ended (Api.kafka cluster)
  | .kafkaClient cluster => ended (Api.kafkaClient cluster)
  | .createTopic cluster => replied (Api.createTopic cluster)
  | .deleteTopic cluster topic => replied (Api.deleteTopic cluster topic)
  | .addPartitions cluster topic => replied (Api.addPartitions cluster topic)
  | .alterTopicConfigs cluster topic => replied (Api.alterTopicConfigs cluster topic)
  | .produceMessage cluster => replied (Api.produceMessage cluster)
  | .resetConsumerGroup cluster group => replied (Api.resetConsumerGroup cluster group)
  | .deleteConsumerGroup cluster group => replied (Api.deleteConsumerGroup cluster group)

def server : Machine Cmd Cmd.Answer (Option Reply) State Outside Task where
  exec := Cmd.exec d
  env := Outside.exec d
  prog := Task.prog d

abbrev ServerPool : Type := Pool Cmd Cmd.Answer (Option Reply) State

abbrev ServerEvent : Type := Event Cmd Cmd.Answer Outside Task

/-- A server that has just been built, no request begun. -/
def started (cfg : Config) (pool : Sys) (file : List Char) : ServerPool :=
  { shared := newServer d cfg pool file, threads := [] }

end KafkaManager.Api
