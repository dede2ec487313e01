import KafkaManager.Lib.Threads
import KafkaManager.Config.Store
import KafkaManager.Cluster.Operations
import KafkaManager.Dashboard.Sampler
import KafkaManager.Kafka.Topic
import KafkaManager.Kafka.Consumer
import KafkaManager.Kafka.Message

/-!
# The server (`Server` in `internal/api/server.go`) and its watcher

A request handler is a program over the commands of this file, and so is the
goroutine of `main` that calls `Watcher.Poll`. One command is one access to
what the server shares: a critical section of `mu`, of the sampler or of the
pool, an operation of the lock `configTxn`, a read or a replacement of the
file, one call to a Kafka cluster. Everything between two commands is local.

The pool is the one of `Cluster/Operations.lean`, so that a call of `Apply` is
two commands: it begins, and it is waited for, while its own moves and those
of the sampler's `Upsert` calls come from the surroundings. `Save` is one
command: it replaces the file or leaves it.

`State` has some fields the source does not have. `shadow` is the sampler as
it would be without the transaction that holds the lock, `saved` what `Save`
has stored and the server does not run yet, `pending` that the watcher has
recorded a text and its configuration has not been applied, `contents` every
text the file has had, `log` what requests looked up and sent. `astray` is set
by the steps after which the file and the server may differ for good. Nothing
a handler does depends on them.
-/

namespace KafkaManager

/-- The loop of `clusterConfig`. -/
def Config.cluster (cfg : Config) (id : String) : Option ClusterConfig :=
  cfg.clusters.find? fun c => c.id == id

namespace Api

open Lib Cluster Dashboard

/-- What a server is given and does not change. `store` is whether the pointer
is there. -/
structure Setting where
  yaml : Yaml
  gcm : Gcm
  env : Environment
  secret : List UInt8
  sum256 : List Char → List UInt8
  store : Bool

/-- `Runtime` of what `Load` makes of a text, if both accept it. -/
def Setting.loadRuntime (d : Setting) (text : List Char) : Option Config :=
  match load d.yaml d.env text with
  | .error _ => none
  | .ok persisted => (runtime d.gcm persisted d.secret).toOption

/-! ## Errors and replies -/

/-- The errors of `LoadBackup` before it loads the text. -/
inductive BackupError
  | invalidID             -- invalid backup id
  | read (e : FileError)  -- read backup: %w
deriving DecidableEq, Repr

/-- The message of an error. -/
inductive Problem
  | configReadOnly                    -- 配置文件不可写
  | invalidRequest                    -- 请求格式不正确: the decoder's error
  | config (e : ConfigError)
  | encode                            -- the encoder's error
  | pool (e : OpError)
  | save (e : SaveError)
  | saveRollback (e : SaveError) (rollback : OpError)
                                      -- %v; restore previous cluster connections: %v
  | backup (e : BackupError)
  | load (e : LoadError)
  | runtime (e : RuntimeError)
  | clusterNotFound (id : String)     -- cluster %q not found
  | clusterOffline (id : String)      -- cluster %q is offline
  | clusterReadOnly (name : String)   -- 集群 %s 已启用只读模式，禁止执行写操作
  | topic (e : Topic.TopicError)
  | consumer (e : Consumer.ConsumerError)
  | message (e : Message.MessageError)

/-- `writeError`, or a status with the record that was produced, if any. -/
inductive Reply
  | done (status : Nat) (record : Option Message.Record)
  | error (status : Nat) (code : String) (problem : Problem)

def Reply.failed : Reply → Bool
  | .done .. => false
  | .error .. => true

/-! ## Transactions -/

/-- The argument of a transaction: the decoded candidate of `putConfig`, the
backup's configuration, the reloaded one. -/
inductive Txn
  | put (candidate : Config)
  | restore (cfg : Config)
  | reconcile (cfg : Config)

/-- The loop of `putConfig` that keeps a password the candidate leaves out. -/
def fillPassword (current : Config) (cfg : ClusterConfig) : ClusterConfig :=
  if cfg.security.password = "" then
    match current.clusters.find? fun old => old.id == cfg.id with
    | some old => { cfg with security := { cfg.security with password := old.security.password } }
    | none => cfg
  else cfg

/-- The secrets `putConfig` takes over from the configuration it replaces. -/
def fillSecrets (current candidate : Config) : Config :=
  { candidate with
    server := { candidate.server with
      passwordHash :=
        if candidate.server.passwordHash = "" then current.server.passwordHash
        else candidate.server.passwordHash
      password :=
        if candidate.server.password = "" then current.server.password
        else candidate.server.password }
    clusters := candidate.clusters.map (fillPassword current) }

/-- The configuration a transaction is to put in force. -/
def Txn.target (current : Config) : Txn → Config
  | .put candidate => fillSecrets current candidate
  | .restore cfg | .reconcile cfg => cfg

def Txn.reload : Txn → Bool
  | .reconcile _ => true
  | _ => false

/-- Who holds `configTxn` exclusively, for what, and what was in force when it
took the lock. -/
structure Holder where
  thread : Nat
  txn : Txn
  cfg : Config
  desired : ConfigMap

/-! ## State -/

/-- What happened: a configuration came into force, `clusterConfig` was
answered, a call went to a cluster. -/
inductive Mark
  | config (cfg : Config)
  | lookup (thread : Nat) (id : String) (entry : Option ClusterConfig)
  | sent (thread : Nat) (id : String) (call : Kafka.Call)

/-- The server, the file and the watcher. The newest mark of `log` is first. -/
structure State where
  cfg : Config
  monitor : Sampler
  pool : Sys
  writer : Option Holder
  readers : List Nat
  file : List Char
  hash : List UInt8
  polling : Option Nat
  shadow : Sampler
  saved : Option Config
  pending : Bool
  contents : List (List Char)
  log : List Mark
  astray : Bool

/-- `NewServer`, and `NewWatcher` on a file with this text. -/
def newServer (d : Setting) (cfg : Config) (pool : Sys) (file : List Char) : State :=
  let monitor := Sampler.new cfg.clusters (dashboardOptions cfg)
  { cfg := cfg
    monitor := monitor
    pool := pool.start (.setDesired cfg.clusters)
    writer := none
    readers := []
    file := file
    hash := d.sum256 file
    polling := none
    shadow := monitor
    saved := none
    pending := false
    contents := [file]
    log := [.config cfg]
    astray := d.loadRuntime file != some cfg }

namespace State

/-- The configuration in force, or the one that is stored and about to be. -/
def coming (s : State) : Config := s.saved.getD s.cfg

def note (s : State) (m : Mark) : State := { s with log := m :: s.log }

def acquire (s : State) (t : Nat) (txn : Txn) : State :=
  { s with writer := some ⟨t, txn, s.cfg, s.pool.mgr.desired⟩, shadow := s.monitor }

def release (s : State) : State := { s with writer := none }

def enter (s : State) (t : Nat) : State := { s with readers := t :: s.readers }

def leave (s : State) (t : Nat) : State := { s with readers := s.readers.erase t }

/-- The lock is held for a reload. -/
def reloading (s : State) : Bool := s.writer.any fun h => h.txn.reload

/-- `s.cfg = cfg`. A reload thereby applies what the watcher has recorded. -/
def setConfig (s : State) (cfg : Config) : State :=
  { s with
    cfg := cfg
    saved := none
    pending := s.pending && !s.reloading
    log := .config cfg :: s.log }

def setMonitor (s : State) (monitor : Sampler) : State := { s with monitor := monitor }

def setPool (s : State) (pool : Sys) : State := { s with pool := pool }

/-- `Save` has replaced the file. The server goes astray if it is about to run
something else than the file says. -/
def store (s : State) (d : Setting) (text : List Char) : State :=
  let target := s.writer.map fun h => h.txn.target h.cfg
  { s with
    file := text
    saved := target
    contents := text :: s.contents
    astray := s.astray || d.loadRuntime text != target }

/-- Somebody writes the file. The watcher will not see that it changed if it
holds the hash of this text already. -/
def edit (s : State) (d : Setting) (text : List Char) : State :=
  { s with
    file := text
    contents := text :: s.contents
    astray := s.astray ||
      (!s.pending && d.sum256 text == s.hash &&
        (d.loadRuntime text).any fun cfg => cfg != s.coming) }

def record (s : State) (hash : List UInt8) : State := { s with hash := hash, pending := true }

def beginPoll (s : State) (t : Nat) : State := { s with polling := some t }

def endPoll (s : State) : State := { s with polling := none }

/-- A reload was rejected. -/
def reject (s : State) : State := { s with pending := false }

def sample (s : State) (x : Samples) : State :=
  { s with monitor := s.monitor.sampled x, shadow := s.shadow.sampled x }

def lose (s : State) : State := { s with astray := true }

end State

/-! ## Commands -/

/-- What a request body is decoded into. -/
inductive Body
  | config
  | topic
  | count
  | topicConfigs
  | message
  | reset

abbrev Body.Value : Body → Type
  | .config => Config
  | .topic => Topic.CreateRequest
  | .count => Int
  | .topicConfigs => GoMap String (Option String)
  | .message => Message.ProduceRequest
  | .reset => Consumer.ResetRequest

/-- A client and the configuration it is returned with. -/
structure Found where
  id : String
  client : Client
  cfg : ClusterConfig

/-- `unlock` is given whether the transaction reports an error, `rUnlock` what
the lookup returns, `pollEnd` the text the poll has read: the deferred calls
run when that is decided. -/
inductive Cmd
  | readBody (b : Body)
  | lock (txn : Txn)
  | unlock (failed : Bool)
  | rLock
  | rUnlock (returned : Option Found)
  | readConfig
  | clusterConfig (id : String)
  | writeConfig (cfg : Config)
  | updateMonitor (cfg : Config)
  | matchesClusters (clusters : List ClusterConfig)
  | begin (r : Request)
  | await (o : Nat)
  | kafkaClient (id : String)
  | readBackup (id : String)
  | save (text : List Char)
  | kafka (id : String) (client : Client) (call : Kafka.Call)
  | audit (action resource : String) (problem : Option Problem)
  | pollBegin
  | readFile
  | readHash
  | writeHash (hash : List UInt8)
  | rejected (problem : Problem)
  | pollEnd (text : Option (List Char))

abbrev Cmd.Answer : Cmd → Type
  | .readBody b => Option b.Value
  | .readConfig => Config
  | .clusterConfig _ => Option ClusterConfig
  | .matchesClusters _ => Bool
  | .begin _ => Nat
  | .await _ => Option OpError
  | .kafkaClient _ => Option Client
  | .readBackup _ => Except BackupError (List Char)
  | .save _ => Option SaveError
  | .kafka _ _ call => call.Answer
  | .readFile => Except FileError (List Char)
  | .readHash => List UInt8
  | .lock _ | .unlock _ | .rLock | .rUnlock _ | .writeConfig _ | .updateMonitor _ | .audit ..
  | .pollBegin | .writeHash _ | .rejected _ | .pollEnd _ => Unit

abbrev ServerProg (α : Type) : Type := Prog Cmd Cmd.Answer α

abbrev Cmd.perform (c : Cmd) : ServerProg c.Answer := Prog.call c

/-- What a command of thread `t` does. A lock that is not free and an operation
of the pool that has not returned are waited for; polls are one thread's. -/
def Cmd.exec (d : Setting) (t : Nat) :
    (c : Cmd) → Oracle Cmd Cmd.Answer → State → Option (c.Answer × State)
  | .readBody b, o, s => (o (.readBody b)).map fun r => (r, s)
  | .lock txn, _, s =>
      if s.writer.isNone && s.readers.isEmpty then some ((), s.acquire t txn) else none
  | .unlock _, _, s => some ((), s.release)
  | .rLock, _, s => if s.writer.isNone then some ((), s.enter t) else none
  | .rUnlock _, _, s => some ((), s.leave t)
  | .readConfig, _, s => some (s.cfg, s)
  | .clusterConfig id, _, s => some (s.cfg.cluster id, s.note (.lookup t id (s.cfg.cluster id)))
  | .writeConfig cfg, _, s => some ((), s.setConfig cfg)
  | .updateMonitor cfg, _, s =>
      some ((), s.setMonitor (s.monitor.update cfg.clusters (dashboardOptions cfg)))
  | .matchesClusters clusters, _, s => some (s.pool.mgr.matchesClusters clusters, s)
  | .begin r, _, s => some (s.pool.ops.length, s.setPool (s.pool.start r))
  | .await o, _, s =>
      match s.pool.ops[o]? with
      | some (.closing [] r) => some (r, s)
      | _ => none
  | .kafkaClient id, _, s => some (s.pool.mgr.kafka id, s)
  | .readBackup id, o, s => (o (.readBackup id)).map fun r => (r, s)
  | .save text, o, s =>
      match load d.yaml d.env text with
      | .error e => some (some (.load e), s)
      | .ok _ =>
          match o (.save text) with
          | none => none
          | some (some e) => some (some e, s)
          | some none => some (none, s.store d text)
  | .kafka id client call, o, s =>
      (o (.kafka id client call)).map fun r => (r, s.note (.sent t id call))
  | .audit .., _, s => some ((), s)
  | .pollBegin, _, s => if s.polling.isNone then some ((), s.beginPoll t) else none
  | .readFile, o, s =>
      (o .readFile).map fun r =>
        match r with
        | .error e => (.error e, s)
        | .ok _ => (.ok s.file, s)
  | .readHash, _, s => some (s.hash, s)
  | .writeHash hash, _, s => some ((), s.record hash)
  | .rejected _, _, s => some ((), s.reject)
  | .pollEnd _, _, s => some ((), s.endPoll)

/-! ## The surroundings -/

/-- The sampler begins an `Upsert`, an operation of the pool moves, the sampler
stores what it found, somebody writes the file. -/
inductive Outside
  | upsert (cfg : ClusterConfig)
  | move (o : Nat) (v : Move)
  | sample (x : Samples)
  | write (text : List Char)

/-- A reload fails to connect. -/
def State.failsReload (s : State) (o : Nat) (v : Move) : Bool :=
  s.reloading && v.fails && (s.pool.ops[o]?).any Op.applying

def Outside.exec (d : Setting) : Outside → State → State
  | .upsert cfg, s => s.setPool (s.pool.start (.upsert cfg))
  | .move o v, s =>
      if s.failsReload o v then (s.setPool (s.pool.move o v)).lose
      else s.setPool (s.pool.move o v)
  | .sample x, s => s.sample x
  | .write text, s => s.edit d text

end Api

end KafkaManager
