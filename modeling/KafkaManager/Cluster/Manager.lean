import KafkaManager.Lib.GoMap
import KafkaManager.Config.Model

/-!
# The client pool (`internal/cluster/manager.go`)

`Manager` is the Go struct without its mutex: every definition here is one
critical section, run under the read or the write lock, and so atomic. The
slow part of `Apply` and `Upsert`, the calls to the factory between the
snapshot and the commit, is in `Cluster/Operations.lean`.

Two things in the Go text are easy to lose in a model and are kept here. A
client map may hold a nil interface: `Apply` copies `old[id]` without asking
whether it is there, so a value of `clients` is an `Option Client`. And
`Apply` stores the *same* map under `configs` and `desired`, so that until the
next `SetDesired` or `Close` a write through `configs` is a write to
`desired`; `ConfigMaps` says which of the two situations holds.

`generation` is a counter that only grows. The source has it as a `uint64`; a
wrap needs 2^64 commits during one operation and is not modelled.
-/

namespace KafkaManager.Cluster

open Lib

/-- A connected client: the identity the factory gave it, the configuration
`Create` was called with, and whether its dynamic type is `*KafkaClient`. The
middle field is what the pool never reads back; it is there to be proved
about. -/
structure Client where
  serial : Nat
  createdFrom : ClusterConfig
  isKafka : Bool
deriving DecidableEq, Repr

abbrev ConfigMap := GoMap String ClusterConfig

abbrev ClientMap := GoMap String (Option Client)

/-- The fields `configs` and `desired`: one map object under both names, or
two. -/
inductive ConfigMaps
  | shared (m : ConfigMap)
  | separate (configs desired : ConfigMap)

namespace ConfigMaps

def configs : ConfigMaps → ConfigMap
  | .shared m => m
  | .separate configs _ => configs

def desired : ConfigMaps → ConfigMap
  | .shared m => m
  | .separate _ desired => desired

/-- `m.configs[id] = cfg` -/
def setConfig (id : String) (cfg : ClusterConfig) : ConfigMaps → ConfigMaps
  | .shared m => .shared (m.insert id cfg)
  | .separate configs desired => .separate (configs.insert id cfg) desired

/-- `delete(m.configs, id)` for every `id` that is not kept. -/
def deleteConfigs (keep : String → Bool) : ConfigMaps → ConfigMaps
  | .shared m => .shared (m.filter fun id _ => keep id)
  | .separate configs desired => .separate (configs.filter fun id _ => keep id) desired

/-- `m.desired = desired`, a fresh map. -/
def setDesired (desired : ConfigMap) (maps : ConfigMaps) : ConfigMaps :=
  .separate maps.configs desired

end ConfigMaps

structure Manager where
  clients : ClientMap
  maps : ConfigMaps
  desiredSet : Bool
  generation : Nat

/-- `NewManager` -/
def newManager : Manager :=
  { clients := ∅, maps := .separate ∅ ∅, desiredSet := false, generation := 0 }

def enabledConfigs (clusters : List ClusterConfig) : ConfigMap :=
  clusters.foldl (fun enabled cfg => if cfg.disabled then enabled else enabled.insert cfg.id cfg) ∅

def sameConnection (left right : ClusterConfig) : Bool :=
  left.brokers == right.brokers && left.security == right.security

/-- The value read from a client map without the comma-ok: nil if missing. -/
def ClientMap.value (clients : ClientMap) (id : String) : Option Client := clients[id]?.join

/-- The value read from a set of booleans: false if missing. -/
def flag (m : GoMap String Bool) (id : String) : Bool := m[id]?.getD false

namespace Manager

abbrev configs (m : Manager) : ConfigMap := m.maps.configs

abbrev desired (m : Manager) : ConfigMap := m.maps.desired

def desiredAllowsLocked (m : Manager) (cfg : ClusterConfig) : Bool :=
  if !m.desiredSet then true
  else match m.desired[cfg.id]? with
    | some wanted => sameConnection wanted cfg
    | none => false

/-- The map `reused` that `Apply` fills under the read lock. -/
def reused (m : Manager) (desired : ConfigMap) : GoMap String Bool :=
  desired.map fun id cfg =>
    match m.configs[id]? with
    | some active => m.clients.contains id && sameConnection active cfg
    | none => false

/-- The map `next` that `Apply` builds under the write lock. -/
def nextClients (m : Manager) (desired : ConfigMap) (created : GoMap String Client) : ClientMap :=
  desired.map fun id _ =>
    match created[id]? with
    | some client => some client
    | none => ClientMap.value m.clients id

/-- The critical section that ends `Apply`: `none` if the generation moved,
else the new fields and the clients that are closed after the unlock. -/
def applyCommit (m : Manager) (generation : Nat) (desired : ConfigMap)
    (reused : GoMap String Bool) (created : GoMap String Client) :
    Option (Manager × List (Option Client)) :=
  if generation ≠ m.generation then none
  else
    some ({ clients := m.nextClients desired created
            maps := .shared desired
            desiredSet := true
            generation := m.generation + 1 },
      GoMap.vals (m.clients.filter fun id _ => !flag reused id))

/-- The critical section that ends `Upsert`: `none` if the configuration went
stale, else the new fields and the client that was replaced. -/
def upsertCommit (m : Manager) (generation : Nat) (cfg : ClusterConfig) (client : Client) :
    Option (Manager × Option Client) :=
  if generation ≠ m.generation ∨ !m.desiredAllowsLocked cfg then none
  else
    some ({ m with clients := m.clients.insert cfg.id (some client)
                   maps := m.maps.setConfig cfg.id cfg },
      ClientMap.value m.clients cfg.id)

/-- The test by which `SetDesired` leaves a client alone. -/
def wantedAsActive (m : Manager) (desired : ConfigMap) (id : String) : Bool :=
  match m.configs[id]?, desired[id]? with
  | some active, some wanted => sameConnection active wanted
  | _, _ => false

/-- `SetDesired`: the new fields and the clients removed. The loop deletes
from the maps while it ranges over `clients`, but the entry it tests is never
one it has deleted. -/
def setDesired (m : Manager) (clusters : List ClusterConfig) : Manager × List (Option Client) :=
  let desired := enabledConfigs clusters
  let keep := m.wantedAsActive desired
  let removed := m.clients.filter fun id _ => !keep id
  ({ clients := m.clients.filter fun id _ => keep id
     maps := (m.maps.deleteConfigs fun id => !removed.contains id).setDesired desired
     desiredSet := true
     generation := m.generation + 1 },
    GoMap.vals removed)

/-- `Retain`: the new fields and the clients removed. -/
def retain (m : Manager) (active : List String) : Manager × List (Option Client) :=
  let removed := m.clients.filter fun id _ => !active.contains id
  ({ m with clients := m.clients.filter fun id _ => active.contains id
            maps := m.maps.deleteConfigs fun id => !removed.contains id
            generation := if removed.size > 0 then m.generation + 1 else m.generation },
    GoMap.vals removed)

/-- `Close`: the new fields and the clients removed. -/
def close (m : Manager) : Manager × List (Option Client) :=
  ({ clients := ∅, maps := .separate ∅ ∅, desiredSet := true, generation := m.generation + 1 },
    GoMap.vals m.clients)

/-- `Matches`: the requested connections are already authoritative. -/
def matchesClusters (m : Manager) (clusters : List ClusterConfig) : Bool :=
  let enabled := enabledConfigs clusters
  if !m.desiredSet || enabled.size != m.desired.size then false
  else enabled.toList.all fun (id, cfg) =>
    match m.desired[id]? with
    | some wanted => sameConnection wanted cfg
    | none => false

/-- `Get` -/
def get (m : Manager) (id : String) : Option (Option Client) := m.clients[id]?

/-- `Kafka`: the client, if there is one and its dynamic type is
`*KafkaClient`. -/
def kafka (m : Manager) (id : String) : Option Client :=
  match m.get id with
  | some (some client) => if client.isKafka then some client else none
  | _ => none

end Manager

end KafkaManager.Cluster
