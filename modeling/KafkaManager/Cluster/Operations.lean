import KafkaManager.Cluster.Manager
import KafkaManager.Lib.Run

/-!
# The operations of the pool, interleaved

`Apply` and `Upsert` take a snapshot under the read lock, create and ping
clients with no lock held, and commit under the write lock. `SetDesired`,
`Retain` and `Close` are one critical section each. All five close the clients
they removed, or the clients they created and may not install, after the lock
is released, one call at a time.

An `Op` is an operation that has begun, with the local variables it still
needs; `closing [] r` is one that has returned `r`. A `Sys` is the pool
together with every operation ever begun, in the order they began, so that an
operation is named by its position. A `Move` is what one operation does next
and, where the outside world has a say, what it said: whether `Create` failed
and which client it returned, whether the ping was answered. Any interleaving
of any number of operations is a list of actions.

`created` and `closed` are not in the source: they record the successful
`Create` calls, each with the operation that made it, and the `Close` calls.
-/

namespace KafkaManager.Cluster

open Lib

/-- The arguments of a call to the pool. -/
inductive Request
  | apply (clusters : List ClusterConfig)
  | upsert (cfg : ClusterConfig)
  | setDesired (clusters : List ClusterConfig)
  | retain (active : List String)
  | close

/-- The errors of `Apply` and `Upsert`. -/
inductive OpError
  | connect (id : String)       -- connect cluster %s: the factory's error
  | ping (id : String)          -- ping cluster %s: the client's error
  | stale                       -- ErrStaleConfiguration
  | connectStale (id : String)  -- connect cluster %s: ErrStaleConfiguration
deriving DecidableEq, Repr

/-- The variables of `Apply` after its snapshot. `todo` is what its loop over
`clusters` has left. -/
structure ApplyLocals where
  generation : Nat
  desired : ConfigMap
  reused : GoMap String Bool
  clusters : List ClusterConfig
  todo : List ClusterConfig
  created : GoMap String Client

/-- The loop's next cluster to connect, and the ones after it: a cluster that
is disabled or whose client is reused is passed over. -/
def ApplyLocals.remaining (l : ApplyLocals) : List ClusterConfig :=
  l.todo.dropWhile fun cfg => cfg.disabled || flag l.reused cfg.id

inductive Op
  | apply (l : ApplyLocals)
  | applyPing (l : ApplyLocals) (cfg : ClusterConfig) (client : Client)
  | upsert (generation : Nat) (cfg : ClusterConfig)
  | upsertPing (generation : Nat) (cfg : ClusterConfig) (client : Client)
  | upsertReady (generation : Nat) (cfg : ClusterConfig) (client : Client)
  | closing (pending : List (Option Client)) (result : Option OpError)

/-- What an operation does next. A client the factory returns is given by its
identity and its dynamic type. -/
inductive Move
  | create (outcome : Option (Nat × Bool))
  | ping (answered : Bool)
  | commit
  | close
deriving DecidableEq, Repr

/-- `Apply` is under way. -/
def Op.applying : Op → Bool
  | .apply _ | .applyPing .. => true
  | _ => false

/-- The factory or the cluster failed. -/
def Move.fails : Move → Bool
  | .create none | .ping false => true
  | _ => false

/-- What a move changes. -/
structure Effect where
  mgr : Manager
  op : Op
  created : List Client := []
  closed : List Client := []

/-- `closeClients(created)` -/
def closeCreated (created : GoMap String Client) : List (Option Client) :=
  (GoMap.vals created).map some

/-- The first critical section of an operation, and what is left to do. -/
def Manager.begin (m : Manager) : Request → Manager × Op
  | .apply clusters =>
      let desired := enabledConfigs clusters
      (m, .apply
        { generation := m.generation
          desired := desired
          reused := m.reused desired
          clusters := clusters
          todo := clusters
          created := ∅ })
  | .upsert cfg =>
      if m.desiredAllowsLocked cfg then (m, .upsert m.generation cfg)
      else (m, .closing [] (some (.connectStale cfg.id)))
  | .setDesired clusters =>
      let (m', removed) := m.setDesired clusters
      (m', .closing removed none)
  | .retain active =>
      let (m', removed) := m.retain active
      (m', .closing removed none)
  | .close =>
      let (m', removed) := m.close
      (m', .closing removed none)

/-- One move of an operation, if it is the one to make next. Closing a nil
interface panics, so that move does not exist. -/
def Op.move (m : Manager) : Op → Move → Option Effect
  | .apply l, .create outcome =>
      match l.remaining with
      | [] => none
      | cfg :: rest =>
          match outcome with
          | none =>
              some { mgr := m, op := .closing (closeCreated l.created) (some (.connect cfg.id)) }
          | some (serial, isKafka) =>
              let client : Client := ⟨serial, cfg, isKafka⟩
              some { mgr := m
                     op := .applyPing { l with todo := rest } cfg client
                     created := [client] }
  | .applyPing l cfg client, .ping answered =>
      if answered then
        some { mgr := m, op := .apply { l with created := l.created.insert cfg.id client } }
      else
        some { mgr := m
               op := .closing (some client :: closeCreated l.created) (some (.ping cfg.id)) }
  | .apply l, .commit =>
      match l.remaining with
      | _ :: _ => none
      | [] =>
          match m.applyCommit l.generation l.desired l.reused l.created with
          | none => some { mgr := m, op := .closing (closeCreated l.created) (some .stale) }
          | some (m', old) => some { mgr := m', op := .closing old none }
  | .upsert generation cfg, .create outcome =>
      match outcome with
      | none => some { mgr := m, op := .closing [] (some (.connect cfg.id)) }
      | some (serial, isKafka) =>
          let client : Client := ⟨serial, cfg, isKafka⟩
          some { mgr := m, op := .upsertPing generation cfg client, created := [client] }
  | .upsertPing generation cfg client, .ping answered =>
      if answered then some { mgr := m, op := .upsertReady generation cfg client }
      else some { mgr := m, op := .closing [some client] (some (.ping cfg.id)) }
  | .upsertReady generation cfg client, .commit =>
      match m.upsertCommit generation cfg client with
      | none => some { mgr := m, op := .closing [some client] (some (.connectStale cfg.id)) }
      | some (m', none) => some { mgr := m', op := .closing [] none }
      | some (m', some old) => some { mgr := m', op := .closing [some old] none }
  | .closing (some client :: pending) result, .close =>
      some { mgr := m, op := .closing pending result, closed := [client] }
  | _, _ => none

/-- The pool and its operations. -/
structure Sys where
  mgr : Manager
  ops : List Op
  created : List (Nat × Client)
  closed : List Client

/-- A call begins, or an operation moves. -/
inductive Action
  | start (r : Request)
  | move (o : Nat) (v : Move)

namespace Sys

/-- A pool from `NewManager`, no operation begun. -/
def init : Sys := { mgr := newManager, ops := [], created := [], closed := [] }

def start (s : Sys) (r : Request) : Sys :=
  { s with mgr := (s.mgr.begin r).1, ops := s.ops ++ [(s.mgr.begin r).2] }

/-- The state after operation `o` had the effect `e`. -/
def apply (s : Sys) (o : Nat) (e : Effect) : Sys :=
  { mgr := e.mgr
    ops := s.ops.set o e.op
    created := s.created ++ e.created.map fun c => (o, c)
    closed := s.closed ++ e.closed }

def move (s : Sys) (o : Nat) (v : Move) : Sys :=
  match s.ops[o]?.bind fun op => op.move s.mgr v with
  | none => s
  | some e => s.apply o e

def step (s : Sys) : Action → Sys
  | .start r => s.start r
  | .move o v => s.move o v

/-- A move either changes nothing or is the next move of an operation. -/
theorem move_cases (s : Sys) (o : Nat) (v : Move) :
    s.move o v = s ∨ ∃ op e, s.ops[o]? = some op ∧ op.move s.mgr v = some e
      ∧ s.move o v = s.apply o e := by
  unfold move
  cases hop : s.ops[o]? with
  | none => exact Or.inl rfl
  | some op =>
      cases he : op.move s.mgr v with
      | none => simp [he]
      | some e => exact Or.inr ⟨op, e, rfl, he, by simp [he]⟩

end Sys

/-- The pool after the first call of `main`, which fixes the desired set. -/
def Sys.initWith (clusters : List ClusterConfig) : Sys :=
  Sys.init.start (.setDesired clusters)

end KafkaManager.Cluster
