import KafkaManager.Cluster.Operations

/-!
# Connections at start-up (the closure `connect` of `main.go`)

`main` fixes the desired set, and `connect` starts one goroutine for each
enabled cluster. A semaphore lets four of them at a time call `Upsert`; an
error is logged, and the program goes on without that cluster. When all have
ended `Retain` is called with the ids of the enabled clusters.

`Connections` is the pool with the goroutines. What an `Upsert` does is a move
of its operation, so that the moves of all operations interleave.
-/

namespace KafkaManager.Cluster

open Lib

/-- Where a goroutine is: in front of the semaphore, in the `Upsert` that is
operation `o` of the pool, past it. -/
inductive Attempt
  | waiting
  | running (o : Nat)
  | finished (o : Nat)
deriving DecidableEq, Repr

/-- The operation of an attempt that has begun. -/
def Attempt.op : Attempt → Option Nat
  | .waiting => none
  | .running o | .finished o => some o

def Attempt.isRunning : Attempt → Bool
  | .running _ => true
  | .waiting | .finished _ => false

def Attempt.isFinished : Attempt → Bool
  | .finished _ => true
  | .waiting | .running _ => false

/-- `retaining` is the operation of the call of `Retain`. -/
structure Connections where
  pool : Sys
  attempts : List (ClusterConfig × Attempt)
  retaining : Option Nat

inductive ConnectEvent
  | acquire (k : Nat)
  | move (o : Nat) (v : Move)
  | release (k : Nat)
  | retain
deriving DecidableEq, Repr

/-- The loop of `connect` passes over clusters that are not enabled. -/
def activeClusters (clusters : List ClusterConfig) : List ClusterConfig :=
  clusters.filter fun cfg => !cfg.disabled

/-- The capacity of the semaphore. -/
def connectSlots : Nat := 4

namespace Connections

/-- `main` at its call of `connect`. -/
def new (clusters : List ClusterConfig) : Connections :=
  { pool := Sys.initWith clusters
    attempts := (activeClusters clusters).map fun cfg => (cfg, .waiting)
    retaining := none }

/-- How many goroutines hold the semaphore. -/
def running (c : Connections) : Nat := c.attempts.countP fun a => a.2.isRunning

/-- `semaphore <- struct{}{}`, and `Upsert` begins. -/
def acquire (c : Connections) (k : Nat) : Connections :=
  match c.attempts[k]? with
  | some (cfg, .waiting) =>
      if c.running < connectSlots then
        { c with
          pool := c.pool.start (.upsert cfg)
          attempts := c.attempts.set k (cfg, .running c.pool.ops.length) }
      else c
  | _ => c

def move (c : Connections) (o : Nat) (v : Move) : Connections := { c with pool := c.pool.move o v }

/-- `Upsert` has returned, and the goroutine ends. -/
def release (c : Connections) (k : Nat) : Connections :=
  match c.attempts[k]? with
  | some (cfg, .running o) =>
      match c.pool.ops[o]? with
      | some (.closing [] _) => { c with attempts := c.attempts.set k (cfg, .finished o) }
      | _ => c
  | _ => c

/-- `connections.Wait()` returns, and `Retain` is called. -/
def retain (c : Connections) : Connections :=
  if c.retaining.isNone && c.attempts.all fun a => a.2.isFinished then
    { c with
      pool := c.pool.start (.retain (c.attempts.map fun a => a.1.id))
      retaining := some c.pool.ops.length }
  else c

def step (c : Connections) : ConnectEvent → Connections
  | .acquire k => c.acquire k
  | .move o v => c.move o v
  | .release k => c.release k
  | .retain => c.retain

/-- `connect` has returned. -/
def returned (c : Connections) : Bool :=
  match c.retaining.bind fun o => c.pool.ops[o]? with
  | some (.closing [] _) => true
  | _ => false

end Connections

end KafkaManager.Cluster
