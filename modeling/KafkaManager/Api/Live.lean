import KafkaManager.Api.Handlers
import KafkaManager.Dashboard.Source

/-!
# The server with its sampler at work

`NewServer` gives the sampler a `KafkaSource` over the pool of the server.
`Live` puts the two together: the threads of the server, which replace
configurations and connections, and the `Refresh` under way, whose goroutines
take their steps on the same pool in between. A commit is one of the samples
the server reckons with.

`via` of a goroutine is the client it has asked.
-/

namespace KafkaManager.Api

open Lib Cluster Dashboard

/-- A call of the source that has not returned. -/
structure SourceRun where
  cfg : ClusterConfig
  prog : SourceProg Snapshot
  via : Option Client

structure Live where
  server : ServerPool
  refresh : Option Refresh
  sources : GoMap Nat SourceRun
  log : List Moment

/-- What can happen: the server does something, or the sampler does. `turn` is
the next step of a goroutine's call, `answers` what Kafka and the clock say. -/
inductive LiveEvent
  | server (e : ServerEvent)
  | start (now : Int)
  | endContext
  | call (k : Nat)
  | giveUp (k : Nat)
  | turn (k : Nat) (answers : Oracle SourceCmd SourceCmd.Answer) (now : Int)
  | commit (clock : Nat → Int)

/-- A step of a call of the source, on the pool of the server. -/
def sourceExec (d : Setting) (p : ServerPool) (answers : Oracle SourceCmd SourceCmd.Answer) :
    (c : SourceCmd) → Option (c.Answer × ServerPool)
  | .kafka id => some (p.shared.pool.mgr.kafka id, p)
  | .beginUpsert cfg => some (p.shared.pool.ops.length, (server d).step p (.env (.upsert cfg)))
  | .awaitUpsert o =>
      match p.shared.pool.ops[o]? with
      | some (.closing [] r) => some (r, p)
      | _ => none
  | .errorText e => (answers (.errorText e)).map fun r => (r, p)
  | .now => (answers .now).map fun r => (r, p)
  | .listBrokers client => (answers (.listBrokers client)).map fun r => (r, p)
  | .listTopics client => (answers (.listTopics client)).map fun r => (r, p)
  | .listGroups client => (answers (.listGroups client)).map fun r => (r, p)
  | .lag client groups => (answers (.lag client groups)).map fun r => (r, p)

/-- What only the sampler does. -/
def ofSampler : ServerEvent → Bool
  | .env (.upsert _) | .env (.sample _) => true
  | _ => false

/-- The server is about to update the sampler. -/
def updates (p : ServerPool) : ServerEvent → Option Config
  | .thread t _ =>
      match p.threads[t]? with
      | some (.cmd (.updateMonitor cfg) _) => some cfg
      | _ => none
  | _ => none

namespace Live

/-- The sampler of the server. -/
def sampling (l : Live) : Sampling :=
  { sampler := l.server.shared.monitor, refresh := l.refresh, log := l.log }

/-- The sampler goes on; its fields are the server's. -/
def withSampling (l : Live) (m : Sampling) : Live := { l with refresh := m.refresh, log := m.log }

def serverStep (l : Live) (d : Setting) (e : ServerEvent) : Live :=
  if ofSampler e then l
  else
    { l with
      server := (Api.server d).step l.server e
      log := match updates l.server e with
        | some cfg =>
            .updated (enabledClusters cfg.clusters) (normalizeOptions (dashboardOptions cfg)) :: l.log
        | none => l.log }

/-- Goroutine `k` takes the semaphore and calls the source. -/
def call (l : Live) (k : Nat) : Live :=
  match l.refresh with
  | none => l
  | some r =>
      match r.workers[k]? with
      | none => l
      | some w =>
          if w.progress = .waiting ∧ (r.calling : Int) < r.maximum then
            { l.withSampling (l.sampling.call k) with
              sources := l.sources.insert k ⟨w.cfg, KafkaSource.snapshot w.cfg, none⟩ }
          else l

/-- The call of goroutine `k` takes a step, or returns. -/
def turn (l : Live) (d : Setting) (k : Nat) (answers : Oracle SourceCmd SourceCmd.Answer)
    (now : Int) : Live :=
  match l.sources[k]? with
  | none => l
  | some source =>
      match source.prog with
      | .ret snapshot =>
          { l.withSampling (l.sampling.answer k snapshot source.via now) with
            sources := l.sources.erase k }
      | .cmd c cont =>
          match sourceExec d l.server answers c with
          | none => l
          | some (r, server) =>
              { l with
                server := server
                sources := l.sources.insert k
                  { source with prog := cont r, via := c.client.or source.via } }

/-- The commit, into the sampler of the server. -/
def commit (l : Live) (d : Setting) (clock : Nat → Int) : Live :=
  let m := l.sampling.commit clock
  { l.withSampling m with server := (Api.server d).step l.server (.env (.sample m.sampler.samples)) }

def step (d : Setting) (l : Live) : LiveEvent → Live
  | .server e => l.serverStep d e
  | .start now => l.withSampling (l.sampling.start now)
  | .endContext => l.withSampling l.sampling.endContext
  | .call k => l.call k
  | .giveUp k => l.withSampling (l.sampling.giveUp k)
  | .turn k answers now => l.turn d k answers now
  | .commit clock => l.commit d clock

/-- A server that has just been built. -/
def new (d : Setting) (cfg : Config) (pool : Sys) (file : List Char) : Live :=
  { server := started d cfg pool file
    refresh := none
    sources := ∅
    log := (Sampling.new cfg.clusters (dashboardOptions cfg)).log }

end Live

end KafkaManager.Api
