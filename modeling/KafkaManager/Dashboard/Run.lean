import KafkaManager.Dashboard.Source

/-!
# The loop of the sampler (`Run` in `internal/dashboard/sampler.go`)

`Run` is the only caller of `Refresh` in the program: it refreshes, reads the
interval, and waits for the end of its context, for the token of `wake` or for
a timer, whichever the `select` picks. `Update` runs beside it, in two parts:
it replaces the fields, and once it has given the lock back it puts a token
into `wake`, unless there is one.

A timer that is stopped after it has fired leaves nothing behind: either `Stop`
takes the value back or the loop drains the channel, which has it by then. So
the timer is gone as soon as the loop goes on.
-/

namespace KafkaManager.Dashboard

open Lib

/-- Where `Run` is: at its call of `Refresh`, or in it if one is under way;
behind it; in the `select`, with a timer for `interval` that may have fired;
at its end. -/
inductive Loop
  | refresh
  | refreshed
  | waiting (interval : Int) (fired : Bool)
  | returned
deriving DecidableEq, Repr

/-- A sampler, its loop and the context of the loop. `updates` counts the calls
of `Update` that have replaced the fields and are yet to send the token. -/
structure Runner where
  sampling : Sampling
  loop : Loop
  ended : Bool
  updates : Nat

def Sampling.setWake (m : Sampling) (wake : Bool) : Sampling :=
  { m with sampler := { m.sampler with wake := wake } }

inductive RunEvent
  | replace (configs : List ClusterConfig) (options : Options)
  | send
  | endContext
  | start (now : Int)
  | call (k : Nat)
  | giveUp (k : Nat)
  | answer (k : Nat) (snapshot : Snapshot) (via : Option Cluster.Client) (now : Int)
  | commit (clock : Nat → Int)
  | readInterval
  | fire
  | woken
  | ticked
  | done

namespace Runner

/-- `NewSampler`, and `Run` on it. -/
def new (configs : List ClusterConfig) (options : Options) : Runner :=
  { sampling := Sampling.new configs options, loop := .refresh, ended := false, updates := 0 }

/-- The critical section of `Update`. -/
def replace (R : Runner) (configs : List ClusterConfig) (options : Options) : Runner :=
  { R with
    sampling := (R.sampling.update configs options).setWake R.sampling.sampler.wake
    updates := R.updates + 1 }

/-- The `select` at the end of `Update`. -/
def send (R : Runner) : Runner :=
  if R.updates = 0 then R
  else { R with sampling := R.sampling.setWake true, updates := R.updates - 1 }

def endContext (R : Runner) : Runner :=
  { R with sampling := R.sampling.endContext, ended := true }

/-- `Refresh` begins. It returns at once if the context has ended or nothing is
due. -/
def start (R : Runner) (now : Int) : Runner :=
  match R.loop, R.sampling.refresh with
  | .refresh, none =>
      if R.ended then { R with loop := .refreshed }
      else
        let m := R.sampling.start now
        { R with sampling := m, loop := if m.refresh.isSome then .refresh else .refreshed }
  | _, _ => R

/-- A goroutine of the `Refresh` goes on. -/
def onSampling (R : Runner) (f : Sampling → Sampling) : Runner :=
  { R with sampling := f R.sampling }

/-- The end of `Refresh`, once its goroutines have ended. -/
def commit (R : Runner) (clock : Nat → Int) : Runner :=
  match R.sampling.refresh with
  | none => R
  | some r =>
      if r.complete then { R with sampling := R.sampling.commit clock, loop := .refreshed } else R

/-- `interval`, and the timer is set. -/
def readInterval (R : Runner) : Runner :=
  match R.loop with
  | .refreshed => { R with loop := .waiting R.sampling.sampler.options.interval false }
  | _ => R

def fire (R : Runner) : Runner :=
  match R.loop with
  | .waiting interval _ => { R with loop := .waiting interval true }
  | _ => R

/-- `<-s.wake` -/
def woken (R : Runner) : Runner :=
  match R.loop with
  | .waiting .. =>
      if R.sampling.sampler.wake then
        { R with sampling := R.sampling.setWake false, loop := .refresh }
      else R
  | _ => R

/-- `<-timer.C` -/
def ticked (R : Runner) : Runner :=
  match R.loop with
  | .waiting _ true => { R with loop := .refresh }
  | _ => R

/-- `<-ctx.Done()` -/
def done (R : Runner) : Runner :=
  match R.loop with
  | .waiting .. => if R.ended then { R with loop := .returned } else R
  | _ => R

def step (R : Runner) : RunEvent → Runner
  | .replace configs options => R.replace configs options
  | .send => R.send
  | .endContext => R.endContext
  | .start now => R.start now
  | .call k => R.onSampling fun m => m.call k
  | .giveUp k => R.onSampling fun m => m.giveUp k
  | .answer k snapshot via now => R.onSampling fun m => m.answer k snapshot via now
  | .commit clock => R.commit clock
  | .readInterval => R.readInterval
  | .fire => R.fire
  | .woken => R.woken
  | .ticked => R.ticked
  | .done => R.done

end Runner

/-- The snapshot is one the source can return. -/
def KafkaSource.Returns (snapshot : Snapshot) : Prop :=
  ∃ cfg, (KafkaSource.snapshot cfg).Runs (fun _ _ _ _ => True) () snapshot ()

/-- The lists an `Update` is called with have distinct ids, and what answers is
the source. -/
def RunEvent.Real : RunEvent → Prop
  | .replace configs _ => DistinctIDs configs
  | .answer _ snapshot _ _ => KafkaSource.Returns snapshot
  | _ => True

end KafkaManager.Dashboard
