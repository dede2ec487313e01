import KafkaManager.Lib.Run
import KafkaManager.Web.ListPages
import KafkaManager.Web.Navigation
import KafkaManager.Web.Topics

/-!
# The application (`App.tsx`)

`App` holds the route, the clusters of the dashboard and the topic that was
opened last, and loads the topic of the route where that is another one. An
event is what the user or the browser does, or an answer; React runs the
effects of a render before the next event.

An effect runs when one of its dependencies is another value than before, and
first cleans up after its last run. The effect that loads a topic is `effect`,
its dependencies are `deps`. An object is the same only as itself, so
`selected` has a number for each time it was set. The answers to requests
whose run of the effect has been cleaned up are thrown away, and there is no
event for them: `active` is the request of the last run.

Left out are the theme, the menus, and what of a cluster only the pages read.
`failed` is not in the source: it says what the error is about.
-/

namespace KafkaManager.Web

open Lib

/-- `DashboardLoadState` of `navigation/connection-state.ts` -/
inductive DashboardLoadState
  | idle
  | loading
  | ready
  | error
deriving DecidableEq, Repr

/-- A cluster and the name of a topic. -/
abbrev TopicKey : Type := String × String

instance : LawfulBEq TopicKey := inferInstance

/-- `RequestSequence` of `navigation/request-sequence.ts` -/
structure RequestSequence where
  current : Nat
deriving DecidableEq, Repr

namespace RequestSequence

def begin (s : RequestSequence) : Nat × RequestSequence := (s.current + 1, ⟨s.current + 1⟩)

def isCurrent (s : RequestSequence) (request : Nat) : Bool := request == s.current

end RequestSequence

/-- What `setSelectedTopic` was given, for the time of that number. -/
structure SelectedTopic where
  number : Nat
  clusterId : String
  item : Topic
deriving DecidableEq, Repr

structure App where
  authenticated : Option Bool
  route : AppRoute
  /-- The ids of `clusters`. -/
  clusters : List String
  dashboardState : DashboardLoadState
  dashboardRequests : RequestSequence
  selected : Option SelectedTopic
  numbers : Nat
  topicLoading : Bool
  topicError : String
  active : Option TopicKey
  /-- The calls of `refreshTopic` without an answer. -/
  refreshes : List TopicKey
  failed : Option TopicKey
deriving DecidableEq, Repr

inductive AppEvent
  | me (ok : Bool)
  | login
  | logout
  | sessionExpired
  | popstate (route : AppRoute)
  | navigate (route : AppRoute)
  | openTopic (item : Topic) (tab : TopicTab)
  | loadClusters
  | dashboardAnswer (request : Nat) (answer : Option (List String))
  /-- An answer of status 401 also tells that the session has expired. -/
  | topicAnswer (expired : Bool) (answer : Except String (List Topic))
  | refreshTopic
  | refreshAnswer (key : TopicKey) (answer : Except String (List Topic))

/-- What the window shows. -/
inductive View
  | boot
  | login
  | loading
  | error (message : String)
  | topic (clusterId : String) (item : Topic)
  | blank
  | page (page : Page)
deriving DecidableEq, Repr

/-- 找不到 Topic：${name} -/
def topicMissing (name : String) : String := "找不到 Topic：" ++ name

/-- `loadTopic`, of what its request is answered. -/
def foundTopic (name : String) : Except String (List Topic) → Except String Topic
  | .error message => .error message
  | .ok items =>
      match selectExactTopic items name with
      | none => .error (topicMissing name)
      | some found => .ok found

namespace App

def new (route : AppRoute) : App where
  authenticated := none
  route := route
  clusters := []
  dashboardState := .idle
  dashboardRequests := ⟨0⟩
  selected := none
  numbers := 0
  topicLoading := (filled route.topicName).isSome
  topicError := ""
  active := none
  refreshes := []
  failed := none

section

variable (s : App)

def clusterId : String :=
  match (filled s.route.clusterId).filter fun id => s.clusters.contains id with
  | some id => id
  | none =>
      match filled s.clusters.head? with
      | some id => id
      | none => s.route.clusterId.getD ""

/-- The effect does not return at once. -/
def ready : Bool := s.authenticated == some true && !s.clusters.isEmpty

/-- The topic of the route. -/
def wanted : Option TopicKey :=
  match filled s.route.topicName with
  | none => none
  | some name => if s.clusterId = "" then none else some (s.clusterId, name)

/-- The topic that is selected is this one. -/
def holds (key : TopicKey) : Bool :=
  s.selected.any fun selected => selected.clusterId == key.1 && selected.item.name == key.2

structure Deps where
  authenticated : Option Bool
  clusterId : String
  clusters : Nat
  topicName : Option String
  selected : Option SelectedTopic
deriving DecidableEq

def deps : Deps := ⟨s.authenticated, s.clusterId, s.clusters.length, s.route.topicName, s.selected⟩

/-- The effect that loads the topic of the route, with the cleanup before
it. -/
def effect : App :=
  let s := { s with active := none }
  if !s.ready then s
  else
    match s.wanted with
    | none => { s with selected := none, topicError := "", topicLoading := false }
    | some key =>
        if s.holds key then s
        else { s with active := some key, topicLoading := true, topicError := "" }

/-- The effect that puts the cluster into the route. -/
def canonical : App :=
  if s.clusters.isEmpty ∨ s.clusterId = "" ∨ s.route.clusterId = some s.clusterId then s
  else { s with route := { s.route with clusterId := some s.clusterId } }

def setSelectedTopic (clusterId : String) (item : Topic) : App :=
  { s with selected := some ⟨s.numbers, clusterId, item⟩, numbers := s.numbers + 1 }

/-- The rest of the effect, from the answer on. -/
def topicAnswered (answer : Except String (List Topic)) : App :=
  match s.active with
  | none => s
  | some key =>
      let s := { s with active := none, topicLoading := false }
      match foundTopic key.2 answer with
      | .error message => { s with topicError := message, failed := some key }
      | .ok found => s.setSelectedTopic key.1 found

def dashboardAnswered (request : Nat) (answer : Option (List String)) : App :=
  if !s.dashboardRequests.isCurrent request then s
  else
    match answer with
    | none => { s with dashboardState := .error }
    | some items => { s with clusters := items, dashboardState := .ready }

def view : View :=
  match s.authenticated with
  | none => .boot
  | some false => .login
  | some true =>
      match filled s.route.topicName with
      | none => .page s.route.page
      | some name =>
          if s.topicLoading then .loading
          else if s.topicError ≠ "" then .error s.topicError
          else
            match s.selected with
            | none => .blank
            | some selected =>
                if selected.clusterId = s.clusterId ∧ selected.item.name = name then
                  .topic s.clusterId selected.item
                else .blank

end

/-- What the event itself sets. -/
def on (s : App) : AppEvent → App
  | .me ok => { s with authenticated := some ok }
  | .login => if s.view = .login then { s with authenticated := some true } else s
  | .logout | .sessionExpired => { s with authenticated := some false }
  | .popstate route | .navigate route => { s with route := route }
  | .openTopic item tab =>
      if s.view = .page .topics then
        let s' := s.setSelectedTopic s.clusterId item
        { s' with route := ⟨.topics, some s.clusterId, some item.name, some tab⟩ }
      else s
  | .loadClusters =>
      { s with
        dashboardRequests := s.dashboardRequests.begin.2
        dashboardState := if s.dashboardState = .idle then .loading else s.dashboardState }
  | .dashboardAnswer request answer => s.dashboardAnswered request answer
  | .topicAnswer expired answer =>
      if expired then { s.topicAnswered answer with authenticated := some false }
      else s.topicAnswered answer
  | .refreshTopic =>
      match s.view with
      | .topic clusterId item => { s with refreshes := (clusterId, item.name) :: s.refreshes }
      | _ => s
  | .refreshAnswer key answer =>
      if key ∈ s.refreshes then
        let s := { s with refreshes := s.refreshes.erase key }
        match foundTopic key.2 answer with
        | .error _ => s
        | .ok found => s.setSelectedTopic key.1 found
      else s

/-- The effects after a render, if they have to run. -/
def rendered (before s : App) : App :=
  let s := s.canonical
  if s.deps = before.deps then s else s.effect

def step (s : App) (e : AppEvent) : App := rendered s (s.on e)

end App

end KafkaManager.Web
