import KafkaManager.Lib.Segments
import KafkaManager.Lib.UriComponent

/-!
# The path of a page (`navigation/routes.ts`)

A path names the cluster, the page, and on the page of the topics a topic and
one of its tabs. What it leaves out has a default, and an id that is not
encoded well stands for itself.
-/

namespace KafkaManager.Web

open Lib

inductive Page
  | dashboard
  | topics
  | messages
  | consumers
  | settings
  | audit
deriving DecidableEq, Repr

inductive TopicTab
  | overview
  | messages
  | partitions
  | config
deriving DecidableEq, Repr

structure AppRoute where
  page : Page
  clusterId : Option String
  topicName : Option String
  topicTab : Option TopicTab
deriving DecidableEq, Repr

def Page.text : Page → List Char
  | .dashboard => "dashboard".toList
  | .topics => "topics".toList
  | .messages => "messages".toList
  | .consumers => "consumers".toList
  | .settings => "settings".toList
  | .audit => "audit".toList

def TopicTab.text : TopicTab → List Char
  | .overview => "overview".toList
  | .messages => "messages".toList
  | .partitions => "partitions".toList
  | .config => "config".toList

def pages : List Page := [.dashboard, .topics, .messages, .consumers, .settings, .audit]

def topicTabs : List TopicTab := [.overview, .messages, .partitions, .config]

def clustersWord : List Char := "clusters".toList

def safeDecode (value : List Char) : String :=
  match decodeURIComponent value with
  | some text => String.ofList text
  | none => String.ofList value

/-- `requestedPage && pages.has(requestedPage) ? requestedPage : 'dashboard'` -/
def requestedPage (segment : Option (List Char)) : Page :=
  match segment with
  | some text => (pages.find? fun page => page.text == text).getD .dashboard
  | none => .dashboard

def requestedTab (segment : Option (List Char)) : TopicTab :=
  match segment with
  | some text => (topicTabs.find? fun tab => tab.text == text).getD .overview
  | none => .overview

/-- What is read from the parts of a path, which are not empty. -/
def routeOfSegments (segments : List (List Char)) : AppRoute :=
  if segments[0]? ≠ some clustersWord then
    { page := .dashboard, clusterId := none, topicName := none, topicTab := none }
  else
    match segments[1]? with
    | none => { page := .dashboard, clusterId := none, topicName := none, topicTab := none }
    | some cluster =>
        let clusterId := safeDecode cluster
        let page := requestedPage segments[2]?
        if page ≠ .topics then
          { page, clusterId := some clusterId, topicName := none, topicTab := none }
        else
          match segments[3]? with
          | none => { page, clusterId := some clusterId, topicName := none, topicTab := none }
          | some topic =>
              { page
                clusterId := some clusterId
                topicName := some (safeDecode topic)
                topicTab := some (requestedTab segments[4]?) }

def parseRoutePath (pathname : String) : AppRoute :=
  routeOfSegments (segments '/' pathname.toList)

/-- A text that is there and is not empty. -/
def filled (value : Option String) : Option String := value.filter (· ≠ "")

def buildRoutePath (route : AppRoute) : String :=
  match filled route.clusterId with
  | none => "/"
  | some clusterId =>
      let base := '/' :: (clustersWord ++ '/' :: (encodeURIComponent clusterId ++
        '/' :: route.page.text))
      if route.page ≠ .topics then String.ofList base
      else
        match filled route.topicName with
        | none => String.ofList base
        | some topicName =>
            String.ofList (base ++ '/' :: (encodeURIComponent topicName ++
              '/' :: (route.topicTab.getD .overview).text))

end KafkaManager.Web
