import KafkaManager.Kafka.Message
import KafkaManager.Kafka.TopicList
import KafkaManager.Lib.Fetched
import KafkaManager.Lib.Run

/-!
# The pages that show a list

`ConsumersPage`, `TopicsPage` and `MessagesPage` as state machines. An event is
what a user does, what the page is given, or an answer. React runs the effect of
a change before the next event, so a change and the request it starts are one
step; what a callback started is about the values of the render it comes from.
An event that is not possible leaves the page as it is.

A row keeps the key it was asked for, which the source does not: it is there to
say where the row came from. The fields of a page that no request depends on and
that say nothing about a row are left out.
-/

namespace KafkaManager.Web

open Lib

/-! ## `ConsumersPage.tsx` -/

structure PartitionLag where
  topic : String
  partition : Int
  currentOffset : Int
  endOffset : Int
  lag : Int
deriving DecidableEq, Repr

/-- A group as the server sends it, where `Partitions` may be null. -/
structure ConsumerGroup where
  name : String
  state : String
  protocol : String
  memberCount : Int
  totalLag : Int
  partitions : Option (List PartitionLag)
deriving DecidableEq, Repr

/-- `{ ...group, Partitions: group.Partitions || [] }` -/
def ConsumerGroup.listed (group : ConsumerGroup) : ConsumerGroup :=
  { group with partitions := some (group.partitions.getD []) }

structure ResetRequest where
  mode : String
  offset : Int
deriving DecidableEq, Repr

/-- A group with the cluster it was asked for. -/
abbrev GroupRow : Type := String × ConsumerGroup

/-- The POST of `confirmReset`, from the drawer of that number. -/
structure ResetPost where
  clusterId : String
  row : GroupRow
  request : ResetRequest
  drawer : Nat
deriving DecidableEq, Repr

structure GroupDrawer where
  number : Nat
  row : GroupRow
  resetRequest : Option ResetRequest
  resetting : Bool
  error : String
deriving DecidableEq, Repr

structure ConsumersPage where
  clusterId : String
  readOnly : Bool
  list : Fetched String ConsumerGroup
  /-- The drawer of `selected`. -/
  drawer : Option GroupDrawer
  /-- The number of drawers so far. -/
  drawers : Nat
  /-- The resets without an answer. -/
  resets : List ResetPost
  /-- Every reset that was sent. -/
  sent : List ResetPost
deriving DecidableEq, Repr

namespace ConsumersPage

inductive Event
  | props (clusterId : String) (readOnly : Bool)
  | refresh
  | answer (clusterId : String) (a : Answer ConsumerGroup)
  | select (row : GroupRow)
  | close
  | reset (request : ResetRequest)
  | cancelReset
  | confirmReset
  | resetAnswer (post : ResetPost) (failure : Option String)

/-- `load` of a render with that cluster. -/
def load (p : ConsumersPage) (clusterId : String) : ConsumersPage :=
  if clusterId = "" then p else { p with list := p.list.request clusterId }

def mount (clusterId : String) (readOnly : Bool) : ConsumersPage :=
  load ⟨clusterId, readOnly, .empty true, none, 0, [], []⟩ clusterId

/-- The drawer of another group is the same drawer, if one is open. -/
def setSelected (p : ConsumersPage) (row : GroupRow) : ConsumersPage :=
  match p.drawer with
  | some d => { p with drawer := some { d with row := row } }
  | none => { p with drawer := some ⟨p.drawers, row, none, false, ""⟩, drawers := p.drawers + 1 }

/-- `GroupDrawer.confirmReset`, up to its answer. -/
def confirmReset (p : ConsumersPage) : ConsumersPage :=
  match p.drawer with
  | none => p
  | some d =>
      match d.resetRequest with
      | none => p
      | some request =>
          if d.resetting then p
          else
            let post : ResetPost := ⟨p.clusterId, d.row, request, d.number⟩
            { p with
              drawer := some { d with resetting := true, error := "" }
              resets := post :: p.resets
              sent := post :: p.sent }

/-- The rest of it: `saved` closes the drawer and loads the list, of the cluster
the reset was for. -/
def resetAnswer (p : ConsumersPage) (post : ResetPost) : Option String → ConsumersPage
  | none => load { p with drawer := none, resets := p.resets.erase post } post.clusterId
  | some message =>
      { p with
        drawer := p.drawer.map fun d =>
          if d.number = post.drawer then { d with resetting := false, error := message } else d
        resets := p.resets.erase post }

def step (p : ConsumersPage) : Event → ConsumersPage
  | .props clusterId readOnly =>
      let next := { p with clusterId := clusterId, readOnly := readOnly }
      if clusterId = p.clusterId then next else next.load clusterId
  | .refresh => p.load p.clusterId
  | .answer clusterId a =>
      if clusterId ∈ p.list.requests then
        { p with list := p.list.answer clusterId (a.map ConsumerGroup.listed) }
      else p
  | .select row => if row ∈ p.list.items ∧ p.list.loading = false then p.setSelected row else p
  | .close => { p with drawer := none }
  | .reset request =>
      if p.readOnly then p
      else
        { p with
          drawer := p.drawer.map fun d =>
            if d.resetting then d else { d with error := "", resetRequest := some request } }
  | .cancelReset =>
      { p with drawer := p.drawer.map fun d => { d with resetRequest := none, error := "" } }
  | .confirmReset => p.confirmReset
  | .resetAnswer post failure => if post ∈ p.resets then p.resetAnswer post failure else p

end ConsumersPage

/-! ## `TopicsPage.tsx` -/

/-- A cluster and a search, or a topic. -/
abbrev Selection : Type := String × String

/-- What `onOpen` is told: the topic, as one of the cluster that is selected. -/
structure OpenedTopic where
  clusterId : String
  row : Selection × Topic
deriving DecidableEq, Repr

structure TopicsPage where
  clusterId : String
  readOnly : Bool
  search : String
  /-- The search the page has taken over. -/
  deferred : String
  list : Fetched Selection Topic
  creating : Bool
  /-- The topics that are being created, each from a render with that selection. -/
  creations : List Selection
  opened : List OpenedTopic
deriving DecidableEq, Repr

namespace TopicsPage

inductive Event
  | props (clusterId : String) (readOnly : Bool)
  | search (search : String)
  | defer
  | answer (selection : Selection) (a : Answer Topic)
  | openTopic (row : Selection × Topic)
  | create
  | closeCreate
  | submitCreate
  | createAnswer (selection : Selection) (created : Bool)

/-- What is selected, as far as the page has taken it over. -/
def selection (p : TopicsPage) : Selection := (p.clusterId, p.deferred)

/-- `load` of a render with that selection. -/
def load (p : TopicsPage) (selection : Selection) : TopicsPage :=
  if selection.1 = "" then p else { p with list := p.list.request selection }

def mount (clusterId : String) (readOnly : Bool) : TopicsPage :=
  load ⟨clusterId, readOnly, "", "", .empty true, false, [], []⟩ (clusterId, "")

/-- The page is rendered, and the effect runs if its selection is another. -/
def render (p : TopicsPage) (clusterId deferred : String) : TopicsPage :=
  let next := { p with clusterId := clusterId, deferred := deferred }
  if next.selection = p.selection then next else next.load next.selection

def step (p : TopicsPage) : Event → TopicsPage
  | .props clusterId readOnly => ({ p with readOnly := readOnly } : TopicsPage).render clusterId p.deferred
  | .search search => { p with search := search }
  | .defer => p.render p.clusterId p.search
  | .answer selection a =>
      if selection ∈ p.list.requests then { p with list := p.list.answer selection a } else p
  | .openTopic row =>
      if row ∈ p.list.items ∧ p.list.loading = false then
        { p with opened := ⟨p.clusterId, row⟩ :: p.opened }
      else p
  | .create => if p.readOnly then p else { p with creating := true }
  | .closeCreate => { p with creating := false }
  | .submitCreate => if p.creating then { p with creations := p.selection :: p.creations } else p
  | .createAnswer selection created =>
      if selection ∈ p.creations then
        let next := { p with creations := p.creations.erase selection }
        if created then ({ next with creating := false } : TopicsPage).load selection else next
      else p

end TopicsPage

/-! ## `MessagesPage.tsx` -/

/-- What `String.prototype.trim` takes off. -/
def jsSpace (c : Char) : Bool :=
  [0x9, 0xA, 0xB, 0xC, 0xD, 0x20, 0xA0, 0x1680, 0x2028, 0x2029, 0x202F, 0x205F, 0x3000,
    0xFEFF].contains c.toNat || 0x2000 ≤ c.toNat && c.toNat ≤ 0x200A

structure MessagesPage where
  clusterId : String
  /-- Empty on the page of its own. -/
  fixedTopic : String
  topic : String
  /-- The topic that was last asked for. -/
  asked : String
  list : Fetched Selection Message.Record
  selected : Option (Selection × Message.Record)
  /-- What is followed. -/
  stream : Option Selection
deriving DecidableEq, Repr

namespace MessagesPage

inductive Event
  | props (clusterId fixedTopic : String)
  | typeTopic (topic : String)
  | submit
  | follow
  | answer (selection : Selection) (a : Answer Message.Record)
  | message (record : Message.Record)
  | streamError
  | select (row : Selection × Message.Record)

/-- The cluster, and the topic that is fixed or was last asked for: a topic that
is typed is not selected before it is asked for. -/
def selection (p : MessagesPage) : Selection := (p.clusterId, p.asked)

def stop (p : MessagesPage) : MessagesPage := { p with stream := none }

/-- `queryMessages`, up to its answer. -/
def queryMessages (p : MessagesPage) (requestedTopic : String) : MessagesPage :=
  { p with
    stream := none
    asked := requestedTopic
    list := p.list.request (p.clusterId, requestedTopic) }

/-- The effect of `[clusterId, fixedTopic]`. -/
def effect (p : MessagesPage) : MessagesPage :=
  if p.fixedTopic = "" then p.stop
  else ({ p with topic := p.fixedTopic } : MessagesPage).queryMessages p.fixedTopic

def mount (clusterId fixedTopic : String) : MessagesPage :=
  effect ⟨clusterId, fixedTopic, fixedTopic, fixedTopic, .empty false, none, none⟩

def follow (p : MessagesPage) : MessagesPage :=
  if p.stream.isSome then p.stop
  else if p.topic.toList.all jsSpace then { p with list := { p.list with error := "请先选择 Topic" } }
  else
    { p with
      asked := p.topic
      list := { p.list with items := [], error := "" }
      selected := none
      stream := some (p.clusterId, p.topic) }

/-- The rest of `queryMessages`. -/
def answer (p : MessagesPage) (selection : Selection) (a : Answer Message.Record) : MessagesPage :=
  { p with
    list := p.list.answer selection a
    selected := match a with
      | .items rows => rows.head?.map (selection, ·)
      | .failed _ => p.selected }

/-- `source.onmessage` -/
def message (p : MessagesPage) (record : Message.Record) : MessagesPage :=
  match p.stream with
  | none => p
  | some selection =>
      { p with list := { p.list with items := ((selection, record) :: p.list.items).take 500 } }

/-- `source.onerror` -/
def streamError (p : MessagesPage) : MessagesPage :=
  match p.stream with
  | none => p
  | some _ =>
      ({ p with list := { p.list with error := "实时连接已中断，可重新开始跟随" } } : MessagesPage).stop

def step (p : MessagesPage) : Event → MessagesPage
  | .props clusterId fixedTopic =>
      let next := { p with clusterId := clusterId, fixedTopic := fixedTopic }
      if clusterId = p.clusterId ∧ fixedTopic = p.fixedTopic then next else next.effect
  | .typeTopic topic => if p.fixedTopic = "" then { p with topic := topic } else p
  | .submit => if p.list.loading ∨ p.topic = "" then p else p.queryMessages p.topic
  | .follow => p.follow
  | .answer selection a => if selection ∈ p.list.requests then p.answer selection a else p
  | .message record => p.message record
  | .streamError => p.streamError
  | .select row => if row ∈ p.list.items then { p with selected := some row } else p

end MessagesPage

end KafkaManager.Web
