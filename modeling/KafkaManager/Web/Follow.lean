import KafkaManager.Kafka.Stream
import KafkaManager.Lib.EventStream
import KafkaManager.Lib.JsonWire
import KafkaManager.Lib.Run

/-!
# Following a topic, from the cluster to the page

`KafkaBackend.Stream` polls a consumer until its context ends, a poll has an
error or a record cannot be sent. What `streamMessages` sends are events, and
`follow` of `MessagesPage.tsx` puts the record of each in front of the others.
In between is the connection: what is on the `wire` arrives in pieces.

`Following` is one click on follow. `polled`, `fault`, `torn` and `read` are not
in the source: the records the polls have given, the error of the poll that had
one, whether the connection broke while the server was writing, and what the
page has read.
-/

namespace KafkaManager

open Lib

namespace Message

/-! ## The server -/

def Header.toJson (h : Kafka.Header) : Json :=
  .obj [("key".toList, .str h.key.toList), ("value".toList, .str h.value.toList)]

/-- `json.Marshal` of a record -/
def Record.toJson (r : Record) : Json :=
  .obj ([("topic".toList, .str r.topic.toList), ("partition".toList, .num (.ofInt r.partition)),
      ("offset".toList, .num (.ofInt r.offset)), ("timestamp".toList, .num (.ofInt r.timestamp)),
      ("key".toList, .str r.key.toList), ("value".toList, .str r.value.toList)] ++
    if r.headers.isEmpty then [] else [("headers".toList, .arr (r.headers.map Header.toJson))])

/-- data: %s -/
def recordFrame (r : Record) : List Char :=
  "data: ".toList ++ r.toJson.write ++ ['\n'] ++ ['\n']

def errorJson (error : String) : Json := .obj [("error".toList, .str error.toList)]

/-- event: error -/
def errorFrame (error : String) : List Char :=
  "event: ".toList ++ "error".toList ++ ['\n'] ++
    ("data: ".toList ++ (errorJson error).write ++ ['\n']) ++ ['\n']

end Message

namespace Web

open Message

/-! ## The page -/

/-- What following is about of `MessagesPage`. -/
structure FollowPage where
  live : Bool
  items : List JsValue
  error : String

/-- `follow` with a topic -/
def FollowPage.start : FollowPage where
  live := true
  items := []
  error := ""

/-- `source.onmessage` -/
def FollowPage.onmessage (p : FollowPage) (data : List Char) : FollowPage :=
  match JsValue.parse data with
  | none => p
  | some record => { p with items := (record :: p.items).take 500 }

/-- `source.onerror` -/
def FollowPage.onerror (p : FollowPage) : FollowPage :=
  { p with error := "实时连接已中断，可重新开始跟随", live := false }

/-- An event of the source, which is for nobody once it is closed. -/
def FollowPage.dispatch (p : FollowPage) (e : ServerEvent) : FollowPage :=
  if !p.live then p
  else if e.type = "message".toList then p.onmessage e.data
  else if e.type = "error".toList then p.onerror
  else p

/-! ## Both -/

structure Following where
  query : Query
  streaming : Bool
  wire : List Char
  source : EventParser
  page : FollowPage
  polled : List Record
  fault : Option String
  torn : Bool
  read : List Char

/-- A poll returns, with records or with an error, and so much of what is then
written gets out if the connection breaks; the context of the request ends; a
piece arrives, or the end of the connection; the user stops. -/
inductive FollowEvent
  | poll (answer : Except String (List Record)) (out : Option Nat)
  | cancel
  | arrive (n : Nat)
  | disconnect
  | stop

namespace Following

/-- `streamMessages` up to the consumer, and `follow`. -/
def start (q : Query) : Except QueryError Following := do
  let q ← validateQuery q
  let q ← validateQuery { q with limit := 500 }
  .ok
    { query := q
      streaming := true
      wire := []
      source := .clean
      page := .start
      polled := []
      fault := none
      torn := false
      read := [] }

section

variable (F : Floats) (s : Following)

/-- The records of these that are sent. -/
def matched (records : List Record) : List Record :=
  records.filter fun record => (matchRecord F record s.query).1

/-- `Fprintf` and `Flush` -/
def write (text : List Char) (out : Option Nat) : Following :=
  match out with
  | none => { s with wire := s.wire ++ text }
  | some n => { s with wire := s.wire ++ text.take n, streaming := false, torn := true }

def poll (answer : Except String (List Record)) (out : Option Nat) : Following :=
  match answer with
  | .error e => { s.write (errorFrame e) out with streaming := false, fault := some e }
  | .ok records =>
      { s.write ((s.matched F records).flatMap recordFrame) out with
        polled := s.polled ++ records }

def arrive (n : Nat) : Following :=
  let piece := s.wire.take n
  { s with
    wire := s.wire.drop n
    source := (s.source.feed piece).1
    page := (s.source.feed piece).2.foldl FollowPage.dispatch s.page
    read := s.read ++ piece }

def step : FollowEvent → Following
  | .poll answer out => if s.streaming then s.poll F answer out else s
  | .cancel => { s with streaming := false }
  | .arrive n => if s.page.live then s.arrive n else s
  | .disconnect => if s.page.live then { s with page := s.page.onerror } else s
  | .stop => { s with page := { s.page with live := false } }

end

end Following

end Web

end KafkaManager
