import KafkaManager.Kafka.Client

/-!
# Consumer groups (`internal/kafka/consumer/service.go`)

`Service.Reset` checks a request and passes it on to `KadmBackend.Reset`, which
asks for the group's lag, decides the topics and the offsets, and commits them.
`Delete` is the other mutating operation. An error is the constructor named
after its message, or the library's own.
-/

namespace KafkaManager.Consumer

open Lib Kafka

structure ResetRequest where
  group : String
  mode : String
  offset : Int
  timestamp : Int
  topics : List String
deriving DecidableEq, Repr

inductive ConsumerError
  | groupRequired                   -- group is required
  | offsetNegative                  -- offset must not be negative
  | timestampRequired               -- timestamp is required
  | unsupportedMode (mode : String) -- unsupported reset mode %q
  | groupNotFound                   -- consumer group not found
  | groupRunning                    -- consumer group must be stopped before resetting offsets
  | kafka (e : Kafka.Error)
deriving DecidableEq, Repr

/-- The checks of `Service.Reset`. -/
def ResetRequest.validate (r : ResetRequest) : Option ConsumerError :=
  if isBlank r.group then some .groupRequired
  else if r.mode = "earliest" ∨ r.mode = "latest" then none
  else if r.mode = "absolute" then
    if r.offset < 0 then some .offsetNegative else none
  else if r.mode = "timestamp" then
    if r.timestamp ≤ 0 then some .timestampRequired else none
  else some (.unsupportedMode r.mode)

def contains (values : List String) (want : String) : Bool := values.any fun v => v == want

/-- The loop that collects the topics of the lag, `seen` before. -/
def lagTopics : List String → List MemberLag → List String
  | _, [] => []
  | seen, p :: rest =>
      if seen.contains p.topic then lagTopics seen rest
      else p.topic :: lagTopics (p.topic :: seen) rest

/-- The topics to reset: those of the request, or all those of the lag. -/
def resetTopics (r : ResetRequest) (lag : GroupLag) : List String :=
  if r.topics.length = 0 then lagTopics [] lag.lag else r.topics

/-- The offsets of mode `absolute`. -/
def absoluteOffsets (r : ResetRequest) (lag : GroupLag) : List Offset :=
  (lag.lag.filter fun p => !(decide (r.topics.length > 0) && !contains r.topics p.topic)).map
    fun p => ⟨p.topic, p.partition, r.offset⟩

def resetOffsets (r : ResetRequest) (lag : GroupLag) (topics : List String) :
    KafkaProg (Except Kafka.Error (List Offset)) :=
  if r.mode = "earliest" then Call.perform (.listStartOffsets topics)
  else if r.mode = "latest" then Call.perform (.listEndOffsets topics)
  else if r.mode = "timestamp" then Call.perform (.listOffsetsAfterMilli r.timestamp topics)
  else if r.mode = "absolute" then pure (.ok (absoluteOffsets r lag))
  else pure (.ok [])

/-- The group has no members. -/
def GroupLag.stopped (lag : GroupLag) : Bool := lag.state == "Empty" || lag.state == "Dead"

/-- `KadmBackend.Reset` -/
def backendReset (r : ResetRequest) : KafkaProg (Option ConsumerError) := do
  match ← Call.perform (.lag r.group) with
  | .error e => pure (some (.kafka e))
  | .ok none => pure (some .groupNotFound)
  | .ok (some lag) =>
      if !GroupLag.stopped lag then pure (some .groupRunning)
      else do
        match ← resetOffsets r lag (resetTopics r lag) with
        | .error e => pure (some (.kafka e))
        | .ok offsets => do
            match ← Call.perform (.commitAllOffsets r.group offsets) with
            | some e => pure (some (.kafka e))
            | none => pure none

/-- `Service.Reset` -/
def reset (r : ResetRequest) : KafkaProg (Option ConsumerError) :=
  match r.validate with
  | some e => pure (some e)
  | none => backendReset r

/-- `Service.Delete` and `KadmBackend.Delete` -/
def delete (group : String) : KafkaProg (Option ConsumerError) :=
  if isBlank group then pure (some .groupRequired)
  else do
    match ← Call.perform (.deleteGroup group) with
    | some e => pure (some (.kafka e))
    | none => pure none

end KafkaManager.Consumer
