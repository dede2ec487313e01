import KafkaManager.Kafka.Filter

/-!
# Fetching messages (`KafkaBackend.Fetch` in `kafka_backend.go`)

`Fetch` resolves an offset for every partition of the query, makes a consumer
that begins there, and polls it for as many records as it may still scan, until
the collector is done or a poll comes back empty. A poll has a deadline of its
own, and that it has passed is no error.
-/

namespace KafkaManager.Message

open Lib Kafka

inductive FetchError
  | topicNotFound                       -- topic not found
  | offsetUnavailable (partition : Int) -- offset unavailable for partition %d
  | deadlineExceeded
  | kafka (e : Kafka.Error)
deriving DecidableEq

/-- What a poll returns, its records in the order of `EachRecord`, with the
errors of the two contexts: whether the poll's own has come to its deadline,
and the request's. -/
structure Poll where
  records : List Record
  errors : List FetchError
  deadline : Bool
  request : Option FetchError

inductive FetchCall
  | listTopics (topic : String)
  | listStartOffsets (topic : String)
  | listEndOffsets (topic : String)
  | listOffsetsAfterMilli (timestamp : Int) (topic : String)
  | newConsumer (assignment : List (Int × Int))
  | pollRecords (max : Nat)
  | close

/-- `listTopics` gives the partitions if the topic is in the answer. An offset
is there to look up if it is listed without an error. -/
abbrev FetchCall.Answer : FetchCall → Type
  | .listTopics _ => Except FetchError (Option (List Int))
  | .listStartOffsets _ | .listEndOffsets _ | .listOffsetsAfterMilli .. =>
      Except FetchError (Int → Option Int)
  | .newConsumer _ => Option FetchError
  | .pollRecords _ => Poll
  | .close => Unit

abbrev FetchProg (α : Type) : Type := Prog FetchCall FetchCall.Answer α

abbrev FetchCall.perform (c : FetchCall) : FetchProg c.Answer := Prog.call c

/-- `partitions`, of all if the query is for -1. -/
def fetchPartitions (q : Query) : FetchProg (Except FetchError (List Int)) :=
  if q.partition = -1 then do
    match ← FetchCall.perform (.listTopics q.topic) with
    | .error e => pure (.error e)
    | .ok none => pure (.error .topicNotFound)
    | .ok (some partitions) => pure (.ok partitions)
  else pure (.ok [q.partition])

/-- The offset of a listing. -/
def lookupOffset (q : Query) (partition : Int) :
    Except FetchError (Int → Option Int) → Except FetchError Int
  | .error e => .error e
  | .ok listed =>
      match listed partition with
      | none => .error (.offsetUnavailable partition)
      | some offset =>
          .ok (if q.mode = "latest" then
              if offset - q.scanLimit < 0 then 0 else offset - q.scanLimit
            else offset)

def resolveOffset (q : Query) (partition : Int) : FetchProg (Except FetchError Int) :=
  if q.mode = "offset" then pure (.ok q.offset)
  else if q.mode = "earliest" then do
    let listed ← FetchCall.perform (.listStartOffsets q.topic)
    pure (lookupOffset q partition listed)
  else if q.mode = "latest" ∨ q.mode = "live" then do
    let listed ← FetchCall.perform (.listEndOffsets q.topic)
    pure (lookupOffset q partition listed)
  else if q.mode = "timestamp" then do
    let listed ← FetchCall.perform (.listOffsetsAfterMilli q.timestamp q.topic)
    pure (lookupOffset q partition listed)
  else pure (.error (.offsetUnavailable partition))

/-- The loop that fills the assignment. -/
def assign (q : Query) : List Int → FetchProg (Except FetchError (List (Int × Int)))
  | [] => pure (.ok [])
  | partition :: rest => do
      match ← resolveOffset q partition with
      | .error e => pure (.error e)
      | .ok offset =>
          match ← assign q rest with
          | .error e => pure (.error e)
          | .ok assignment => pure (.ok ((partition, offset) :: assignment))

/-- `pollError` for an error of a poll. -/
def pollError (poll : Poll) (fetchErr : FetchError) : Option FetchError :=
  match poll.request with
  | some e => some e
  | none =>
      if poll.deadline = true ∧ fetchErr = .deadlineExceeded then none else some fetchErr

section

variable (F : Floats)

def fetchLoop : Nat → RecordCollector → FetchProg (Except FetchError QueryResult)
  | 0, c => pure (.ok c.result)
  | fuel + 1, c =>
      if c.done then pure (.ok c.result)
      else do
        let poll ← FetchCall.perform (.pollRecords c.remainingScan.toNat)
        match poll.errors.findSome? (pollError poll) with
        | some e => pure (.error e)
        | none =>
            if poll.records.isEmpty then pure (.ok c.result)
            else fetchLoop fuel (c.feed F poll.records)

/-- `KafkaBackend.Fetch` -/
def fetch (q : Query) : FetchProg (Except FetchError QueryResult) := do
  match ← fetchPartitions q with
  | .error e => pure (.error e)
  | .ok partitions =>
      match ← assign q partitions with
      | .error e => pure (.error e)
      | .ok assignment =>
          match ← FetchCall.perform (.newConsumer assignment) with
          | some e => pure (.error e)
          | none => do
              let result ← fetchLoop F (q.scanLimit.toNat + 1) (newRecordCollector q)
              let _ ← FetchCall.perform .close
              pure result

end

/-! ## A topic and its consumer -/

/-- The records of a partition, between its offsets. -/
structure PartitionLog where
  partition : Int
  records : List Record
  start : Int
  finish : Int
  own : ∀ r ∈ records, r.partition = partition
  within : ∀ r ∈ records, start ≤ r.offset ∧ r.offset < finish
  ordered : records.Pairwise fun a b => a.offset < b.offset
  start_nonneg : 0 ≤ start

structure TopicLog where
  partitions : List PartitionLog
  distinct : (partitions.map PartitionLog.partition).Nodup

/-- The records from an offset on. -/
def TopicLog.recordsFrom (t : TopicLog) (partition offset : Int) : List Record :=
  match t.partitions.find? fun l => l.partition == partition with
  | none => []
  | some l => l.records.filter fun r => offset ≤ r.offset

/-- One record after the other is the first of a partition. -/
inductive Takes : List (List Record) → List Record → List (List Record) → Prop
  | nil (unread : List (List Record)) : Takes unread [] unread
  | cons {before after unread : List (List Record)} {r : Record} {rest records : List Record} :
      Takes (before ++ rest :: after) records unread →
        Takes (before ++ (r :: rest) :: after) (r :: records) unread

/-- `batches` has the records of the polls that were not empty. -/
structure Consumption where
  assigned : List (Int × Int)
  unread : List (List Record)
  batches : List (List Record)

/-- What is polled is added. -/
def addBatch (batches : List (List Record)) (records : List Record) : List (List Record) :=
  if records.isEmpty then batches else batches ++ [records]

/-- How a cluster with the topic answers. Every call may fail. A poll gives what
is next in its partitions, in any order among them, and may be empty at any
time. -/
def serve (t : TopicLog) : (c : FetchCall) → Consumption → c.Answer → Consumption → Prop
  | .listTopics _, s, r, s' =>
      s' = s ∧ ∀ ps, r = .ok (some ps) → ps = t.partitions.map PartitionLog.partition
  | .listStartOffsets _, s, r, s' =>
      s' = s ∧ ∀ f, r = .ok f → ∀ p o, f p = some o →
        ∃ l ∈ t.partitions, l.partition = p ∧ o = l.start
  | .listEndOffsets _, s, r, s' =>
      s' = s ∧ ∀ f, r = .ok f → ∀ p o, f p = some o →
        ∃ l ∈ t.partitions, l.partition = p ∧ o = l.finish
  | .listOffsetsAfterMilli .., s, r, s' =>
      s' = s ∧ ∀ f, r = .ok f → ∀ p o, f p = some o →
        ∃ l ∈ t.partitions, l.partition = p ∧ l.start ≤ o ∧ o ≤ l.finish
  | .newConsumer assignment, s, r, s' =>
      s' = if r.isSome then s
        else
          { assigned := assignment
            unread := assignment.map fun (p, o) => t.recordsFrom p o
            batches := [] }
  | .pollRecords max, s, poll, s' =>
      poll.records.length ≤ max ∧ Takes s.unread poll.records s'.unread ∧
        s'.assigned = s.assigned ∧ s'.batches = addBatch s.batches poll.records
  | .close, s, _, s' => s' = s

/-- A poll is empty only if nothing is left. -/
def Patient : (c : FetchCall) → Consumption → c.Answer → Prop
  | .pollRecords _, s, poll => poll.records = [] → ∀ l ∈ s.unread, l = []
  | .listTopics _, _, _ => True
  | .listStartOffsets _, _, _ => True
  | .listEndOffsets _, _, _ => True
  | .listOffsetsAfterMilli .., _, _ => True
  | .newConsumer _, _, _ => True
  | .close, _, _ => True

/-- The cluster with a consumer that waits for what there is. -/
def servePatiently (t : TopicLog) (c : FetchCall) (s : Consumption) (r : c.Answer)
    (s' : Consumption) : Prop :=
  serve t c s r s' ∧ Patient c s r

end KafkaManager.Message
