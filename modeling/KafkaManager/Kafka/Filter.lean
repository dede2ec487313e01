import KafkaManager.Kafka.Message
import KafkaManager.Lib.GoText
import KafkaManager.Lib.JsonAny

/-!
# Looking for messages (`internal/kafka/message`, `filter.go` and `validateQuery`)

A query is checked and completed, a record is held against it, and a collector
takes records until it has scanned or found enough. It keeps the newest ones
where a filter makes it look at more than it returns.

What `strconv.ParseFloat` gives is a type of its own with its comparisons.
-/

namespace KafkaManager.Message

open Lib Kafka

structure JSONFilter where
  path : String
  operator : String
  value : String
deriving DecidableEq, Repr

structure Query where
  topic : String
  partition : Int
  mode : String
  offset : Int
  timestamp : Int
  limit : Int
  scanLimit : Int
  keyFilter : String
  keyOperator : String
  valueFilter : String
  valueOperator : String
  jsonFilters : List JSONFilter
deriving DecidableEq, Repr

structure QueryResult where
  items : List Record
  scanned : Nat
  matched : Nat
  skippedInvalidJSON : Nat
  resultLimited : Bool
  scanLimited : Bool
deriving DecidableEq, Repr

/-! ## Checking a query -/

inductive QueryError
  | topicRequired                                 -- topic is required
  | partitionInvalid                              -- partition is invalid
  | offsetNegative                                -- offset must not be negative
  | timestampRequired                             -- timestamp is required
  | unsupportedMode (mode : String)               -- unsupported query mode %q
  | scanLimitExceeded                             -- scan limit must not exceed 50000
  | unsupportedKeyOperator (operator : String)    -- unsupported key operator %q
  | unsupportedValueOperator (operator : String)  -- unsupported value operator %q
  | tooManyFilters                                -- at most 5 JSON filters are allowed
  | pathRequired                                  -- JSON filter path is required
  | unsupportedJSONOperator (operator : String)   -- unsupported JSON operator %q
deriving DecidableEq, Repr

def hasContentFilters (q : Query) : Bool :=
  q.keyFilter != "" || q.valueFilter != "" || !q.jsonFilters.isEmpty

/-- The switch over the mode. -/
def Query.checkMode (q : Query) : Option QueryError :=
  if q.mode = "earliest" ∨ q.mode = "latest" ∨ q.mode = "live" then none
  else if q.mode = "offset" then if q.offset < 0 then some .offsetNegative else none
  else if q.mode = "timestamp" then if q.timestamp ≤ 0 then some .timestampRequired else none
  else some (.unsupportedMode q.mode)

/-- An operator that may be left out, and has to be one of these. -/
def checkOperator (operator fallback : String) (allowed : List String)
    (e : String → QueryError) : Except QueryError String :=
  let operator := if operator = "" then fallback else operator
  if operator ∈ allowed then .ok operator else .error (e operator)

def jsonOperators : List String := ["eq", "neq", "contains", "exists", "gt", "gte", "lt", "lte"]

def JSONFilter.check (f : JSONFilter) : Except QueryError JSONFilter :=
  let path := trimSpace f.path
  if path = "" then .error .pathRequired
  else do
    let operator ← checkOperator f.operator "eq" jsonOperators .unsupportedJSONOperator
    .ok { f with path, operator }

/-- The operator of a text filter that is set. -/
def checkTextOperator (filter operator : String) (allowed : List String)
    (e : String → QueryError) : Except QueryError String :=
  if filter = "" then .ok operator else checkOperator operator "contains" allowed e

def clampLimit (limit : Int) : Int :=
  let limit := if limit < 1 then 100 else limit
  if limit > 500 then 500 else limit

def validateQuery (q : Query) : Except QueryError Query :=
  if isBlank q.topic then .error .topicRequired
  else if q.partition < -1 then .error .partitionInvalid
  else
    match q.checkMode with
    | some e => .error e
    | none =>
        if q.scanLimit > 50000 then .error .scanLimitExceeded
        else do
          let keyOperator ← checkTextOperator q.keyFilter q.keyOperator
            ["contains", "exact", "prefix"] .unsupportedKeyOperator
          let valueOperator ← checkTextOperator q.valueFilter q.valueOperator
            ["contains", "exact"] .unsupportedValueOperator
          if q.jsonFilters.length > 5 then .error .tooManyFilters
          else do
            let jsonFilters ← q.jsonFilters.mapM JSONFilter.check
            let limit := clampLimit q.limit
            let scanLimit :=
              if hasContentFilters q then if q.scanLimit < 1 then 5000 else q.scanLimit
              else limit
            .ok { q with limit, scanLimit, keyOperator, valueOperator, jsonFilters }

/-! ## Holding a record against it -/

/-- The numbers of `strconv.ParseFloat`. -/
structure Floats where
  Number : Type
  parseFloat : List Char → Option Number
  eq : Number → Number → Bool
  lt : Number → Number → Bool
  le : Number → Number → Bool

def matchText (actual expected operator : String) : Bool :=
  if operator = "exact" then actual == expected
  else if operator = "prefix" then expected.toList.isPrefixOf actual.toList
  else (cut expected.toList actual.toList).isSome

/-- The loop of `jsonPath`. -/
def jsonSegments : Json → List (List Char) → Option Json
  | current, [] => some current
  | .obj fields, segment :: rest => (Json.field segment fields).bind fun v => jsonSegments v rest
  | .arr items, segment :: rest =>
      match parseInt segment with
      | none => none
      | some index =>
          if index < 0 then none
          else (items[index.toNat]?).bind fun v => jsonSegments v rest
  | _, _ :: _ => none

def jsonPath (value : Json) (path : String) : Option Json :=
  jsonSegments value (path.toList.splitOn '.')

def jsonText : Json → List Char
  | .str text => text
  | value => value.canonical.write

/-- `strconv.ParseBool` -/
def parseBool (s : String) : Option Bool :=
  if s ∈ ["1", "t", "T", "true", "TRUE", "True"] then some true
  else if s ∈ ["0", "f", "F", "false", "FALSE", "False"] then some false
  else none

section

variable (F : Floats)

/-- Both are numbers, in this relation. -/
def numbers (rel : F.Number → F.Number → Bool) (actual expected : List Char) : Bool :=
  match F.parseFloat actual, F.parseFloat expected with
  | some a, some b => rel a b
  | _, _ => false

def equalJSON (actual : Json) (expected : String) : Bool :=
  match actual with
  | .null => expected == "null"
  | .str text => text == expected.toList
  | .bool b => parseBool expected == some b
  | .num n => numbers F F.eq n.literal expected.toList
  | value => jsonText value == expected.toList

/-- A comparison of `matchJSON`, of what is a number. -/
def compareJSON (rel : F.Number → F.Number → Bool) (actual : Json) (expected : String) : Bool :=
  match actual with
  | .num n => numbers F rel n.literal expected.toList
  | _ => false

def matchJSON (actual : Option Json) (filter : JSONFilter) : Bool :=
  if filter.operator = "exists" then actual.isSome
  else
    match actual with
    | none => false
    | some actual =>
        if filter.operator = "eq" then equalJSON F actual filter.value
        else if filter.operator = "neq" then !equalJSON F actual filter.value
        else if filter.operator = "contains" then (cut filter.value.toList (jsonText actual)).isSome
        else if filter.operator = "gt" then compareJSON F (fun a b => F.lt b a) actual filter.value
        else if filter.operator = "gte" then compareJSON F (fun a b => F.le b a) actual filter.value
        else if filter.operator = "lt" then compareJSON F F.lt actual filter.value
        else if filter.operator = "lte" then compareJSON F F.le actual filter.value
        else false

/-- Whether the record is one, and whether it had to be JSON and is not. -/
def matchRecord (record : Record) (q : Query) : Bool × Bool :=
  if q.keyFilter ≠ "" ∧ matchText record.key q.keyFilter q.keyOperator = false then (false, false)
  else if q.valueFilter ≠ "" ∧ matchText record.value q.valueFilter q.valueOperator = false then
    (false, false)
  else if q.jsonFilters.isEmpty then (true, false)
  else
    match Json.read record.value.toList with
    | none => (false, true)
    | some value => (q.jsonFilters.all fun f => matchJSON F (jsonPath value f.path) f, false)

end

/-! ## The collector -/

def recordNewer (left right : Record) : Bool :=
  if left.timestamp ≠ right.timestamp then left.timestamp > right.timestamp
  else if left.partition ≠ right.partition then left.partition > right.partition
  else left.offset > right.offset

structure RecordCollector where
  query : Query
  output : QueryResult

def newRecordCollector (q : Query) : RecordCollector where
  query := q
  output :=
    { items := [], scanned := 0, matched := 0, skippedInvalidJSON := 0, resultLimited := false
      scanLimited := false }

/-- `Mode == "latest" && hasContentFilters` -/
def Query.keepsNewest (q : Query) : Bool := q.mode == "latest" && hasContentFilters q

/-- The index of the oldest record, one of those before `index` being the
oldest so far. -/
def oldestFrom (index oldest : Nat) (least : Record) : List Record → Nat × Record
  | [] => (oldest, least)
  | r :: rest =>
      if recordNewer least r then oldestFrom (index + 1) index r rest
      else oldestFrom (index + 1) oldest least rest

/-- A record takes the place of the oldest if it is newer. -/
def replaceOldest (record : Record) : List Record → List Record
  | [] => []
  | first :: rest =>
      let (oldest, least) := oldestFrom 1 0 first rest
      if recordNewer record least then (first :: rest).set oldest record else first :: rest

namespace RecordCollector

def done (c : RecordCollector) : Bool :=
  decide ((c.output.scanned : Int) ≥ c.query.scanLimit) ||
    !c.query.keepsNewest && decide ((c.output.items.length : Int) ≥ c.query.limit)

def remainingScan (c : RecordCollector) : Int :=
  let remaining := c.query.scanLimit - c.output.scanned
  if remaining < 0 then 0 else remaining

/-- What `add` does with a record that matches. -/
def keep (record : Record) (c : RecordCollector) : List Record :=
  if c.query.keepsNewest ∧ (c.output.items.length : Int) ≥ c.query.limit then
    replaceOldest record c.output.items
  else c.output.items ++ [record]

section

variable (F : Floats)

def add (record : Record) (c : RecordCollector) : Bool × RecordCollector :=
  if c.done then (false, c)
  else
    let (matched, invalidJSON) := matchRecord F record c.query
    let c' : RecordCollector :=
      { c with
        output :=
          { c.output with
            items := if matched then c.keep record else c.output.items
            scanned := c.output.scanned + 1
            matched := c.output.matched + if matched then 1 else 0
            skippedInvalidJSON := c.output.skippedInvalidJSON + if invalidJSON then 1 else 0 } }
    (!c'.done, c')

/-- The records of a batch, one after the other. -/
def feed (records : List Record) (c : RecordCollector) : RecordCollector :=
  records.foldl (fun c record => (c.add F record).2) c

end

def result (c : RecordCollector) : QueryResult :=
  let output := c.output
  let output := { output with resultLimited := decide ((output.matched : Int) ≥ c.query.limit) }
  let output :=
    if c.query.mode = "latest" then
      { output with
        resultLimited :=
          if hasContentFilters c.query then decide (output.matched > output.items.length)
          else output.resultLimited
        items := output.items.mergeSort fun a b => !recordNewer b a }
    else output
  { output with scanLimited := decide ((output.scanned : Int) ≥ c.query.scanLimit) }

end RecordCollector

end KafkaManager.Message
