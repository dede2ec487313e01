import KafkaManager.Kafka.Filter

/-!
# Following a topic

`streamMessages` in `internal/api/server.go` checks the query, sets its limit,
and `Service.Stream` checks it once more and sends on what matches.

`validateQuery` writes the filters into the array it was given, which every copy
of the query shares. `validateInPlace` is the function with that array: what it
returns, and the filters that are in the array then.
-/

namespace KafkaManager.Message

open Kafka

/-- The loop over the filters, up to the first error. -/
def rewriteFilters : List JSONFilter → Option QueryError × List JSONFilter
  | [] => (none, [])
  | f :: rest =>
      let f := { f with path := Lib.trimSpace f.path }
      if f.path = "" then (some .pathRequired, f :: rest)
      else
        let f := { f with operator := if f.operator = "" then "eq" else f.operator }
        if f.operator ∈ jsonOperators then
          let (e, rest) := rewriteFilters rest
          (e, f :: rest)
        else (some (.unsupportedJSONOperator f.operator), f :: rest)

/-- `validateQuery`, and the array of the filters after it. -/
def validateInPlace (q : Query) : Except QueryError Query × List JSONFilter :=
  if Lib.isBlank q.topic then (.error .topicRequired, q.jsonFilters)
  else if q.partition < -1 then (.error .partitionInvalid, q.jsonFilters)
  else
    match q.checkMode with
    | some e => (.error e, q.jsonFilters)
    | none =>
        let limit := clampLimit q.limit
        if q.scanLimit > 50000 then (.error .scanLimitExceeded, q.jsonFilters)
        else
          match checkTextOperator q.keyFilter q.keyOperator ["contains", "exact", "prefix"]
              .unsupportedKeyOperator with
          | .error e => (.error e, q.jsonFilters)
          | .ok keyOperator =>
              match checkTextOperator q.valueFilter q.valueOperator ["contains", "exact"]
                  .unsupportedValueOperator with
              | .error e => (.error e, q.jsonFilters)
              | .ok valueOperator =>
                  if q.jsonFilters.length > 5 then (.error .tooManyFilters, q.jsonFilters)
                  else
                    match rewriteFilters q.jsonFilters with
                    | (some e, jsonFilters) => (.error e, jsonFilters)
                    | (none, jsonFilters) =>
                        let q := { q with limit, keyOperator, valueOperator, jsonFilters }
                        let scanLimit :=
                          if hasContentFilters q then if q.scanLimit < 1 then 5000 else q.scanLimit
                          else q.limit
                        (.ok { q with scanLimit }, jsonFilters)

/-- `Service.Stream`, of the records that arrive. -/
def stream (F : Floats) (q : Query) (records : List Record) : Except QueryError (List Record) := do
  let q ← validateQuery q
  .ok (records.filter fun record => (matchRecord F record q).1)

/-- What `streamMessages` makes of the query it has read. -/
def streamMessages (F : Floats) (q : Query) (records : List Record) :
    Except QueryError (List Record) := do
  let q ← validateQuery q
  stream F { q with limit := 500 } records

end KafkaManager.Message
