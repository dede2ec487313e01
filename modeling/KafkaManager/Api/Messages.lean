import KafkaManager.Api.Topics
import KafkaManager.Kafka.Filter
import KafkaManager.Lib.UrlQuery

/-!
# The query of a request for messages (`messageQuery` in `internal/api/server.go`)

The numbers of a query are read from the URL with a fallback, which also stands
for what is no number. The filters are JSON.
-/

namespace KafkaManager

open Lib

namespace Message.JSONFilter

def zero : JSONFilter where
  path := ""
  operator := ""
  value := ""

/-- A value for a field, read into a filter. -/
def set (key : List Char) (v : Json) (f : JSONFilter) : Option JSONFilter :=
  if Json.names "path".toList key then
    (Json.setString f.path.toList v).map fun s => { f with path := String.ofList s }
  else if Json.names "operator".toList key then
    (Json.setString f.operator.toList v).map fun s => { f with operator := String.ofList s }
  else if Json.names "value".toList key then
    (Json.setString f.value.toList v).map fun s => { f with value := String.ofList s }
  else some f

/-- `json.Unmarshal` into a list of filters. -/
def ofText (text : String) : Option (List JSONFilter) :=
  (Json.read text.toList).bind fun
    | .null => some []
    | .arr items => items.mapM (Json.decode set zero)
    | _ => none

end Message.JSONFilter

namespace Api

open Message

/-- An `int` has 64 bits as well, and `strconv.Atoi` reads what `ParseInt` does. -/
def int64Query (params : Params) (name : String) (fallback : Int) : Int :=
  intQuery params name fallback

inductive MessageQueryError
  | filtersInvalid                                -- JSON filters are invalid: %w
deriving DecidableEq, Repr

def messageQuery (params : Params) (mode : String) : Except MessageQueryError Query :=
  let query : Query :=
    { topic := params "topic"
      partition := wrap32 (intQuery params "partition" (-1))
      mode := if mode = "" then params "mode" else mode
      offset := int64Query params "offset" 0
      timestamp := int64Query params "timestamp" 0
      limit := intQuery params "limit" 100
      scanLimit := intQuery params "scanLimit" 0
      keyFilter := params "keyFilter"
      keyOperator := params "keyOperator"
      valueFilter := params "valueFilter"
      valueOperator := params "valueOperator"
      jsonFilters := [] }
  let raw := trimSpace (params "jsonFilters")
  if raw = "" then .ok query
  else
    match JSONFilter.ofText raw with
    | none => .error .filtersInvalid
    | some jsonFilters => .ok { query with jsonFilters }

end Api

end KafkaManager
