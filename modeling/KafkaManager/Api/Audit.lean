import KafkaManager.Api.Topics
import KafkaManager.Audit.Query
import KafkaManager.Lib.Utf8

/-!
# The audit log over the API (`recordAudit` and `listAudit`)

`Query` appends to a slice that is nil to begin with, and what is nil is written
as `null`. Only for a directory that is not there it returns a slice without
elements.
-/

namespace KafkaManager.Api

open Lib Audit

/-- The record of `recordAudit`. Its time is set when it is written. -/
def recordAudit (username remoteAddr cluster action resource : String)
    (operationErr : Option String) : Entry :=
  { Entry.zero with
    username
    clientIP := remoteAddr
    clusterID := cluster
    action
    resource
    result := if operationErr.isSome then "failed" else "success"
    error := operationErr.getD "" }

def auditFilter (params : Params) : Filter where
  fromDay := params "from"
  toDay := params "to"
  clusterID := params "cluster"
  action := params "action"
  result := params "result"
  limit := intQuery params "limit" 100

/-- A time without a text is an error of the encoder. -/
def entryJson (e : Entry) : Option Json := e.timestamp.text.map fun text => e.toJson text

/-- The items of the answer; `present` says that the directory is there. -/
def itemsJson (present : Bool) (items : List Entry) : Option Json :=
  if present && items.isEmpty then some .null else (items.mapM entryJson).map Json.arr

/-- The body of `listAudit`, or `none` for the error of `Query`. An encoder that
fails has written nothing. -/
def listAudit (sorter : Sorter newer) (present : Bool) (files : List LogFile) (params : Params) :
    Option (List UInt8) :=
  (query sorter files (auditFilter params)).map fun items =>
    match itemsJson present items with
    | some v => utf8 ((Json.obj [("items".toList, v)]).write ++ ['\n'])
    | none => []

end KafkaManager.Api
