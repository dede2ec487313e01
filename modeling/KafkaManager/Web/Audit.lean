import KafkaManager.Api.Audit
import KafkaManager.Lib.JsonObject
import KafkaManager.Lib.UrlQuery
import KafkaManager.Web.MessageFilters

/-!
# The audit page (`AuditPage.tsx`)

The page keeps what it has read as `items`, whatever that is, and filters it each
time it is rendered. `toLowerCase` is a function of the language, and none of its
properties are used.
-/

namespace KafkaManager.Web

open Lib

/-- An entry as the page declares it (`AuditEntry` in `types.ts`). -/
structure AuditEntry where
  timestamp : JsString
  clusterId : Option JsString
  action : JsString
  resource : Option JsString
  result : JsString
  error : Option JsString

inductive ResultOption
  | all
  | success
  | failure
deriving DecidableEq

def ResultOption.value : ResultOption → List Char
  | all => "all".toList
  | success => "success".toList
  | failure => "failure".toList

/-- A property that holds a text. -/
def textProperty (v : JsValue) (key : List Char) : Option JsString :=
  match v.property key with
  | some (.str s) => some s
  | _ => none

namespace AuditEntry

def ofValue (v : JsValue) : Option AuditEntry := do
  let timestamp ← textProperty v "timestamp".toList
  let action ← textProperty v "action".toList
  let result ← textProperty v "result".toList
  some
    { timestamp
      clusterId := textProperty v "clusterId".toList
      action
      resource := textProperty v "resource".toList
      result
      error := textProperty v "error".toList }

/-- A text in a template; what is undefined is written out. -/
def templateText (s : Option JsString) : JsString := s.getD (JsString.ofText "undefined".toList)

def haystack (entry : AuditEntry) : JsString :=
  entry.action ++ JsString.ofText [' '] ++ templateText entry.clusterId ++ JsString.ofText [' '] ++
    templateText entry.resource ++ JsString.ofText [' '] ++ entry.error.getD []

def matchesResult (option : ResultOption) (entry : AuditEntry) : Bool :=
  option == .all || entry.result == JsString.ofText option.value

section

variable (toLowerCase : JsString → JsString)

def mentions (search : JsString) (entry : AuditEntry) : Bool :=
  decide (toLowerCase (trimString search) <:+: toLowerCase entry.haystack)

/-- `shown`; `none` when the rendering throws. -/
def shown (items : JsValue) (search : JsString) (option : ResultOption) :
    Option (List AuditEntry) :=
  match items with
  | .arr rows =>
      (rows.mapM ofValue).map fun entries =>
        entries.filter fun entry =>
          entry.matchesResult option && entry.mentions toLowerCase search
  | _ => none

end

end AuditEntry

/-- The parameters of the request of `load`. -/
def auditParams : Api.Params := getQuery "limit=200".toList

/-- `response.items` of the answer -/
def auditItems (body : List UInt8) : Option JsValue :=
  (JsValue.parse (runes body)).bind fun response => response.property "items".toList

end KafkaManager.Web
