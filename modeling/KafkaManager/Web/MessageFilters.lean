import KafkaManager.Lib.JsValue
import KafkaManager.Lib.SearchParams
import KafkaManager.Lib.Trim
import KafkaManager.Web.ListPages

/-!
# The filters of messages in the URL (`pages/message-filters.ts`)

The page reads its filters from the parameters of its URL and writes them back
when they change. The texts of parameters are characters; what the JSON of a
parameter says is a string of ECMAScript, in which a surrogate may stand alone.

What may throw is an `Except`.
-/

namespace KafkaManager.Web

open Lib

inductive KeyOperator
  | contains
  | exact
  | leading
deriving DecidableEq, Repr

inductive ValueOperator
  | contains
  | exact
deriving DecidableEq, Repr

inductive JSONOperator
  | eq
  | neq
  | contains
  | present
  | gt
  | gte
  | lt
  | lte
deriving DecidableEq, Repr

def KeyOperator.name : KeyOperator → String
  | contains => "contains"
  | exact => "exact"
  | leading => "prefix"

def ValueOperator.name : ValueOperator → String
  | contains => "contains"
  | exact => "exact"

def JSONOperator.name : JSONOperator → String
  | eq => "eq"
  | neq => "neq"
  | contains => "contains"
  | present => "exists"
  | gt => "gt"
  | gte => "gte"
  | lt => "lt"
  | lte => "lte"

def keyOperators : List KeyOperator := [.contains, .exact, .leading]

def valueOperators : List ValueOperator := [.contains, .exact]

def jsonOperators : List JSONOperator := [.eq, .neq, .contains, .present, .gt, .gte, .lt, .lte]

def filterParamNames : List String :=
  ["keyFilter", "keyOperator", "valueFilter", "valueOperator", "scanLimit", "jsonFilters"]

/-- What a filter on the JSON of a message is in the URL. -/
structure JSONFilter where
  path : JsString
  operator : JSONOperator
  value : JsString
deriving DecidableEq

structure JSONFilterCondition extends JSONFilter where
  id : String

structure MessageFilters where
  keyFilter : String
  keyOperator : KeyOperator
  valueFilter : String
  valueOperator : ValueOperator
  /-- A whole number where it comes from the URL. -/
  scanLimit : Nat
  jsonFilters : List JSONFilterCondition

def defaultFilters : MessageFilters where
  keyFilter := ""
  keyOperator := .contains
  valueFilter := ""
  valueOperator := .contains
  scanLimit := 5000
  jsonFilters := []

/-! ## What of the language is used -/

inductive Thrown
  | syntaxError
  | typeError
deriving DecidableEq, Repr

def trimText (s : String) : String := String.ofList (trim jsSpace s.toList)

def jsSpaceUnit (u : UInt16) : Bool := jsSpace (Char.ofNat u.toNat)

def trimString (s : JsString) : JsString := trim jsSpaceUnit s

/-- `Number` of a parameter, which is null if it is not there. -/
def numberOf : Option String → JsNumber
  | none => .ofRat 0
  | some s => .numericLiteral (trim jsSpace s.toList)

def parseJSON (text : String) : Except Thrown JsValue :=
  match JsValue.parse text.toList with
  | some v => pure v
  | none => throw .syntaxError

/-- A property with a name that no array, string, number or boolean has. -/
def property (v : JsValue) (key : String) : Except Thrown (Option JsValue) :=
  match v with
  | .null => throw .typeError
  | .obj properties =>
      pure ((properties.find? fun p => p.1 == JsString.ofText key.toList).map Prod.snd)
  | .bool _ | .num _ | .str _ | .arr _ => pure none

/-- What is not null, false, zero, not a number or the empty string. -/
def truthy : JsValue → Bool
  | .null => false
  | .bool b => b
  | .num .nan => false
  | .num (.finite x) => x.value ≠ 0
  | .num (.infinite _) => true
  | .str s => !s.isEmpty
  | .arr _ | .obj _ => true

/-- `typeof` gives "object". -/
def isObject : JsValue → Bool
  | .null | .arr _ | .obj _ => true
  | .bool _ | .num _ | .str _ => false

/-! ## The functions -/

def serializableJSONFilters (filters : MessageFilters) : List JSONFilter :=
  (filters.jsonFilters.filter fun filter => !(trimString filter.path).isEmpty).map
    fun filter => { filter.toJSONFilter with path := trimString filter.path }

def activeFilterCount (filters : MessageFilters) : Nat :=
  (trimText filters.keyFilter != "").toNat + (trimText filters.valueFilter != "").toNat +
    (serializableJSONFilters filters).length

def JSONFilter.toValue (filter : JSONFilter) : JsValue :=
  .obj
    [(JsString.ofText "path".toList, .str filter.path),
      (JsString.ofText "operator".toList, .str (JsString.ofText filter.operator.name.toList)),
      (JsString.ofText "value".toList, .str filter.value)]

section

variable (T : NumberText)

/-- The entries of the record, in the order of their creation. -/
def filterQueryParams (filters : MessageFilters) : List (String × String) :=
  let key := trimText filters.keyFilter
  let value := trimText filters.valueFilter
  let jsonFilters := serializableJSONFilters filters
  (if key ≠ "" then [("keyFilter", key), ("keyOperator", filters.keyOperator.name)] else []) ++
    (if value ≠ "" then
      [("valueFilter", value), ("valueOperator", filters.valueOperator.name)] else []) ++
    (if jsonFilters ≠ [] then
      [("jsonFilters", String.ofList
        (JsValue.stringify T .compact (.arr (jsonFilters.map JSONFilter.toValue))))] else []) ++
    if key ≠ "" ∨ value ≠ "" ∨ jsonFilters ≠ [] then
      [("scanLimit", String.ofList (Nat.toDigits 10 filters.scanLimit))] else []

/-- `jsonOperators.includes(operator)` -/
def readJSONOperator : Option JsValue → Option JSONOperator
  | some (.str s) => jsonOperators.find? fun o => JsString.ofText o.name.toList == s
  | _ => none

/-- What `flatMap` makes of one item. -/
def filterEntry (index : Nat) (item : JsValue) : Except Thrown (List JSONFilterCondition) :=
  if !truthy item || !isObject item then pure []
  else do
    let operator ← property item "operator"
    let path ← property item "path"
    match path, readJSONOperator operator with
    | some (.str path), some operator =>
        let value ← property item "value"
        pure
          [{ id := "url-" ++ toString index
             path, operator
             value := match value with | some (.str s) => s | _ => [] }]
    | _, _ => pure []

def filterEntries (index : Nat) : List JsValue → Except Thrown (List JSONFilterCondition)
  | [] => pure []
  | item :: rest => do
      let entry ← filterEntry index item
      let entries ← filterEntries (index + 1) rest
      pure (entry ++ entries)

/-- The body of the `try`. -/
def parseJSONFilters (output : MessageFilters) (text : String) : Except Thrown MessageFilters := do
  let parsed ← parseJSON text
  match parsed with
  | .arr items => do
      let jsonFilters ← filterEntries 0 (items.take 5)
      pure { output with jsonFilters }
  | _ => pure output

def parseScanLimit (scanLimit : JsNumber) : Nat :=
  match scanLimit with
  | .finite x => if 0 < x.value then min 50000 (max 1 ⌊x.value⌋.toNat) else defaultFilters.scanLimit
  | .nan | .infinite _ => defaultFilters.scanLimit

/-- A parameter, or a default if it is not there or empty. -/
def getOr (params : SearchParams) (name default : String) : String :=
  match params.get name with
  | none => default
  | some s => if s = "" then default else s

/-- Everything but the JSON filters. -/
def plainFilters (params : SearchParams) : MessageFilters where
  keyFilter := getOr params "keyFilter" ""
  keyOperator :=
    (keyOperators.find? fun o => params.get "keyOperator" = some o.name).getD
      defaultFilters.keyOperator
  valueFilter := getOr params "valueFilter" ""
  valueOperator :=
    (valueOperators.find? fun o => params.get "valueOperator" = some o.name).getD
      defaultFilters.valueOperator
  scanLimit := parseScanLimit (numberOf (params.get "scanLimit"))
  jsonFilters := defaultFilters.jsonFilters

def parseMessageFilters (params : SearchParams) : Except Thrown MessageFilters :=
  let output := plainFilters params
  tryCatch (parseJSONFilters output (getOr params "jsonFilters" "[]")) fun _ => pure output

def replaceMessageFilterParams (current : SearchParams) (filters : MessageFilters) :
    SearchParams :=
  (current.deleteAll filterParamNames).setAll (filterQueryParams T filters)

end

end KafkaManager.Web
