import KafkaManager.Api.Config
import KafkaManager.Lib.JsonObject
import KafkaManager.Web.MessageFilters

/-!
# The settings page (`SettingsPage.tsx`)

The page holds the configuration as the object it has read. An edit copies the
object and changes a property of it; `save` sends what `JSON.stringify` makes of
the object. `onConfig` is what the edit does to the configuration.
-/

namespace KafkaManager.Web

open Lib

/-- The inputs of a cluster that hold a text. -/
inductive ClusterInput
  | name
  | id
deriving DecidableEq

inductive SecurityInput
  | protocol
  | mechanism
  | username
  | password
deriving DecidableEq

inductive AuditInput
  | retentionDays
  | maxFileSizeMB
  | configBackupRetentionDays
deriving DecidableEq

inductive DashboardInput
  | sampleIntervalSeconds
  | historyPoints
deriving DecidableEq

/-- A text or a number is what was typed. -/
inductive SettingsEdit
  | cluster (index : Nat) (input : ClusterInput) (value : JsString)
  | brokers (index : Nat) (value : JsString)
  | readOnly (index : Nat) (checked : Bool)
  | security (index : Nat) (input : SecurityInput) (value : JsString)
  | remove (index : Nat)
  | add
  | audit (input : AuditInput) (value : List Char)
  | dashboard (input : DashboardInput) (value : List Char)

namespace ClusterInput

def key : ClusterInput → List Char
  | name => "name".toList
  | id => "id".toList

def put (s : String) (c : ClusterConfig) : ClusterInput → ClusterConfig
  | name => { c with name := s }
  | id => { c with id := s }

end ClusterInput

namespace SecurityInput

def key : SecurityInput → List Char
  | protocol => "protocol".toList
  | mechanism => "mechanism".toList
  | username => "username".toList
  | password => "password".toList

def put (s : String) (c : SecurityConfig) : SecurityInput → SecurityConfig
  | protocol => { c with protocol := s }
  | mechanism => { c with mechanism := s }
  | username => { c with username := s }
  | password => { c with password := s }

end SecurityInput

namespace AuditInput

def key : AuditInput → List Char
  | retentionDays => "retentionDays".toList
  | maxFileSizeMB => "maxFileSizeMB".toList
  | configBackupRetentionDays => "configBackupRetentionDays".toList

def put (n : Int) (c : AuditConfig) : AuditInput → AuditConfig
  | retentionDays => { c with retentionDays := n }
  | maxFileSizeMB => { c with maxFileSizeMB := n }
  | configBackupRetentionDays => { c with configBackupRetentionDays := n }

end AuditInput

namespace DashboardInput

def key : DashboardInput → List Char
  | sampleIntervalSeconds => "sampleIntervalSeconds".toList
  | historyPoints => "historyPoints".toList

def put (n : Int) (c : DashboardConfig) : DashboardInput → DashboardConfig
  | sampleIntervalSeconds => { c with sampleIntervalSeconds := n }
  | historyPoints => { c with historyPoints := n }

end DashboardInput

/-! ## The page -/

/-- `Number(event.target.value)` -/
def typedNumber (value : List Char) : JsNumber := .numericLiteral (trim jsSpace value)

/-- `event.target.value.split('\n').filter(Boolean)` -/
def brokerLines (value : JsString) : List JsString :=
  (value.splitOn 10).filter fun line => line ≠ []

/-- `blank()` -/
def blank : JsValue :=
  .obj [(JsString.ofText "id".toList, .str []), (JsString.ofText "name".toList, .str []),
    (JsString.ofText "brokers".toList, .arr [.str []]),
    (JsString.ofText "readOnly".toList, .bool false),
    (JsString.ofText "security".toList,
      .obj [(JsString.ofText "protocol".toList, .str (JsString.ofText "PLAINTEXT".toList))])]

/-- `{ ...cfg, key: { ...cfg.key, inner: x } }` -/
def spreadIn (cfg : JsValue) (key inner : List Char) (x : JsValue) : JsValue :=
  cfg.spread key (((cfg.property key).getD (.obj [])).spread inner x)

/-- `{ ...cfg, clusters: f(cfg.clusters) }`; there is nothing to call in what is
no array. -/
def onClusters (cfg : JsValue) (f : List JsValue → List JsValue) : JsValue :=
  match cfg.property "clusters".toList with
  | some (.arr clusters) => cfg.spread "clusters".toList (.arr (f clusters))
  | _ => cfg

/-- `update` -/
def update (cfg : JsValue) (index : Nat) (patch : JsValue → JsValue) : JsValue :=
  onClusters cfg fun clusters => clusters.modify index patch

namespace SettingsEdit

def onPage (cfg : JsValue) : SettingsEdit → JsValue
  | cluster index input value => update cfg index fun item => item.spread input.key (.str value)
  | brokers index value =>
      update cfg index fun item =>
        item.spread "brokers".toList (.arr ((brokerLines value).map JsValue.str))
  | readOnly index checked =>
      update cfg index fun item => item.spread "readOnly".toList (.bool checked)
  | security index input value =>
      update cfg index fun item => spreadIn item "security".toList input.key (.str value)
  | remove index => onClusters cfg fun clusters => clusters.eraseIdx index
  | add => onClusters cfg fun clusters => clusters ++ [blank]
  | audit input value => spreadIn cfg "audit".toList input.key (.num (typedNumber value))
  | dashboard input value => spreadIn cfg "dashboard".toList input.key (.num (typedNumber value))

end SettingsEdit

/-- The body of the request of `save`. -/
def saveBody (T : NumberText) (cfg : JsValue) : List UInt8 := utf8 (cfg.stringify T .compact)

/-- `load`: what `response.json()` makes of the body. -/
def loadSettings (body : List UInt8) : Option JsValue := JsValue.parse (runes body)

/-! ## The configuration -/

/-- The integer a number is if `Number.isSafeInteger` says that it is one. -/
def safeInteger : JsNumber → Option Int
  | .finite x => if x.value.den = 1 ∧ |x.value.num| < 2 ^ 53 then some x.value.num else none
  | _ => none

/-- What a text of the page is on the server. -/
def postedText (s : JsString) : String := String.ofList s.text

def blankCluster : ClusterConfig :=
  { ClusterConfig.zero with
    brokers := [""]
    security := { SecurityConfig.zero with protocol := "PLAINTEXT" } }

namespace SettingsEdit

def onConfig (c : Config) : SettingsEdit → Config
  | cluster index input value =>
      { c with clusters := c.clusters.modify index fun item => input.put (postedText value) item }
  | brokers index value =>
      { c with clusters := c.clusters.modify index fun item =>
          { item with brokers := (brokerLines value).map postedText } }
  | readOnly index checked =>
      { c with clusters := c.clusters.modify index fun item => { item with readOnly := checked } }
  | security index input value =>
      { c with clusters := c.clusters.modify index fun item =>
          { item with security := input.put (postedText value) item.security } }
  | remove index => { c with clusters := c.clusters.eraseIdx index }
  | add => { c with clusters := c.clusters ++ [blankCluster] }
  | audit input value =>
      { c with audit := input.put ((safeInteger (typedNumber value)).getD 0) c.audit }
  | dashboard input value =>
      { c with dashboard := input.put ((safeInteger (typedNumber value)).getD 0) c.dashboard }

/-- The numbers that were typed are integers of 53 bits. -/
def Safe : SettingsEdit → Prop
  | audit _ value | dashboard _ value => (safeInteger (typedNumber value)).isSome
  | _ => True

/-- No id is changed, and a password that is typed is not left empty. -/
def KeepsSecrets : SettingsEdit → Prop
  | cluster _ .id _ => False
  | security _ .password value => postedText value ≠ ""
  | _ => True

end SettingsEdit

end KafkaManager.Web
