import KafkaManager.Api.Bodies
import KafkaManager.Web.Settings
import KafkaManager.Web.Urls

/-!
# The forms that change something (`TopicsPage`, `TopicWorkspace`, `MessagesPage`, `ConsumersPage`)

A form puts an object together from what was typed, and `api.post` and `api.put`
send what `JSON.stringify` makes of it. `value` is what was typed, as the server
has a request of the kind.
-/

namespace KafkaManager.Web

open Lib Api

/-- The mode that is selected. Only a position of one's own has an input. -/
inductive ResetMode
  | earliest
  | latest
  | absolute (offset : List Char)

namespace ResetMode

def name : ResetMode → List Char
  | earliest => "earliest".toList
  | latest => "latest".toList
  | absolute _ => "absolute".toList

/-- `Number(data.get('offset') || 0)` -/
def offset : ResetMode → JsNumber
  | earliest | latest => .ofRat 0
  | absolute offset => typedNumber offset

end ResetMode

/-- A number or a text is what was typed; the topic of a message may be the one
of the page. -/
inductive Form
  | createTopic (name : JsString) (partitions replication : List Char)
  | addPartitions (topic : String) (count : List Char)
  | alterConfig (topic : String) (name value : JsString)
  | produce (topic : JsString) (partition : List Char) (key value : JsString)
  | reset (group : String) (mode : ResetMode)

/-- An object, its properties by their names. -/
def object (properties : List (List Char × JsValue)) : JsValue :=
  .obj (properties.map fun p => (JsString.ofText p.1, p.2))

def typedInt (value : List Char) : Option Int := safeInteger (typedNumber value)

namespace Form

def call : Form → ApiCall
  | createTopic _ _ _ => .createTopic
  | addPartitions topic _ => .addPartitions topic
  | alterConfig topic _ _ => .alterTopicConfigs topic
  | produce _ _ _ _ => .sendMessage
  | reset group _ => .resetGroup group

/-- What is passed to `api.post` and `api.put`. -/
def content : Form → JsValue
  | createTopic name partitions replication =>
      object [("name".toList, .str name), ("partitions".toList, .num (typedNumber partitions)),
        ("replicationFactor".toList, .num (typedNumber replication))]
  | addPartitions _ count => object [("count".toList, .num (typedNumber count))]
  | alterConfig _ name value =>
      object [("configs".toList,
        .obj [(trimString name, if value = [] then .null else .str value)])]
  | produce topic partition key value =>
      object [("topic".toList, .str topic), ("partition".toList, .num (typedNumber partition)),
        ("key".toList, .str key), ("value".toList, .str value), ("headers".toList, .arr [])]
  | reset _ mode =>
      object [("mode".toList, .str (JsString.ofText mode.name)), ("offset".toList, .num mode.offset)]

def body (T : NumberText) (form : Form) : List UInt8 := utf8 (form.content.stringify T .compact)

/-- What the handler decodes the body into. -/
def kind : Form → Body
  | createTopic _ _ _ => .topic
  | addPartitions _ _ => .count
  | alterConfig _ _ _ => .topicConfigs
  | produce _ _ _ _ => .message
  | reset _ _ => .reset

def value : (form : Form) → form.kind.Value
  | createTopic name partitions replication =>
      ({ name := postedText name
         partitions := (typedInt partitions).getD 0
         replicationFactor := (typedInt replication).getD 0
         configs := ∅ } : Topic.CreateRequest)
  | addPartitions _ count => (typedInt count).getD 0
  | alterConfig _ name value =>
      ((∅ : GoMap String (Option String)).insert (postedText (trimString name))
        (if value = [] then none else some (postedText value)))
  | produce topic partition key value =>
      ({ topic := postedText topic
         partition := (typedInt partition).getD 0
         key := postedText key
         value := postedText value
         headers := [] } : Message.ProduceRequest)
  | reset _ mode =>
      ({ group := ""
         mode := String.ofList mode.name
         offset := (safeInteger mode.offset).getD 0
         timestamp := 0
         topics := [] } : Consumer.ResetRequest)

/-- A number that was typed is an integer of 53 bits, and of so many. -/
def Typed (bits : Nat) (value : List Char) : Prop :=
  ∃ n, typedInt value = some n ∧ fitsBits bits n = true

/-- The numbers that were typed are integers that their types have room for. -/
def Safe : Form → Prop
  | createTopic _ partitions replication => Typed 32 partitions ∧ Typed 16 replication
  | addPartitions _ count => (typedInt count).isSome
  | alterConfig _ _ _ => True
  | produce _ partition _ _ => Typed 32 partition
  | reset _ (.absolute offset) => (typedInt offset).isSome
  | reset _ _ => True

end Form

end KafkaManager.Web
