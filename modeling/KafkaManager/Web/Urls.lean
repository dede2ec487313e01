import KafkaManager.Api.Routes

/-!
# The URLs of the pages

`App`, `TopicsPage`, `TopicWorkspace`, `MessagesPage` and `ConsumersPage` put a
URL together for each of their requests. The names of topics and groups go
through `encodeURIComponent`, the id of the cluster does not.
-/

namespace KafkaManager.Web

open Lib Api

/-- A request of a page about the cluster that is selected. The query of a
search for messages is what `URLSearchParams` makes of it. -/
inductive ApiCall
  | listTopics (search : String)
  | createTopic
  | deleteTopic (topic : String)
  | addPartitions (topic : String)
  | listTopicConfigs (topic : String)
  | alterTopicConfigs (topic : String)
  | queryMessages (query : String)
  | streamMessages (query : String)
  | sendMessage
  | listGroups
  | resetGroup (group : String)

namespace ApiCall

/-- What comes after `/api/v1/clusters/${clusterId}`. -/
def suffix : ApiCall → List Char
  | .listTopics search =>
      '/' :: ("topics".toList ++
        '?' :: ("search=".toList ++ encodeURIComponent search ++ "&pageSize=200".toList))
  | .createTopic => '/' :: "topics".toList
  | .deleteTopic topic => '/' :: ("topics".toList ++ '/' :: encodeURIComponent topic)
  | .addPartitions topic =>
      '/' :: ("topics".toList ++ '/' :: (encodeURIComponent topic ++ '/' :: "partitions".toList))
  | .listTopicConfigs topic | .alterTopicConfigs topic =>
      '/' :: ("topics".toList ++ '/' :: (encodeURIComponent topic ++ '/' :: "configs".toList))
  | .queryMessages query => '/' :: ("messages".toList ++ '?' :: query.toList)
  | .streamMessages query =>
      '/' :: ("messages".toList ++ '/' :: ("stream".toList ++ '?' :: query.toList))
  | .sendMessage => '/' :: "messages".toList
  | .listGroups => '/' :: "consumer-groups".toList
  | .resetGroup group =>
      '/' :: ("consumer-groups".toList ++ '/' :: (encodeURIComponent group ++ '/' :: "reset".toList))

def method : ApiCall → String
  | .listTopics _ | .listTopicConfigs _ | .queryMessages _ | .streamMessages _ | .listGroups =>
      "GET"
  | .createTopic | .addPartitions _ | .sendMessage | .resetGroup _ => "POST"
  | .deleteTopic _ => "DELETE"
  | .alterTopicConfigs _ => "PUT"

/-- The handler it is for. -/
def handler : ApiCall → Handler
  | .listTopics _ => .listTopics
  | .createTopic => .createTopic
  | .deleteTopic _ => .deleteTopic
  | .addPartitions _ => .addPartitions
  | .listTopicConfigs _ => .listTopicConfigs
  | .alterTopicConfigs _ => .alterTopicConfigs
  | .queryMessages _ => .listMessages
  | .streamMessages _ => .streamMessages
  | .sendMessage => .produceMessage
  | .listGroups => .listConsumerGroups
  | .resetGroup _ => .resetConsumerGroup

/-- The topic or the group it is about, as the handler knows it. -/
def subject : ApiCall → Option (String × String)
  | .deleteTopic topic | .addPartitions topic | .listTopicConfigs topic
  | .alterTopicConfigs topic => some ("topic", topic)
  | .resetGroup group => some ("group", group)
  | .listTopics _ | .createTopic | .queryMessages _ | .streamMessages _ | .sendMessage
  | .listGroups => none

/-- What the handler is to read from the path. -/
def values (clusterId : String) (call : ApiCall) : PathValues :=
  ("cluster", utf8 clusterId.toList) ::
    call.subject.toList.map fun (name, value) => (name, utf8 value.toList)

end ApiCall

end KafkaManager.Web
