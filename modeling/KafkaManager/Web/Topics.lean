import KafkaManager.Api.Topics

/-!
# Opening a topic (`App.tsx` and `topic-selection.ts`)

The server has no lookup of one topic by its name. `loadTopic` searches for the
name and picks the topic out of the first page of what is found.
-/

namespace KafkaManager.Web

open Api

def selectExactTopic (items : List Topic) (name : String) : Option Topic :=
  items.find? fun item => item.name == name

inductive LoadError
  | request
  | topicNotFound (name : String) -- 找不到 Topic：${name}
deriving DecidableEq, Repr

/-- The parameters of `?search=${encodeURIComponent(name)}&pageSize=200`. -/
def topicParams (name : String) : Params := fun key =>
  if key = "search" then name else if key = "pageSize" then "200" else ""

def loadTopic (get : Params → TopicsReply) (name : String) : Except LoadError Topic :=
  match get (topicParams name) with
  | .error .. | .panicked => .error .request
  | .page items .. =>
      match selectExactTopic items name with
      | none => .error (.topicNotFound name)
      | some found => .ok found

end KafkaManager.Web
