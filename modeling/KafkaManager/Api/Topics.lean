import KafkaManager.Api.Server
import KafkaManager.Kafka.TopicList

/-!
# The topics of a cluster (`Server.listTopics` in `internal/api/server.go`)

The handler reads the page from the URL, and puts the page it was asked for
beside the topics it answers with.
-/

namespace KafkaManager.Api

open Lib Topic

/-- `r.URL.Query().Get`: a parameter that is not there is empty. -/
abbrev Params : Type := String → String

def intQuery (params : Params) (name : String) (fallback : Int) : Int :=
  let value := trimSpace (params name)
  if value = "" then fallback else (parseInt value.toList).getD fallback

inductive TopicsReply
  | error (status : Nat) (code : String) (problem : Problem)
  | panicked
  | page (items : List Topic) (total : Nat) (page pageSize : Int)

section

variable (toLower : Char → Char) (sorter : Sorter nameLess)

/-- `Server.listTopics`, of what `kafka` and `Admin.List` give it. -/
def listTopics (lookup : Except Problem (Except Kafka.Error (List Topic)))
    (params : Params) : TopicsReply :=
  match lookup with
  | .error e => .error 503 "cluster_unavailable" e
  | .ok items =>
      let page := intQuery params "page" 1
      let size := intQuery params "pageSize" 50
      match list toLower sorter items (params "search") page size with
      | .failed e => .error 400 "kafka_error" (.topic (.kafka e))
      | .panicked => .panicked
      | .listed items total => .page items total page size

end

end KafkaManager.Api
