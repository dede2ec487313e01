import KafkaManager.Api.Config
import KafkaManager.Api.Routes
import KafkaManager.Lib.JsonStruct

/-!
# The bodies of requests (`decodeJSON` in `internal/api/server.go`)

What the handlers decode a body into, by its tags. A number has to fit the type
of its field, and of an object that goes into a map a later member replaces one
of the same key.
-/

namespace KafkaManager.Api

open Lib

/-- A signed number of so many bits. -/
def fitsBits (bits : Nat) (n : Int) : Bool := decide (-2 ^ (bits - 1) ≤ n ∧ n < 2 ^ (bits - 1))

section

variable {σ : Type}

end

/-- What a handler decodes the body of its request into. -/
def Handler.body : Handler → Option Body
  | .putConfig => some .config
  | .createTopic => some .topic
  | .addPartitions => some .count
  | .alterTopicConfigs => some .topicConfigs
  | .produceMessage => some .message
  | .resetConsumerGroup => some .reset
  | _ => none

open JsonField

section

variable {σ : Type} {name : String}

end

end KafkaManager.Api
