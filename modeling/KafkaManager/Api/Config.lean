import KafkaManager.Api.Server
import KafkaManager.Config.Json
import KafkaManager.Lib.Utf8

/-!
# The configuration over the API (`getConfig` and the body of `putConfig`)

What is in force is shown without its secrets. A body is read up to the end of
its first value, and no further than 11 MiB.
-/

namespace KafkaManager.Api

open Lib

def maskCluster (c : ClusterConfig) : ClusterConfig :=
  { c with security := { c.security with password := "" } }

/-- The copy that `getConfig` writes. -/
def maskConfig (cfg : Config) : Config :=
  { cfg with
    server := { cfg.server with passwordHash := "", password := "" }
    clusters := cfg.clusters.map maskCluster }

/-- The body of `getConfig`: `writeJSON` ends it with a newline. -/
def getConfig (cfg : Config) : List UInt8 := utf8 ((maskConfig cfg).toJson.write ++ ['\n'])

/-- The limit of `http.MaxBytesReader`. -/
def bodyLimit : Nat := 11 * 1024 * 1024

/-- `decodeJSON` into a configuration. What is after the value is not looked at. -/
def decodeConfig (body : List UInt8) : Option Config :=
  (Json.readFirst (runes (body.take bodyLimit))).bind fun found => Config.ofJson found.1

/-- Nothing that is a configuration is nested too deep. -/
theorem decodeConfig_eq (body : List UInt8) :
    decodeConfig body =
      (Json.readValue ((runes (body.take bodyLimit)).length + 1) (runes (body.take bodyLimit))).bind
        fun found => Config.ofJson found.1 :=
  Json.readFirst_bind (fun _ _ h => Nat.le_trans (Config.ofJson_depth h) (by decide)) _

end KafkaManager.Api
