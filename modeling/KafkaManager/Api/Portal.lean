import KafkaManager.Api.Auth

/-!
# The server with its login handler

`NewServer` makes the handler from the configuration it is given itself. From
then on they share nothing: requests, reloads and logins interleave freely.
-/

namespace KafkaManager.Api

open Lib Cluster Auth

structure Portal where
  server : ServerPool
  handler : AuthHandler
  auth : AuthPool

inductive PortalEvent
  | server (e : ServerEvent)
  | auth (e : AuthEvent)

section

variable (idKey : IDKey) (hmac : List UInt8 → List UInt8 → List UInt8) (d : Setting)

def Portal.step (p : Portal) : PortalEvent → Portal
  | .server e => { p with server := (Api.server d).step p.server e }
  | .auth e => { p with auth := (authServer idKey hmac p.handler).step p.auth e }

/-- `NewServer`, the session key being the secret. -/
def Portal.new (cfg : Config) (pool : Sys) (file : List Char) (clock : Int) : Portal where
  server := started d cfg pool file
  handler := newAuthHandler cfg d.secret
  auth := newAuthPool clock

end

end KafkaManager.Api
