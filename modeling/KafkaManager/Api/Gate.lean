import KafkaManager.Lib.HttpCookie
import KafkaManager.Api.Auth
import KafkaManager.Api.Routes

/-!
# The entrance (`NewServer`, `internal/auth/middleware.go`, `me` and `logout`)

`NewServer` registers four endpoints for everybody. What is left of `/api/v1/`
goes through `Middleware`, to a mux that has the handlers.

`Entrance` is the server up to there, with the logins that are at work. A
request that arrives is sent to its place at once, and a login is a thread.
`clock` and `log` are not in the source. The clock is the time that was read
last, the log says what was decided, the newest first.
-/

namespace KafkaManager.Api

open Lib Auth

/-- What decides where a request goes. The path is given between its slashes,
the cookies are the lines of `Cookie`. -/
structure HttpRequest where
  method : String
  segments : List (List Char)
  cookies : List (List Char)
deriving DecidableEq

/-! ## Endpoints -/

inductive Endpoint
  | health
  | login
  | logout
  | me
deriving DecidableEq

def Endpoint.pattern : Endpoint → Pattern
  | .health => ⟨"GET", ofApi [.lit "health"]⟩
  | .login => ⟨"POST", ofApi [.lit "auth", .lit "login"]⟩
  | .logout => ⟨"POST", ofApi [.lit "auth", .lit "logout"]⟩
  | .me => ⟨"GET", ofApi [.lit "auth", .lit "me"]⟩

def endpointRoutes : List (Pattern × Endpoint) :=
  [.health, .login, .logout, .me].map fun e : Endpoint => (e.pattern, e)

/-- Where a request is sent: to an endpoint, through the middleware to a handler
or to none of them, or nowhere. -/
inductive Destination
  | endpoint (e : Endpoint)
  | gated (target : Option (Handler × PathValues))
  | nowhere

/-- `/api/v1/` and something after it. -/
def underApi (segments : List (List Char)) : Bool :=
  segments.all (fun s => (unescape s).isSome) && isClean segments &&
    match segments.map segmentValue with
    | api :: v1 :: _ :: _ => api == utf8 "api".toList && v1 == utf8 "v1".toList
    | _ => false

def destination (r : HttpRequest) : Destination :=
  match route endpointRoutes r.method r.segments with
  | some (e, _) => .endpoint e
  | none =>
      if underApi r.segments then .gated (route protectedRoutes r.method r.segments)
      else .nowhere

section

variable (hmac : List UInt8 → List UInt8 → List UInt8)

/-- `Middleware`: the name of the user, unless it answers `unauthorized`. -/
def middleware (m : SessionManager) (now : Instant) (r : HttpRequest) : Option String :=
  match readCookie sessionCookieName.toList r.cookies with
  | none => none
  | some value =>
      match m.verify hmac now value with
      | .error _ => none
      | .ok username => some username

/-- What `me` answers: the name, or a status, a code and a message. -/
inductive MeReply
  | user (username : String)
  | error (status : Nat) (code message : String)
deriving DecidableEq

def AuthHandler.me (h : AuthHandler) (now : Instant) (r : HttpRequest) : MeReply :=
  match readCookie sessionCookieName.toList r.cookies with
  | none => .error 401 "unauthorized" "请先登录"
  | some value =>
      match h.sessions.verify hmac now value with
      | .error _ => .error 401 "unauthorized" "登录会话已失效"
      | .ok username => .user username

end

/-- The cookie of a login as `http.SetCookie` is given it. -/
def Cookie.http (c : Cookie) : SetCookie where
  name := c.name.toList
  value := c.value
  path := c.path.toList
  expires := []
  maxAge := 0
  httpOnly := c.httpOnly
  secure := c.secure
  sameSiteStrict := c.sameSiteStrict

/-- The cookie `logout` sets. -/
def logoutCookie : SetCookie where
  name := sessionCookieName.toList
  value := []
  path := "/".toList
  expires := "Thu, 01 Jan 1970 00:00:01 GMT".toList
  maxAge := -1
  httpOnly := true
  secure := false
  sameSiteStrict := true

/-! ## The entrance -/

deriving instance DecidableEq for Cookie, Credentials

/-- The credentials of a login were compared and are right, a login was answered
with a cookie, a request got through the middleware, or it did not. -/
inductive GateMoment
  | checked (t : Nat) (c : Credentials)
  | granted (t : Nat) (cookie : Cookie) (now : Instant)
  | admitted (target : Option (Handler × PathValues)) (username : String) (now : Instant)
  | refused
deriving DecidableEq

structure Entrance where
  handler : AuthHandler
  gate : SessionManager
  auth : AuthPool
  clock : Instant
  log : List GateMoment

/-- A request arrives, from that address, or a login goes on, or time
passes. -/
inductive EntranceEvent
  | arrive (r : HttpRequest) (source : LoginRequest) (now : Instant)
  | login (t : Nat) (o : Oracle AuthCmd AuthCmd.Answer)
  | wait (d : Nat)

/-- What the turn of a login decides. -/
def AuthHandler.decides (h : AuthHandler) (idKey : IDKey) (t : Nat)
    (o : Oracle AuthCmd AuthCmd.Answer) : AuthProg LoginReply → List GateMoment
  | .cmd (.check _ c) _ => if h.check idKey c = some true then [.checked t c] else []
  | .cmd .wallClock k =>
      match o .wallClock with
      | none => []
      | some now =>
          match k now with
          | .ret (.done _ cookie) => [.granted t cookie now]
          | _ => []
  | _ => []

namespace Entrance

/-- `NewServer` -/
def new (cfg : Config) (sessionKey : List UInt8) (monotonic : Int) (now : Instant) : Entrance where
  handler := newAuthHandler cfg sessionKey
  gate := newSessionManager cfg sessionKey
  auth := newAuthPool monotonic
  clock := now
  log := []

section

variable (idKey : IDKey) (hmac : List UInt8 → List UInt8 → List UInt8) (s : Entrance)

def arrive (r : HttpRequest) (source : LoginRequest) (now : Instant) : Entrance :=
  match destination r with
  | .endpoint .login =>
      { s with auth := (authServer idKey hmac s.handler).step s.auth (.spawn source), clock := now }
  | .endpoint _ | .nowhere => { s with clock := now }
  | .gated target =>
      match middleware hmac s.gate now r with
      | none => { s with clock := now, log := .refused :: s.log }
      | some username => { s with clock := now, log := .admitted target username now :: s.log }

def step : EntranceEvent → Entrance
  | .arrive r source now => s.arrive idKey hmac r source now
  | .login t o =>
      { s with
        auth := (authServer idKey hmac s.handler).step s.auth (.thread t o)
        clock := (o .wallClock).getD s.clock
        log := (s.auth.threads[t]?).elim [] (s.handler.decides idKey t o) ++ s.log }
  | .wait d => { s with auth := (authServer idKey hmac s.handler).step s.auth (.env d) }

end

end Entrance

end KafkaManager.Api
