import KafkaManager.Auth.Password
import KafkaManager.Auth.Session
import KafkaManager.Api.Handlers

/-!
# Logging in (`AuthHandler` in `internal/api/auth.go`)

A login request is a program over the commands of this file: a reading of a
clock, a call of the limiter, which is a critical section, the decoding of the
body, the comparison of the credentials. The credentials and the sessions of a
handler are what `NewAuthHandler` is given; only the failures change.

The readings of `time.Now()` the limiter compares are monotonic, in
nanoseconds. `AuthState` has some fields the source does not have: `attempts`
are the requests between the limiter and the end of their work, `failed` the
checks that failed and when, `recorded` the readings failures were recorded
with, `opened` the first failures since the last success.
-/

namespace KafkaManager.Api

open Lib Auth

def sessionCookieName : String := "kafka_manager_session"

/-- What `NewAuthHandler` is given. -/
structure AuthHandler where
  username : String
  password : String
  hash : String
  sessions : SessionManager

structure LoginFailures where
  count : Int
  firstAt : Int

structure Credentials where
  username : String
  password : String

structure Cookie where
  name : String
  value : List Char
  path : String
  httpOnly : Bool
  secure : Bool
  sameSiteStrict : Bool

/-- What a login is answered. A handler that panics does not answer. -/
inductive LoginReply
  | done (status : Nat) (cookie : Cookie)
  | error (status : Nat) (code message : String)
  | aborted

/-- The user is logged in. -/
def LoginReply.granted : LoginReply → Bool
  | .done .. => true
  | .error .. | .aborted => false

/-! ## Who asks -/

/-- What is after the last colon, and what is before it. -/
def lastColon (s : List Char) : Option (List Char × List Char) :=
  let port := (s.reverse.takeWhile fun c => c != ':').reverse
  if port.length = s.length then none
  else some (s.take (s.length - port.length - 1), port)

/-- The host `net.SplitHostPort` finds, if it does. -/
def splitHost (s : List Char) : Option (List Char) :=
  match lastColon s with
  | none => none
  | some (before, port) =>
      match before with
      | '[' :: inner =>
          let host := inner.takeWhile fun c => c != ']'
          -- the first `]` has to be the last character before the colon
          if host.length + 1 ≠ inner.length ∨ host.contains '[' ∨ port.contains '['
              ∨ port.contains ']' then none
          else some host
      | host =>
          if host.contains ':' ∨ s.contains '[' ∨ s.contains ']' then none else some host

def clientHost (remoteAddress : String) : String :=
  match splitHost remoteAddress.toList with
  | some host => String.ofList host
  | none => remoteAddress

/-! ## The limiter -/

/-- `5*time.Minute` -/
def failureWindow : Int := 300000000000

abbrev Failures : Type := GoMap String LoginFailures

def rateLimited (failures : Failures) (client : String) (now : Int) : Bool × Failures :=
  match failures[client]? with
  | none => (false, failures)
  | some failure =>
      if now - failure.firstAt ≥ failureWindow then (false, failures.erase client)
      else (decide (failure.count ≥ 5), failures)

/-- There is no failure to count on. -/
def opens (failures : Failures) (client : String) (now : Int) : Bool :=
  match failures[client]? with
  | none => true
  | some failure => decide (now - failure.firstAt ≥ failureWindow)

def recordFailure (failures : Failures) (client : String) (now : Int) : Failures :=
  match failures[client]? with
  | none => failures.insert client ⟨1, now⟩
  | some failure =>
      if now - failure.firstAt ≥ failureWindow then failures.insert client ⟨1, now⟩
      else failures.insert client { failure with count := failure.count + 1 }

def clearFailures (failures : Failures) (client : String) : Failures := failures.erase client

/-! ## State -/

/-- A request that may go on to check a password, or has. -/
structure Attempt where
  thread : Nat
  client : String
  failedAt : Option Int
deriving DecidableEq

structure AuthState where
  failures : Failures
  clock : Int
  attempts : List Attempt
  failed : List (String × Int)
  recorded : List (String × Int)
  opened : List (String × Int)

namespace AuthState

def begin (s : AuthState) (t : Nat) (client : String) : AuthState :=
  { s with attempts := ⟨t, client, none⟩ :: s.attempts }

def finish (s : AuthState) (t : Nat) : AuthState :=
  { s with attempts := s.attempts.eraseP fun a => a.thread == t }

def fail (s : AuthState) (t : Nat) (client : String) : AuthState :=
  { s with
    attempts := ⟨t, client, some s.clock⟩ :: s.attempts.eraseP fun a => a.thread == t
    failed := (client, s.clock) :: s.failed }

def setFailures (s : AuthState) (failures : Failures) : AuthState := { s with failures := failures }

def record (s : AuthState) (client : String) (now : Int) : AuthState :=
  { s with
    failures := recordFailure s.failures client now
    recorded := (client, now) :: s.recorded
    opened := if opens s.failures client now then (client, now) :: s.opened else s.opened }

/-- A success. What is open is forgotten. -/
def clear (s : AuthState) (client : String) : AuthState :=
  { s with
    failures := clearFailures s.failures client
    opened := s.opened.filter fun w => w.1 != client || w.2 + failureWindow ≤ s.clock }

def wait (s : AuthState) (d : Nat) : AuthState := { s with clock := s.clock + d }

end AuthState

/-! ## Commands -/

inductive AuthCmd
  | now
  | wallClock
  | rateLimited (client : String) (now : Int)
  | decode
  | check (client : String) (credentials : Credentials)
  | recordFailure (client : String) (now : Int)
  | clearFailures (client : String)

/-- `check` answers whether the credentials are right, nothing if it panics. -/
abbrev AuthCmd.Answer : AuthCmd → Type
  | .now => Int
  | .wallClock => Instant
  | .rateLimited .. => Bool
  | .decode => Option Credentials
  | .check .. => Option Bool
  | .recordFailure .. | .clearFailures _ => Unit

abbrev AuthProg (α : Type) : Type := Prog AuthCmd AuthCmd.Answer α

abbrev AuthCmd.perform (c : AuthCmd) : AuthProg c.Answer := Prog.call c

section

variable (idKey : IDKey) (hmac : List UInt8 → List UInt8 → List UInt8) (h : AuthHandler)

/-- The comparison of `login`. -/
def AuthHandler.check (c : Credentials) : Option Bool := do
  let passwordOK ←
    if h.password = "" then verifyPassword idKey h.hash c.password
    else some (h.password == c.password)
  some (c.username == h.username && passwordOK)

def AuthCmd.exec (t : Nat) :
    (c : AuthCmd) → Oracle AuthCmd AuthCmd.Answer → AuthState → Option (c.Answer × AuthState)
  | .now, _, s => some (s.clock, s)
  | .wallClock, o, s => (o .wallClock).map fun r => (r, s)
  | .rateLimited client reading, _, s =>
      let (limited, failures) := Api.rateLimited s.failures client reading
      some (limited, if limited then s else (s.setFailures failures).begin t client)
  | .decode, o, s =>
      (o .decode).map fun r => (r, if r.isNone then s.finish t else s)
  | .check client credentials, _, s =>
      match h.check idKey credentials with
      | none => some (none, s.finish t)
      | some true => some (some true, s)
      | some false => some (some false, s.fail t client)
  | .recordFailure client reading, _, s => some ((), (s.record client reading).finish t)
  | .clearFailures client, _, s => some ((), (s.clear client).finish t)

def invalidCredentials : LoginReply := .error 401 "invalid_credentials" "用户名或密码错误"

def tooManyAttempts : LoginReply := .error 429 "too_many_attempts" "登录失败次数过多，请稍后重试"

/-- The answer to a request whose credentials are right. -/
def sessionReply (tls : Bool) : Except SessionError (List Char) → LoginReply
  | .error _ => .error 500 "session_error" "无法创建登录会话"
  | .ok token => .done 204 ⟨sessionCookieName, token, "/", true, tls, true⟩

/-- `login` from the comparison on. -/
def finishLogin (tls : Bool) (client : String) : Option Bool → AuthProg LoginReply
  | none => pure .aborted
  | some false => do
      let now ← AuthCmd.perform .now
      AuthCmd.perform (.recordFailure client now)
      pure invalidCredentials
  | some true => do
      AuthCmd.perform (.clearFailures client)
      let now ← AuthCmd.perform .wallClock
      pure (sessionReply tls (h.sessions.create hmac now h.username))

/-- A request from this address, over TLS or not. -/
structure LoginRequest where
  remoteAddress : String
  tls : Bool

def login (r : LoginRequest) : AuthProg LoginReply := do
  let client := clientHost r.remoteAddress
  let now ← AuthCmd.perform .now
  if ← AuthCmd.perform (.rateLimited client now) then pure tooManyAttempts
  else
    match ← AuthCmd.perform .decode with
    | none => pure (.error 400 "invalid_request" "登录请求格式不正确")
    | some credentials =>
        let ok ← AuthCmd.perform (.check client credentials)
        finishLogin hmac h r.tls client ok

/-- Requests at work; the surroundings let time pass. -/
def authServer : Machine AuthCmd AuthCmd.Answer LoginReply AuthState Nat LoginRequest where
  exec := AuthCmd.exec idKey h
  env d s := s.wait d
  prog := login hmac h

abbrev AuthPool : Type := Pool AuthCmd AuthCmd.Answer LoginReply AuthState

abbrev AuthEvent : Type := Event AuthCmd AuthCmd.Answer Nat LoginRequest

/-- `NewAuthHandler`, by a clock that shows this. -/
def newAuthPool (clock : Int) : AuthPool where
  shared :=
    { failures := ∅, clock := clock, attempts := [], failed := [], recorded := [], opened := [] }
  threads := []

end

/-- The session manager `NewServer` makes, twice. -/
def newSessionManager (cfg : Config) (sessionKey : List UInt8) : SessionManager :=
  ⟨sessionKey, hoursDuration cfg.server.sessionHours⟩

/-- The handler `NewServer` makes. -/
def newAuthHandler (cfg : Config) (sessionKey : List UInt8) : AuthHandler where
  username := cfg.server.username
  password := cfg.server.password
  hash := cfg.server.passwordHash
  sessions := newSessionManager cfg sessionKey

end KafkaManager.Api
