import KafkaManager.Auth.Session
import KafkaManager.Lib.Run

/-!
# Where a session comes from

A run creates tokens and is presented with texts. Whatever the text, what
`Verify` authenticates is its first part as it stands, and the claims are read
from there: if that was signed, it was signed by `Create`, and the claims are
the ones `Create` has written. How the signature is spelled does not matter.

That a signature cannot be forged is the condition on the texts of a run.
-/

namespace KafkaManager.Auth

open Lib

/-- What happened: a token was created, a text was accepted, another was not.
The duration is that of the manager. -/
inductive SessionMoment
  | created (ttl : Int) (username : String) (now : Instant)
  | accepted (username : String) (now : Instant)
  | rejected
deriving DecidableEq

/-- The newest moment is the first. -/
structure Sessions where
  clock : Instant
  log : List SessionMoment

inductive SessionAct
  | create (ttl : Int) (username : String) (now : Instant)
  | present (ttl : Int) (token : List Char) (now : Instant)

def SessionAct.now : SessionAct → Instant
  | .create _ _ now | .present _ _ now => now

/-- The text `Create` signs. -/
def signedText (ttl : Int) (username : String) (now : Instant) : List Char :=
  rawURLEncode (utf8 (SessionClaims.mk username (now.add ttl).unix).toJson.write)

def SessionMoment.signed : SessionMoment → Option (List Char)
  | .created ttl username now => some (signedText ttl username now)
  | .accepted .. | .rejected => none

section

variable (hmac : List UInt8 → List UInt8 → List UInt8) (key : List UInt8)

/-- Managers with one key. -/
def sessionStep (s : Sessions) : SessionAct → Sessions
  | .create ttl username now =>
      match (SessionManager.mk key ttl).create hmac now username with
      | .error _ => { s with clock := now }
      | .ok _ => { clock := now, log := .created ttl username now :: s.log }
  | .present ttl token now =>
      match (SessionManager.mk key ttl).verify hmac now token with
      | .error _ => { clock := now, log := .rejected :: s.log }
      | .ok username => { clock := now, log := .accepted username now :: s.log }

/-- The text has the signature of what has not been signed. -/
def forged (log : List SessionMoment) (token : List Char) : Bool :=
  match token.splitOn '.' with
  | [encoded, signed] =>
      rawURLDecode signed == some (hmac key (utf8 encoded)) &&
        !(log.filterMap SessionMoment.signed).contains encoded
  | _ => false

/-- The clock does not go back, and nobody presents a forged signature. -/
def unforged (s : Sessions) (a : SessionAct) : Bool :=
  !a.now.before s.clock &&
    match a with
    | .create .. => true
    | .present _ token _ => !forged hmac key s.log token

end

/-- Nothing has been created. -/
def Sessions.fresh (s : Sessions) : Prop := s.log = []

section

variable {hmac : List UInt8 → List UInt8 → List UInt8} {key : List UInt8}

/-- What is accepted is two parts, of which the second is a spelling of the
signature of the first, and the first one of claims that have not expired. -/
theorem verify_ok {m : SessionManager} {now : Instant} {token : List Char} {username : String}
    (h : m.verify hmac now token = .ok username) :
    ∃ encoded signed payload claims, token.splitOn '.' = [encoded, signed] ∧
      rawURLDecode signed = some (m.sign hmac encoded) ∧ rawURLDecode encoded = some payload ∧
      SessionClaims.ofPayload payload = some claims ∧ claims.username = username ∧
      now.before (.ofUnix claims.expiresAt) = true := by
  unfold SessionManager.verify at h
  split at h
  · next encoded signed hsplit =>
      split at h
      · cases h
      · next signature hsignature =>
          split at h
          · cases h
          · next hsame =>
              split at h
              · cases h
              · next payload hpayload =>
                  split at h
                  · cases h
                  · next claims hclaims =>
                      split at h
                      · cases h
                      · next hvalid =>
                          rw [not_or, Bool.not_eq_false] at hvalid
                          rw [ne_eq, not_not] at hsame
                          exact ⟨encoded, signed, payload, claims, hsplit, hsame ▸ hsignature,
                            hpayload, hclaims, Except.ok.inj h, hvalid.2⟩
  · cases h

/-- The claims are read back from what was signed, with the expiry of the
token that was created. -/
theorem claims_of_signedText {ttl : Int} {username : String} {now : Instant}
    {payload : List UInt8} {claims : SessionClaims}
    (hpayload : rawURLDecode (signedText ttl username now) = some payload)
    (hclaims : SessionClaims.ofPayload payload = some claims) :
    claims = ⟨username, (now.add ttl).unix⟩ := by
  rw [signedText, rawURLDecode_encode] at hpayload
  obtain rfl := Option.some.inj hpayload
  rw [SessionClaims.ofPayload_toJson (c := ⟨username, (now.add ttl).unix⟩) (bmod_fits _)] at hclaims
  exact (Option.some.inj hclaims).symm

/-- The user was logged in, and the token lasts at least until now. -/
def LoggedIn (log : List SessionMoment) (username : String) (now : Instant) : Prop :=
  ∃ ttl start, .created ttl username start ∈ log ∧ start.le now ∧ now.sec < (start.add ttl).sec

/-- What was created was created by now, and what was accepted was logged in
before. -/
structure SessionsInv (s : Sessions) : Prop where
  past : ∀ ttl username now, .created ttl username now ∈ s.log → now.le s.clock
  backed : ∀ later earlier username now, s.log = later ++ .accepted username now :: earlier →
    LoggedIn earlier username now

/-- A text that is not forged is accepted for somebody who was logged in. -/
theorem SessionsInv.loggedIn {s : Sessions} (hs : SessionsInv s) {ttl : Int} {token : List Char}
    {now : Instant} {username : String} (hclock : s.clock.le now)
    (hforged : forged hmac key s.log token = false)
    (h : (SessionManager.mk key ttl).verify hmac now token = .ok username) :
    LoggedIn s.log username now := by
  obtain ⟨encoded, signed, payload, claims, hsplit, hsignature, hpayload, hclaims, rfl, hvalid⟩ :=
    verify_ok h
  have hsign : (SessionManager.mk key ttl).sign hmac encoded = hmac key (utf8 encoded) := rfl
  rw [hsign] at hsignature
  have hmem : encoded ∈ s.log.filterMap SessionMoment.signed := by
    simpa [forged, hsplit, hsignature] using hforged
  obtain ⟨moment, hmoment, hsigned⟩ := List.mem_filterMap.1 hmem
  cases moment with
  | created ttl' username' start =>
      obtain rfl := Option.some.inj hsigned
      obtain rfl := claims_of_signedText hpayload hclaims
      exact ⟨ttl', start, hmoment, Instant.le_trans (hs.past _ _ _ hmoment) hclock,
        Instant.before_ofUnix_unix.1 hvalid⟩
  | accepted username' now' => cases hsigned
  | rejected => cases hsigned

/-- One more moment. -/
theorem SessionsInv.push {s : Sessions} (hs : SessionsInv s) {now : Instant}
    (hclock : s.clock.le now) {moment : SessionMoment}
    (hcreated : ∀ ttl username start, moment = .created ttl username start → start.le now)
    (haccepted : ∀ username at', moment = .accepted username at' → LoggedIn s.log username at') :
    SessionsInv { clock := now, log := moment :: s.log } where
  past ttl username start hmem := by
    rcases List.mem_cons.1 hmem with heq | hmem
    · exact hcreated ttl username start heq.symm
    · exact Instant.le_trans (hs.past _ _ _ hmem) hclock
  backed later earlier username at' hlog := by
    rcases List.cons_eq_append_iff.1 hlog with ⟨-, heq⟩ | ⟨later', -, hlog'⟩
    · obtain ⟨hmoment, hearlier⟩ := List.cons.inj heq
      rw [hearlier]
      exact haccepted username at' hmoment.symm
    · exact hs.backed later' earlier username at' hlog'

theorem SessionsInv.step {s : Sessions} {a : SessionAct} (hs : SessionsInv s)
    (ha : unforged hmac key s a = true) : SessionsInv (sessionStep hmac key s a) := by
  cases a with
  | create ttl username now =>
      have hclock : now.before s.clock = false := by simpa [unforged, SessionAct.now] using ha
      unfold sessionStep
      dsimp only
      split
      · exact ⟨fun _ _ _ hmem => Instant.le_trans (hs.past _ _ _ hmem) hclock, hs.backed⟩
      · refine hs.push hclock (fun ttl' username' start heq => ?_) (fun _ _ heq => by cases heq)
        obtain ⟨-, -, rfl⟩ := SessionMoment.created.inj heq
        exact now.le_refl
  | present ttl token now =>
      obtain ⟨hclock, hforged⟩ : now.before s.clock = false ∧
          forged hmac key s.log token = false := by
        simpa [unforged, SessionAct.now] using ha
      unfold sessionStep
      dsimp only
      split
      · exact hs.push hclock (fun _ _ _ heq => by cases heq) (fun _ _ heq => by cases heq)
      · next username hverify =>
          refine hs.push hclock (fun _ _ _ heq => by cases heq) (fun username' at' heq => ?_)
          obtain ⟨rfl, rfl⟩ := SessionMoment.accepted.inj heq
          exact hs.loggedIn hclock hforged hverify

end

/-- Whatever texts are presented: who is accepted was logged in before, and the
second in which the token expires has not come. -/
theorem accepted_loggedIn (hmac : List UInt8 → List UInt8 → List UInt8) (key : List UInt8)
    {s : Sessions} (h : Reach (sessionStep hmac key) (unforged hmac key) Sessions.fresh s)
    (later earlier : List SessionMoment) (username : String) (now : Instant)
    (hlog : s.log = later ++ .accepted username now :: earlier) :
    LoggedIn earlier username now := by
  have hs : SessionsInv s := by
    refine h.invariant (fun s hfresh => ?_) fun s a hs ha => hs.step ha
    rw [Sessions.fresh] at hfresh
    exact ⟨by simp [hfresh], by simp [hfresh]⟩
  exact hs.backed later earlier username now hlog

/-! ## One login -/

/-- a-secret-key-with-at-least-32-bytes -/
def secretKey : List UInt8 :=
  [97, 45, 115, 101, 99, 114, 101, 116, 45, 107, 101, 121, 45, 119, 105, 116, 104, 45, 97, 116, 45,
    108, 101, 97, 115, 116, 45, 51, 50, 45, 98, 121, 116, 101, 115]

/-- Ten o'clock on 13 July 2026, and half an hour later. -/
def morning : Instant := .ofUnix 1783936800

def halfPast : Instant := .ofUnix 1783938600

/-- The HMAC-SHA256 of the one text that is signed. -/
def oneSignature (key text : List UInt8) : List UInt8 :=
  if key = secretKey ∧ text = utf8 (signedText 3600000000000 "admin" morning) then
    [91, 26, 195, 244, 248, 11, 190, 67, 109, 244, 174, 94, 250, 86, 4, 239, 183, 156, 66, 146, 86,
      178, 169, 235, 77, 140, 200, 224, 134, 22, 58, 20]
  else []

/-- The token of the login, with line breaks in its signature. -/
def adminToken : List Char :=
  "eyJzdWIiOiJhZG1pbiIsImV4cCI6MTc4Mzk0MDQwMH0.WxrD9PgLvkNt9K5e\n-lYE77ecQpJWsqnrTYzI4IYWOhQ\n".toList

def oneLogin : List SessionAct :=
  [.create 3600000000000 "admin" morning, .present 3600000000000 adminToken halfPast]

theorem accepted_loggedIn_admin :
    (run (sessionStep oneSignature secretKey) { clock := morning, log := [] } oneLogin).log =
        [.accepted "admin" halfPast, .created 3600000000000 "admin" morning] ∧
      LoggedIn [.created 3600000000000 "admin" morning] "admin" halfPast := by
  have hlog : (run (sessionStep oneSignature secretKey) { clock := morning, log := [] }
      oneLogin).log = [.accepted "admin" halfPast, .created 3600000000000 "admin" morning] := by
    decide +kernel
  have hfresh : Sessions.fresh { clock := morning, log := [] } := rfl
  have hmeets : meets (sessionStep oneSignature secretKey) (unforged oneSignature secretKey)
      { clock := morning, log := [] } oneLogin = true := by decide +kernel
  exact ⟨hlog, accepted_loggedIn oneSignature secretKey
    ((Reach.init hfresh).run hmeets) [] _ _ _ hlog⟩

end KafkaManager.Auth
