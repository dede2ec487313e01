import KafkaManager.Api.Gate
import KafkaManager.Proofs.SessionOrigin
import KafkaManager.Proofs.Sessions

/-!
# A browser's session

The token goes from the login through `Set-Cookie` into the jar of the browser,
and through `Cookie` back to the middleware and to `me`. Whatever other cookies
there are, what both make of a request is decided by the last login of the
browser that was granted, if it has not logged out since.
-/

namespace KafkaManager.Api

open Lib Auth

/-- The `Set-Cookie` of a reply. -/
def LoginReply.line : LoginReply → Option (List Char)
  | .done _ cookie => some cookie.http.text
  | .error .. | .aborted => none

/-- `session` is not in the source: it says when the login that was granted last
was, unless the browser has logged out since. -/
structure Browser where
  jar : Jar
  session : Option Instant

/-- The credentials of a login were right, there was a logout, or somebody else
sets a cookie. -/
inductive BrowserEvent
  | login (tls : Bool) (now : Instant)
  | logout
  | other (line : List Char)

/-- The cookie has another name. -/
def BrowserEvent.apart : BrowserEvent → Prop
  | .other line => ∀ found, readSetCookie line = some found → found.1 ≠ sessionCookieName.toList
  | .login .. | .logout => True

section

variable (hmac : List UInt8 → List UInt8 → List UInt8) (h : AuthHandler)

def Browser.step (b : Browser) : BrowserEvent → Browser
  | .login tls now =>
      match (sessionReply tls (h.sessions.create hmac now h.username)).line with
      | none => b
      | some line => { jar := b.jar.receive line, session := some now }
  | .logout => { jar := b.jar.receive logoutCookie.text, session := none }
  | .other line => { b with jar := b.jar.receive line }

/-- The cookie of the session is the one of the login. -/
structure Browser.Kept (b : Browser) : Prop where
  ok : b.jar.Ok
  value : match b.session with
    | none => b.jar.value sessionCookieName.toList = none
    | some since => ∃ token, h.sessions.create hmac since h.username = .ok token ∧
        b.jar.value sessionCookieName.toList = some token

end

section

variable {hmac : List UInt8 → List UInt8 → List UInt8} {h : AuthHandler} {b : Browser}

theorem urlChar_plain {n : Nat} (hn : n < 64) :
    isCookieChar (urlChar n) = true ∧ urlChar n ≠ ' ' ∧ urlChar n ≠ ',' := by
  have hall : ∀ m < 64, isCookieChar (urlChar m) = true ∧ urlChar m ≠ ' ' ∧ urlChar m ≠ ',' := by
    decide
  exact hall n hn

theorem Cookie.http_name (c : Cookie) : c.http.name = c.name.toList := by
  rw [Cookie.http]

theorem sessionCookie_token : isToken sessionCookieName.toList = true := by decide

/-- A token is written as it is. -/
theorem create_plain {m : SessionManager} {now : Instant} {username : String} {token : List Char}
    (h : m.create hmac now username = .ok token) (tls : Bool) :
    (Cookie.http ⟨sessionCookieName, token, "/", true, tls, true⟩).Plain := by
  refine ⟨by rw [Cookie.http_name]; exact sessionCookie_token, ?_⟩
  show ∀ c ∈ token, isCookieChar c = true ∧ c ≠ ' ' ∧ c ≠ ','
  have hencoded : ∀ bytes, ∀ c ∈ rawURLEncode bytes, isCookieChar c = true ∧ c ≠ ' ' ∧ c ≠ ',' := by
    intro bytes c hc
    obtain ⟨n, hn, rfl⟩ := List.mem_map.1 hc
    exact urlChar_plain (quantaDigits_lt bytes n hn)
  unfold SessionManager.create at h
  split at h
  · cases h
  · obtain rfl := Except.ok.inj h
    intro c hc
    rcases List.mem_append.1 hc with hc | hc
    · exact hencoded _ c hc
    · rcases List.mem_cons.1 hc with rfl | hc
      · decide
      · exact hencoded _ c hc

theorem Browser.Kept.step (hb : b.Kept hmac h) {e : BrowserEvent} (he : e.apart) :
    (b.step hmac h e).Kept hmac h := by
  cases e with
  | other line =>
      refine ⟨hb.ok.receive line, ?_⟩
      have hvalue : (b.jar.receive line).value sessionCookieName.toList =
          b.jar.value sessionCookieName.toList := by
        rw [Jar.value_receive]
        cases hread : readSetCookie line with
        | none => rfl
        | some found => exact if_neg (he found hread)
      show match b.session with
        | none => (b.jar.receive line).value sessionCookieName.toList = none
        | some since => ∃ token, h.sessions.create hmac since h.username = .ok token ∧
            (b.jar.receive line).value sessionCookieName.toList = some token
      rw [hvalue]
      exact hb.value
  | logout =>
      refine ⟨hb.ok.receive logoutCookie.text, ?_⟩
      show (b.jar.receive logoutCookie.text).value sessionCookieName.toList = none
      rw [Jar.value_receive, SetCookie.readSetCookie_text (c := logoutCookie)
        ⟨by decide, fun _ hc => nomatch hc⟩ (by decide) (by decide)]
      rfl
  | login tls now =>
      unfold Browser.step
      dsimp only
      cases htoken : h.sessions.create hmac now h.username with
      | error e => exact hb
      | ok token =>
          have hplain := create_plain htoken tls
          have hread : readSetCookie (Cookie.http ⟨sessionCookieName, token, "/", true, tls, true⟩).text =
              some (sessionCookieName.toList, token, false) := by
            rw [SetCookie.readSetCookie_text hplain (Int.le_refl 0) List.not_mem_nil, Cookie.http_name]
            rfl
          refine ⟨hb.ok.receive _, token, htoken, ?_⟩
          show (b.jar.receive (Cookie.http ⟨sessionCookieName, token, "/", true, tls, true⟩).text).value
            sessionCookieName.toList = some token
          rw [Jar.value_receive, hread]
          exact (if_pos rfl).trans (if_neg Bool.false_ne_true)

/-- What the server reads of the cookies of a browser. -/
theorem Browser.Kept.read (hb : b.Kept hmac h) :
    match b.session with
    | none => readCookie sessionCookieName.toList b.jar.header = none
    | some since => ∃ token, h.sessions.create hmac since h.username = .ok token ∧
        readCookie sessionCookieName.toList b.jar.header = some token := by
  have hvalue := hb.value
  rw [readCookie_header hb.ok sessionCookie_token]
  cases hsession : b.session with
  | none =>
      rw [hsession] at hvalue
      rw [hvalue]
      rfl
  | some since =>
      rw [hsession] at hvalue
      obtain ⟨token, htoken, hkept⟩ := hvalue
      refine ⟨token, htoken, ?_⟩
      rw [hkept, Option.bind_some]
      exact SetCookie.parseCookieValue_plain (create_plain htoken false)

/-- Whom the last login lets in at this time. -/
def Browser.user (h : AuthHandler) (b : Browser) (now : Instant) : Option String :=
  b.session.bind fun since =>
    if now.sec < (since.add h.sessions.ttl).sec then some h.username else none

theorem verify_session {m : SessionManager} {since now : Instant} {username : String}
    {token : List Char} (hname : username ≠ "") (h : m.create hmac since username = .ok token) :
    m.verify hmac now token =
      if now.sec < (since.add m.ttl).sec then .ok username else .error .expired := by
  have hbefore : now.before (.ofUnix (m.expiry since)) = true ↔ now.sec < (since.add m.ttl).sec :=
    Instant.before_ofUnix_unix
  rw [SessionManager.verify_create rfl h]
  by_cases hlasts : now.sec < (since.add m.ttl).sec
  · rw [if_pos hlasts, if_neg (by simp [hname, hbefore.2 hlasts])]
  · have hfalse : now.before (.ofUnix (m.expiry since)) = false := by
      rw [← Bool.not_eq_true, hbefore]
      exact hlasts
    rw [if_neg hlasts, if_pos (.inr hfalse)]

end

/-- Whatever a browser goes through, at any later time the middleware lets it in
and `me` has its name if the login that was granted last has hours left, unless
it has logged out since. -/
theorem session_kept (hmac : List UInt8 → List UInt8 → List UInt8) (cfg : Config)
    (key : List UInt8) (hname : cfg.server.username ≠ "") (es : List BrowserEvent)
    (hes : ∀ e ∈ es, e.apart) (now : Instant) (r : HttpRequest) :
    let h := newAuthHandler cfg key
    let b := run (Browser.step hmac h) { jar := [], session := none } es
    r.cookies = b.jar.header →
      middleware hmac (newSessionManager cfg key) now r = b.user h now ∧
        h.me hmac now r =
          match b.session, b.user h now with
          | none, _ => .error 401 "unauthorized" "请先登录"
          | some _, none => .error 401 "unauthorized" "登录会话已失效"
          | some _, some username => .user username := by
  intro h b hcookies
  have hb : b.Kept hmac h :=
    run_invariant_of (P := Browser.Kept hmac h) (A := BrowserEvent.apart)
      (fun _ _ he hb => hb.step he) ⟨Jar.ok_nil, rfl⟩ hes
  have hread := hb.read
  cases hsession : b.session with
  | none =>
      rw [hsession] at hread
      simp [middleware, AuthHandler.me, hcookies, hread, Browser.user, hsession]
  | some since =>
      rw [hsession] at hread
      obtain ⟨token, htoken, hread⟩ := hread
      have hverify : h.sessions.verify hmac now token =
          if now.sec < (since.add h.sessions.ttl).sec then .ok h.username
          else .error .expired := verify_session hname htoken
      have hgate : (newSessionManager cfg key).verify hmac now token =
          if now.sec < (since.add h.sessions.ttl).sec then .ok h.username
          else .error .expired := hverify
      have huser : b.user h now =
          if now.sec < (since.add h.sessions.ttl).sec then some h.username else none := by
        rw [Browser.user, hsession, Option.bind_some]
      simp only [middleware, AuthHandler.me, hcookies, hread, hgate, hverify, huser]
      by_cases hlasts : now.sec < (since.add h.sessions.ttl).sec
      · simp only [if_pos hlasts]
        exact ⟨trivial, trivial⟩
      · simp only [if_neg hlasts]
        exact ⟨trivial, trivial⟩

/-! A login in the morning, with another cookie set before and one after. -/

def morningBrowser : List BrowserEvent :=
  [.other "theme=dark; Path=/".toList, .login false morning, .other "lang=zh".toList]

theorem session_kept_morning :
    let b := run (Browser.step oneSignature (newAuthHandler (hoursConfig 1) secretKey))
      { jar := [], session := none } morningBrowser
    b.session = some morning ∧
      ∀ r : HttpRequest, r.cookies = b.jar.header →
        middleware oneSignature (newSessionManager (hoursConfig 1) secretKey) halfPast r =
          some "admin" := by
  intro b
  have hsession : b.session = some morning := by decide +kernel
  refine ⟨hsession, fun r hcookies => ?_⟩
  have htheme : readSetCookie "theme=dark; Path=/".toList =
      some ("theme".toList, "dark".toList, false) := by decide +kernel
  have hlang : readSetCookie "lang=zh".toList = some ("lang".toList, "zh".toList, false) := by
    decide +kernel
  have hes : ∀ e ∈ morningBrowser, e.apart := by
    simp only [morningBrowser, List.forall_mem_cons, BrowserEvent.apart, htheme, hlang]
    exact ⟨fun _ h => by obtain rfl := Option.some.inj h; decide, trivial,
      fun _ h => by obtain rfl := Option.some.inj h; decide, fun _ h => nomatch h⟩
  have hkept := (session_kept oneSignature (hoursConfig 1) secretKey (by decide) morningBrowser hes
    halfPast r hcookies).1
  rw [hkept]
  show (b.session.bind _) = _
  rw [hsession]
  decide +kernel

end KafkaManager.Api
