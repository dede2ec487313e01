import KafkaManager.Api.Gate
import KafkaManager.Proofs.Login
import KafkaManager.Proofs.SessionOrigin
import KafkaManager.Proofs.Sessions

/-!
# Who gets in

The managers of sessions see of the entrance the logins that were granted and
the requests that were admitted, and for them it is one of their runs. So
whoever is admitted was granted a login before, and the session lasts still.

What grants a login is the thread it is: up to the comparison of the
credentials it has no way to a token (`Waits`), and behind it the credentials
were right. `Stage` says where a thread is.
-/

namespace KafkaManager.Api

open Lib Auth

/-- What a moment is for the managers of sessions. -/
def GateMoment.session (ttl : Int) (username : String) : GateMoment → Option SessionMoment
  | .granted _ _ now => some (.created ttl username now)
  | .admitted _ username now => some (.accepted username now)
  | .checked .. | .refused => none

def Entrance.sessions (s : Entrance) : Sessions where
  clock := s.clock
  log := s.log.filterMap (GateMoment.session s.handler.sessions.ttl s.handler.username)

/-- The clock does not go back, and nobody presents a forged signature. -/
def Entrance.unforged (hmac : List UInt8 → List UInt8 → List UInt8) (s : Entrance) :
    EntranceEvent → Bool
  | .arrive r _ now =>
      !now.before s.clock &&
        match readCookie sessionCookieName.toList r.cookies with
        | none => true
        | some value => !forged hmac s.gate.key s.sessions.log value
  | .login _ o =>
      match o .wallClock with
      | none => true
      | some now => !now.before s.clock
  | .wait _ => true

/-! ## Logins -/

section

variable (idKey : IDKey) (hmac : List UInt8 → List UInt8 → List UInt8) (h : AuthHandler)

/-- A login before the comparison, or after one that failed. -/
def Waits : AuthProg LoginReply → Prop
  | .ret _ => True
  | .cmd .wallClock _ => False
  | .cmd (.check client _) k => ∃ tls, k = finishLogin hmac h tls client
  | .cmd _ k => ∀ r, Waits (k r)

/-- The credentials of this login were right. -/
def Right (log : List GateMoment) (t : Nat) : Prop :=
  ∃ c, .checked t c ∈ log ∧ h.check idKey c = some true

/-- The token is what is left to make. -/
def granting (tls : Bool) : AuthProg LoginReply :=
  .cmd .wallClock fun now => .ret (sessionReply tls (h.sessions.create hmac now h.username))

inductive Stage (log : List GateMoment) (t : Nat) : AuthProg LoginReply → Prop
  | waits {prog : AuthProg LoginReply} (hwaits : Waits hmac h prog) : Stage log t prog
  | passed (tls : Bool) (client : String) (hright : Right idKey h log t) :
      Stage log t (.cmd (.clearFailures client) fun _ => granting hmac h tls)
  | creating (tls : Bool) (hright : Right idKey h log t) : Stage log t (granting hmac h tls)

end

section

variable {idKey : IDKey} {hmac : List UInt8 → List UInt8 → List UInt8} {h : AuthHandler}
  {log : List GateMoment} {t : Nat} {prog : AuthProg LoginReply}

theorem login_waits (r : LoginRequest) : Waits hmac h (login hmac h r) := by
  intro reading limited
  cases limited with
  | true => trivial
  | false =>
      intro credentials
      cases credentials with
      | none => trivial
      | some c => exact ⟨r.tls, rfl⟩

theorem Stage.mono {log' : List GateMoment} (hs : Stage idKey hmac h log t prog) (hlog : log ⊆ log') :
    Stage idKey hmac h log' t prog := by
  cases hs with
  | waits hwaits => exact .waits hwaits
  | passed tls client hright =>
      obtain ⟨c, hc, hcheck⟩ := hright
      exact .passed tls client ⟨c, hlog hc, hcheck⟩
  | creating tls hright =>
      obtain ⟨c, hc, hcheck⟩ := hright
      exact .creating tls ⟨c, hlog hc, hcheck⟩

/-- A login that goes on. -/
theorem Stage.turn {c : AuthCmd} {k : c.Answer → AuthProg LoginReply}
    {o : Oracle AuthCmd AuthCmd.Answer} {s s' : AuthState} {r : c.Answer}
    (hs : Stage idKey hmac h log t (.cmd c k))
    (hexec : AuthCmd.exec idKey h t c o s = some (r, s')) :
    Stage idKey hmac h (h.decides idKey t o (.cmd c k) ++ log) t (k r) := by
  cases hs with
  | passed tls client hright =>
      exact (Stage.creating tls hright).mono (List.subset_append_right _ _)
  | creating tls hright => exact .waits trivial
  | waits hwaits =>
      cases c with
      | wallClock => exact hwaits.elim
      | check client credentials =>
          obtain ⟨tls, rfl⟩ := hwaits
          obtain ⟨_, hcheck⟩ := exec_check idKey h t client credentials o s
          obtain ⟨rfl, -⟩ := Prod.mk.inj (Option.some.inj (hcheck.symm.trans hexec))
          match hok : h.check idKey credentials with
          | none => exact .waits trivial
          | some false => exact .waits fun _ _ => trivial
          | some true =>
              refine .passed tls client ⟨credentials, List.mem_append_left _ ?_, hok⟩
              simp [AuthHandler.decides, hok]
      | now | rateLimited _ _ | decode | recordFailure _ _ | clearFailures _ =>
          exact .waits (hwaits r)

/-- What a login decides by its turn. A cookie it is granted has a token of
now. -/
theorem Stage.decides {o : Oracle AuthCmd AuthCmd.Answer} (hs : Stage idKey hmac h log t prog)
    {moment : GateMoment} (hmem : moment ∈ h.decides idKey t o prog) :
    (∃ c, moment = .checked t c) ∨
      ∃ cookie now tls token, moment = .granted t cookie now ∧ o .wallClock = some now ∧
        h.decides idKey t o prog = [moment] ∧ Right idKey h log t ∧
        h.sessions.create hmac now h.username = .ok token ∧
        sessionReply tls (.ok token) = .done 204 cookie := by
  cases hs with
  | passed tls client hright => cases hmem
  | creating tls hright =>
      cases hnow : o .wallClock with
      | none => simp [AuthHandler.decides, granting, hnow] at hmem
      | some now =>
          cases htoken : h.sessions.create hmac now h.username with
          | error e => simp [AuthHandler.decides, granting, hnow, htoken, sessionReply] at hmem
          | ok token =>
              have hdecides : h.decides idKey t o (granting hmac h tls) =
                  [.granted t ⟨sessionCookieName, token, "/", true, tls, true⟩ now] := by
                simp [AuthHandler.decides, granting, hnow, htoken, sessionReply]
              rw [hdecides] at hmem
              obtain rfl := List.mem_singleton.1 hmem
              exact .inr ⟨_, now, tls, token, rfl, rfl, hdecides, hright, htoken, rfl⟩
  | waits hwaits =>
      cases prog with
      | ret r => cases hmem
      | cmd c k =>
          cases c with
          | wallClock => exact hwaits.elim
          | check client credentials =>
              simp only [AuthHandler.decides] at hmem
              split at hmem
              · exact .inl ⟨credentials, List.mem_singleton.1 hmem⟩
              · cases hmem
          | now | rateLimited _ _ | decode | recordFailure _ _ | clearFailures _ => cases hmem

end

/-! ## Runs -/

section

variable (idKey : IDKey) (hmac : List UInt8 → List UInt8 → List UInt8) (h : AuthHandler)

/-- The credentials were right, and the cookie has a token of now. -/
def Backed (log : List GateMoment) (t : Nat) (cookie : Cookie) (now : Instant) : Prop :=
  Right idKey h log t ∧ ∃ token tls, h.sessions.create hmac now h.username = .ok token ∧
    sessionReply tls (.ok token) = .done 204 cookie

structure EntranceInv (cfg : Config) (key : List UInt8) (s : Entrance) : Prop where
  handler : s.handler = newAuthHandler cfg key
  gate : s.gate = newSessionManager cfg key
  stages : ∀ t prog, s.auth.threads[t]? = some prog → Stage idKey hmac s.handler s.log t prog
  backed : ∀ later t cookie now earlier, s.log = later ++ .granted t cookie now :: earlier →
    Backed idKey hmac s.handler earlier t cookie now
  sessions : SessionsInv s.sessions

end

section

variable {idKey : IDKey} {hmac : List UInt8 → List UInt8 → List UInt8} {cfg : Config}
  {key : List UInt8} {s : Entrance} {log : List GateMoment} {h : AuthHandler}

theorem EntranceInv.new (monotonic : Int) (now : Instant) :
    EntranceInv idKey hmac cfg key (.new cfg key monotonic now) where
  handler := rfl
  gate := rfl
  stages t prog ht := nomatch ht
  backed later t cookie now earlier hlog := by simp [Entrance.new] at hlog
  sessions :=
    ⟨fun _ _ _ hmem => (List.not_mem_nil hmem).elim,
      fun _ _ _ _ hlog => (List.append_ne_nil_of_right_ne_nil _ (by simp) hlog.symm).elim⟩

/-- What is backed stays so as the log grows. -/
theorem backed_push {moment : GateMoment}
    (hold : ∀ later t cookie now earlier, log = later ++ .granted t cookie now :: earlier →
      Backed idKey hmac h earlier t cookie now)
    (hnew : ∀ t cookie now, moment = .granted t cookie now → Backed idKey hmac h log t cookie now) :
    ∀ later t cookie now earlier, moment :: log = later ++ .granted t cookie now :: earlier →
      Backed idKey hmac h earlier t cookie now := by
  intro later t cookie now earlier hlog
  rcases List.cons_eq_append_iff.1 hlog with ⟨-, heq⟩ | ⟨later', -, hlog'⟩
  · obtain ⟨hmoment, rfl⟩ := List.cons.inj heq
    exact hnew t cookie now hmoment.symm
  · exact hold later' t cookie now earlier hlog'

/-- Time goes on. -/
theorem sessions_wait {x : Sessions} (hs : SessionsInv x) {now : Instant} (hclock : x.clock.le now) :
    SessionsInv { x with clock := now } :=
  ⟨fun _ _ _ hmem => Instant.le_trans (hs.past _ _ _ hmem) hclock, hs.backed⟩

/-- Who gets through the middleware was logged in. -/
theorem EntranceInv.admitted (hs : EntranceInv idKey hmac cfg key s) {r : HttpRequest}
    {source : LoginRequest} {now : Instant} {username : String}
    (he : s.unforged hmac (.arrive r source now) = true)
    (h : middleware hmac s.gate now r = some username) :
    LoggedIn s.sessions.log username now := by
  simp only [Entrance.unforged, Bool.and_eq_true, Bool.not_eq_true'] at he
  obtain ⟨hclock, hforged⟩ := he
  unfold middleware at h
  cases hcookie : readCookie sessionCookieName.toList r.cookies with
  | none =>
      rw [hcookie] at h
      cases h
  | some value =>
      rw [hcookie] at h hforged
      dsimp only at h
      split at h
      · cases h
      · next username' hverify =>
          obtain rfl := Option.some.inj h
          have hgenuine : forged hmac s.gate.key s.sessions.log value = false := by simpa using hforged
          exact hs.sessions.loggedIn hclock hgenuine hverify

theorem EntranceInv.arrive (hs : EntranceInv idKey hmac cfg key s) {r : HttpRequest}
    {source : LoginRequest} {now : Instant}
    (he : s.unforged hmac (.arrive r source now) = true) :
    EntranceInv idKey hmac cfg key (s.arrive idKey hmac r source now) := by
  have hclock : s.clock.le now := by
    simp only [Entrance.unforged, Bool.and_eq_true, Bool.not_eq_true'] at he
    exact he.1
  have hwait : SessionsInv { s.sessions with clock := now } := sessions_wait hs.sessions hclock
  unfold Entrance.arrive
  split
  · refine ⟨hs.handler, hs.gate, fun t prog ht => ?_, hs.backed, hwait⟩
    have ht' : (s.auth.threads ++ [login hmac s.handler source])[t]? = some prog := ht
    by_cases hlt : t < s.auth.threads.length
    · rw [List.getElem?_append_left hlt] at ht'
      exact hs.stages t prog ht'
    · rw [List.getElem?_append_right (by omega)] at ht'
      obtain rfl := List.mem_singleton.1 (List.mem_of_getElem? ht')
      exact .waits (login_waits source)
  · exact ⟨hs.handler, hs.gate, hs.stages, hs.backed, hwait⟩
  · exact ⟨hs.handler, hs.gate, hs.stages, hs.backed, hwait⟩
  · next target _ =>
      split
      · exact ⟨hs.handler, hs.gate, fun t prog ht => (hs.stages t prog ht).mono (by simp),
          backed_push hs.backed (fun _ _ _ heq => nomatch heq), hwait⟩
      · next username hadmitted =>
          refine ⟨hs.handler, hs.gate, fun t prog ht => (hs.stages t prog ht).mono (by simp),
            backed_push hs.backed (fun _ _ _ heq => nomatch heq), ?_⟩
          refine hs.sessions.push hclock (fun _ _ _ heq => nomatch heq) fun username' at' heq => ?_
          obtain ⟨rfl, rfl⟩ := SessionMoment.accepted.inj heq
          exact hs.admitted he hadmitted

/-- What a login has decided, if anything. -/
theorem decides_short {o : Oracle AuthCmd AuthCmd.Answer} {t : Nat} (prog : AuthProg LoginReply) :
    h.decides idKey t o prog = [] ∨ ∃ moment, h.decides idKey t o prog = [moment] := by
  unfold AuthHandler.decides
  split
  · split
    · exact .inr ⟨_, rfl⟩
    · exact .inl rfl
  · split
    · exact .inl rfl
    · split
      · exact .inr ⟨_, rfl⟩
      · exact .inl rfl
  · exact .inl rfl

/-- The log of a login that goes on. -/
theorem EntranceInv.decides (hs : EntranceInv idKey hmac cfg key s) {t : Nat}
    {o : Oracle AuthCmd AuthCmd.Answer} {prog : AuthProg LoginReply}
    (hstage : Stage idKey hmac s.handler s.log t prog)
    (hclock : s.clock.le ((o .wallClock).getD s.clock)) :
    (∀ later t' cookie now earlier, s.handler.decides idKey t o prog ++ s.log =
        later ++ .granted t' cookie now :: earlier →
      Backed idKey hmac s.handler earlier t' cookie now) ∧
      SessionsInv
        { clock := (o .wallClock).getD s.clock
          log := (s.handler.decides idKey t o prog ++ s.log).filterMap
            (GateMoment.session s.handler.sessions.ttl s.handler.username) } := by
  have hwait := sessions_wait hs.sessions hclock
  rcases decides_short (h := s.handler) (o := o) (t := t) prog with hnone | ⟨moment, hone⟩
  · rw [hnone]
    exact ⟨hs.backed, hwait⟩
  · have hmem : moment ∈ s.handler.decides idKey t o prog := hone ▸ List.mem_singleton_self _
    rw [hone]
    rcases hstage.decides hmem with ⟨c, rfl⟩ |
      ⟨cookie, now, tls, token, rfl, hnow, -, hright, htoken, hreply⟩
    · exact ⟨backed_push hs.backed (fun _ _ _ heq => nomatch heq), hwait⟩
    · refine ⟨backed_push hs.backed fun t' cookie' now' heq => ?_, ?_⟩
      · obtain ⟨rfl, rfl, rfl⟩ := GateMoment.granted.inj heq
        exact ⟨hright, token, tls, htoken, hreply⟩
      · refine hs.sessions.push hclock (fun ttl username start heq => ?_) fun _ _ heq => nomatch heq
        obtain ⟨-, -, rfl⟩ := SessionMoment.created.inj heq
        rw [hnow, Option.getD_some]
        exact now.le_refl

theorem EntranceInv.login (hs : EntranceInv idKey hmac cfg key s) {t : Nat}
    {o : Oracle AuthCmd AuthCmd.Answer} (he : s.unforged hmac (.login t o) = true) :
    EntranceInv idKey hmac cfg key (s.step idKey hmac (.login t o)) := by
  have hclock : s.clock.le ((o .wallClock).getD s.clock) := by
    cases hnow : o .wallClock with
    | none => exact s.clock.le_refl
    | some now =>
        have hbefore : now.before s.clock = false := by simpa [Entrance.unforged, hnow] using he
        exact hbefore
  cases hprog : s.auth.threads[t]? with
  | none =>
      have hstep : s.step idKey hmac (.login t o) =
          { s with clock := (o .wallClock).getD s.clock } := by
        simp [Entrance.step, Machine.step, Machine.advance, hprog]
      rw [hstep]
      exact ⟨hs.handler, hs.gate, hs.stages, hs.backed, sessions_wait hs.sessions hclock⟩
  | some prog =>
      have hstage := hs.stages t prog hprog
      obtain ⟨hbacked, hsessions⟩ := hs.decides (o := o) hstage hclock
      have hstep : s.step idKey hmac (.login t o) =
          { s with
            auth := (authServer idKey hmac s.handler).advance s.auth t o
            clock := (o .wallClock).getD s.clock
            log := s.handler.decides idKey t o prog ++ s.log } := by
        simp [Entrance.step, Machine.step, hprog]
      rw [hstep]
      refine ⟨hs.handler, hs.gate, fun t' prog' ht' => ?_, hbacked, hsessions⟩
      have ht'' : ((authServer idKey hmac s.handler).advance s.auth t o).threads[t']? =
        some prog' := ht'
      have hold : ∀ prog'', s.auth.threads[t']? = some prog'' →
          Stage idKey hmac s.handler (s.handler.decides idKey t o prog ++ s.log) t' prog'' :=
        fun prog'' h => (hs.stages t' prog'' h).mono (List.subset_append_right _ _)
      rcases (authServer idKey hmac s.handler).advance_cases s.auth t o with
        heq | ⟨c, k, r, st, hc, hexec, heq⟩
      · rw [heq] at ht''
        exact hold prog' ht''
      · rw [heq] at ht''
        dsimp only at ht''
        by_cases ht : t = t'
        · subst ht
          obtain ⟨hlt, -⟩ := List.getElem?_eq_some_iff.1 hc
          rw [List.getElem?_set_self hlt] at ht''
          obtain rfl := Option.some.inj ht''
          obtain rfl := Option.some.inj (hprog.symm.trans hc)
          exact hstage.turn hexec
        · rw [List.getElem?_set_ne ht] at ht''
          exact hold prog' ht''

theorem EntranceInv.step (hs : EntranceInv idKey hmac cfg key s) {e : EntranceEvent}
    (he : s.unforged hmac e = true) : EntranceInv idKey hmac cfg key (s.step idKey hmac e) := by
  cases e with
  | arrive r source now => exact hs.arrive he
  | login t o => exact hs.login he
  | wait d => exact ⟨hs.handler, hs.gate, hs.stages, hs.backed, hs.sessions⟩

end

/-! ## The mux -/

/-- The third part of the path tells the handlers from the endpoints. -/
theorem Handler.pattern_cases (h : Handler) : ∃ word rest,
    h.pattern.segments = ofApi (.lit word :: rest) ∧
      word ∈ ["clusters", "dashboard", "config", "audit"] := by
  cases h <;> exact ⟨_, _, rfl, by decide⟩

theorem Endpoint.pattern_cases (e : Endpoint) : ∃ word rest,
    e.pattern.segments = ofApi (.lit word :: rest) ∧ word ∈ ["health", "auth"] := by
  cases e <;> exact ⟨_, _, rfl, by decide⟩

theorem match_ofApi {word : String} {rest : List PatternSegment} {given : List (List UInt8)}
    {values : PathValues} (h : matchSegments (ofApi (.lit word :: rest)) given = some values) :
    ∃ after, given = utf8 "api".toList :: utf8 "v1".toList :: utf8 word.toList :: after := by
  obtain ⟨afterApi, rfl, hv1⟩ := matchSegments_lit h
  obtain ⟨afterV1, rfl, hword⟩ := matchSegments_lit hv1
  obtain ⟨after, rfl, -⟩ := matchSegments_lit hword
  exact ⟨after, rfl⟩

/-- What a handler is registered for gets to it through the middleware. -/
theorem route_gated {r : HttpRequest} {target : Handler × PathValues}
    (h : route protectedRoutes r.method r.segments = some target) :
    destination r = .gated (some target) := by
  have hpath : (r.segments.all (fun s => (unescape s).isSome) && isClean r.segments) = true := by
    unfold route at h
    split at h
    · assumption
    · cases h
  obtain ⟨-, p, hp, hmatch⟩ := route_some h
  obtain ⟨handler, -, heq⟩ := List.mem_map.1 hp
  obtain ⟨word, rest, hsegments, hword⟩ := handler.pattern_cases
  rw [← (Prod.mk.inj heq).1, hsegments] at hmatch
  obtain ⟨after, hgiven⟩ := match_ofApi hmatch
  have hunder : underApi r.segments = true := by
    rw [underApi, hpath, hgiven]
    simp
  have hnone : route endpointRoutes r.method r.segments = none := by
    cases hroute : route endpointRoutes r.method r.segments with
    | none => rfl
    | some found =>
        obtain ⟨-, p', hp', hmatch'⟩ := route_some hroute
        obtain ⟨e, -, heq'⟩ := List.mem_map.1 hp'
        obtain ⟨word', rest', hsegments', hword'⟩ := e.pattern_cases
        rw [← (Prod.mk.inj heq').1, hsegments'] at hmatch'
        obtain ⟨after', hgiven'⟩ := match_ofApi hmatch'
        have hsame : utf8 word.toList = utf8 word'.toList := by
          have hlists := hgiven.symm.trans hgiven'
          simp only [List.cons.injEq, true_and] at hlists
          exact hlists.1
        have hdiffer : ∀ w ∈ ["clusters", "dashboard", "config", "audit"],
            ∀ w' ∈ ["health", "auth"], utf8 w.toList ≠ utf8 w'.toList := by decide
        exact absurd hsame (hdiffer word hword word' hword')
  rw [destination, hnone, hunder, h]
  rfl

/-! ## The result -/

/-- Whoever gets through the middleware, whatever happened before, is the user
of the configuration, somebody presented the credentials of that before and was
granted a login, and its hours are not over. And every request one of the
handlers is registered for has to get through. -/
theorem admitted_backed (idKey : IDKey) (hmac : List UInt8 → List UInt8 → List UInt8)
    (cfg : Config) (key : List UInt8) (monotonic : Int) (start : Instant)
    (es : List EntranceEvent)
    (hunforged : meets (Entrance.step idKey hmac) (Entrance.unforged hmac)
      (Entrance.new cfg key monotonic start) es = true) :
    (∀ later target username now earlier,
      (run (Entrance.step idKey hmac) (Entrance.new cfg key monotonic start) es).log =
          later ++ .admitted target username now :: earlier →
        username = cfg.server.username ∧
          ∃ t cookie since between before c, earlier = between ++ .granted t cookie since :: before ∧
            since.le now ∧ now.sec < (since.add (hoursDuration cfg.server.sessionHours)).sec ∧
            .checked t c ∈ before ∧ cfg.server.Accepts idKey c) ∧
      ∀ (r : HttpRequest) target, route protectedRoutes r.method r.segments = some target →
        destination r = .gated (some target) := by
  refine ⟨fun later target username now earlier hlog => ?_, fun r target h => route_gated h⟩
  have hinit : Reach (Entrance.step idKey hmac) (Entrance.unforged hmac)
      (fun s => s = Entrance.new cfg key monotonic start) (Entrance.new cfg key monotonic start) :=
    .init rfl
  have hs : EntranceInv idKey hmac cfg key
      (run (Entrance.step idKey hmac) (Entrance.new cfg key monotonic start) es) :=
    (hinit.run hunforged).invariant (fun s heq => heq ▸ EntranceInv.new monotonic start)
      fun s e hs he => hs.step he
  generalize run (Entrance.step idKey hmac) (Entrance.new cfg key monotonic start) es = s at hs hlog
  have hsession : s.sessions.log =
      later.filterMap (GateMoment.session s.handler.sessions.ttl s.handler.username) ++
        .accepted username now ::
          earlier.filterMap (GateMoment.session s.handler.sessions.ttl s.handler.username) := by
    rw [Entrance.sessions, hlog, List.filterMap_append, List.filterMap_cons]
    rfl
  obtain ⟨ttl, since, hcreated, hsince, hlasts⟩ := hs.sessions.backed _ _ _ _ hsession
  obtain ⟨moment, hmoment, hmade⟩ := List.mem_filterMap.1 hcreated
  cases moment with
  | checked t c => cases hmade
  | admitted target' username' now' => cases hmade
  | refused => cases hmade
  | granted t cookie now' =>
      obtain ⟨rfl, rfl, rfl⟩ := SessionMoment.created.inj (Option.some.inj hmade)
      obtain ⟨between, before, rfl⟩ := List.append_of_mem hmoment
      have hlog' : s.log = (later ++ .admitted target s.handler.username now :: between) ++
          .granted t cookie now' :: before := by
        rw [hlog, List.append_assoc]
        rfl
      obtain ⟨⟨c, hchecked, hright⟩, -⟩ := hs.backed _ _ _ _ _ hlog'
      rw [hs.handler] at hright hlasts ⊢
      exact ⟨rfl, t, cookie, now', between, before, c, rfl, hsince, hlasts, hchecked,
        check_iff.1 hright⟩

/-! A login in the morning, and a request half an hour later. -/

def morningToken : List Char :=
  "eyJzdWIiOiJhZG1pbiIsImV4cCI6MTc4Mzk0MDQwMH0.WxrD9PgLvkNt9K5e-lYE77ecQpJWsqnrTYzI4IYWOhQ".toList

def adminAnswers : Oracle AuthCmd AuthCmd.Answer
  | .wallClock => some morning
  | .decode => some (some ⟨"admin", "admin"⟩)
  | _ => none

def postLogin : HttpRequest where
  method := "POST"
  segments := ["api".toList, "v1".toList, "auth".toList, "login".toList]
  cookies := []

def getClusters : HttpRequest where
  method := "GET"
  segments := ["api".toList, "v1".toList, "clusters".toList]
  cookies := [sessionCookieName.toList ++ '=' :: morningToken]

def morningLogin : List EntranceEvent :=
  .arrive postLogin ⟨"10.0.0.1:4711", false⟩ morning ::
    List.replicate 6 (.login 0 adminAnswers) ++ [.arrive getClusters ⟨"", false⟩ halfPast]

def morningRun : Entrance :=
  run (Entrance.step (fun _ _ _ _ _ _ => none) oneSignature)
    (Entrance.new (hoursConfig 1) secretKey 0 morning) morningLogin

theorem admitted_backed_morning :
    morningRun.log =
        [.admitted (some (.listClusters, [])) "admin" halfPast,
          .granted 0 ⟨sessionCookieName, morningToken, "/", true, false, true⟩ morning,
          .checked 0 ⟨"admin", "admin"⟩] ∧
      halfPast.sec < (morning.add (hoursDuration 1)).sec := by
  have hlog : morningRun.log =
      [.admitted (some (.listClusters, [])) "admin" halfPast,
        .granted 0 ⟨sessionCookieName, morningToken, "/", true, false, true⟩ morning,
        .checked 0 ⟨"admin", "admin"⟩] := by decide +kernel
  obtain ⟨-, t, cookie, since, between, before, c, hearlier, -, hlasts, -⟩ :=
    (admitted_backed (fun _ _ _ _ _ _ => none) oneSignature (hoursConfig 1) secretKey 0 morning
      morningLogin (by decide +kernel)).1 [] _ _ _ _ hlog
  refine ⟨hlog, ?_⟩
  have hmem : GateMoment.granted t cookie since ∈
      [.granted 0 ⟨sessionCookieName, morningToken, "/", true, false, true⟩ morning,
        .checked 0 ⟨"admin", "admin"⟩] := by
    rw [hearlier]
    exact List.mem_append_right _ (.head _)
  simp only [List.mem_cons, List.not_mem_nil, or_false, reduceCtorEq] at hmem
  obtain ⟨-, -, rfl⟩ := GateMoment.granted.inj hmem
  exact hlasts

end KafkaManager.Api
