import KafkaManager.Api.Portal
import KafkaManager.Proofs.Transactions

/-!
# Which credentials log in

`login` compares with what `NewServer` has put into the handler, and nothing
puts anything else there. So it is the current configuration's credentials that
log in as long as no configuration with other ones comes into force.
-/

namespace Lib.Prog

variable {C : Type} {R : C → Type} {α : Type}

/-- Whatever the program returns satisfies `Q`. -/
def Returns (Q : α → Prop) : Prog C R α → Prop
  | ret a => Q a
  | cmd _ k => ∀ r, (k r).Returns Q

end Lib.Prog

namespace KafkaManager

open Lib Auth Api

/-- The user of this configuration, with the password. -/
def ServerConfig.Accepts (idKey : IDKey) (cfg : ServerConfig) (c : Credentials) : Prop :=
  c.username = cfg.username ∧
    if cfg.password = "" then verifyPassword idKey cfg.passwordHash c.password = some true
    else c.password = cfg.password

/-- The credentials are the same. The hash is one only without a password. -/
def ServerConfig.sameLogin (a b : ServerConfig) : Bool :=
  a.username == b.username && a.password == b.password &&
    (a.password != "" || a.passwordHash == b.passwordHash)

theorem ServerConfig.sameLogin_refl (a : ServerConfig) : a.sameLogin a = true := by
  simp [sameLogin]

theorem ServerConfig.sameLogin_trans {a b c : ServerConfig} (h : a.sameLogin b = true)
    (h' : b.sameLogin c = true) : a.sameLogin c = true := by
  simp only [sameLogin, Bool.and_eq_true, beq_iff_eq, Bool.or_eq_true, bne_iff_ne] at h h' ⊢
  obtain ⟨⟨huser, hpassword⟩, hhash⟩ := h
  obtain ⟨⟨huser', hpassword'⟩, hhash'⟩ := h'
  refine ⟨⟨huser.trans huser', hpassword.trans hpassword'⟩, ?_⟩
  rcases hhash with hne | heq
  · exact .inl hne
  · rw [hpassword, heq]
    exact hhash'

theorem ServerConfig.accepts_congr {idKey : IDKey} {a b : ServerConfig} {c : Credentials}
    (h : a.sameLogin b = true) : a.Accepts idKey c ↔ b.Accepts idKey c := by
  simp only [sameLogin, Bool.and_eq_true, beq_iff_eq, Bool.or_eq_true, bne_iff_ne] at h
  obtain ⟨⟨huser, hpassword⟩, hhash⟩ := h
  unfold Accepts
  rw [← huser, ← hpassword]
  by_cases hempty : a.password = ""
  · have heq : a.passwordHash = b.passwordHash := by
      rcases hhash with hne | heq
      · exact absurd hempty hne
      · exact heq
    rw [if_pos hempty, if_pos hempty, heq]
  · rw [if_neg hempty, if_neg hempty]

namespace Api

/-! ## The comparison -/

variable {idKey : IDKey} {hmac : List UInt8 → List UInt8 → List UInt8} {d : Setting}

/-- The handler compares with the configuration it was made from. -/
theorem check_iff {cfg : Config} {key : List UInt8} {c : Credentials} :
    (newAuthHandler cfg key).check idKey c = some true ↔ cfg.server.Accepts idKey c := by
  unfold AuthHandler.check ServerConfig.Accepts
  by_cases hempty : cfg.server.password = ""
  · simp [newAuthHandler, hempty, Option.bind_eq_some_iff, and_comm]
  · have hflip : (cfg.server.password = c.password) = (c.password = cfg.server.password) :=
      propext eq_comm
    simp [newAuthHandler, hempty, hflip]

/-- A login whose credentials have been compared succeeds if they are right. -/
theorem finishLogin_returns {h : AuthHandler} (hkey : 32 ≤ h.sessions.key.length) (tls : Bool)
    (client : String) (ok : Option Bool) :
    (finishLogin hmac h tls client ok).Returns fun reply => reply.granted = true ↔ ok = some true := by
  match ok with
  | none => simp [finishLogin, Prog.Returns, LoginReply.granted]
  | some false =>
      intro _ _
      show invalidCredentials.granted = true ↔ _
      simp [invalidCredentials, LoginReply.granted]
  | some true =>
      intro _ now
      have hcreate : ∃ token, h.sessions.create hmac now h.username = .ok token :=
        ⟨_, if_neg (Nat.not_lt.2 hkey)⟩
      obtain ⟨token, htoken⟩ := hcreate
      show (sessionReply tls (h.sessions.create hmac now h.username)).granted = true ↔ _
      simp [htoken, sessionReply, LoginReply.granted]

/-- What is left of a login: behind the limiter the credentials of the body are
compared, and that decides. -/
def LoginText (hmac : List UInt8 → List UInt8 → List UInt8) (h : AuthHandler) :
    AuthProg LoginReply → Prop
  | .cmd (.rateLimited client _) k => ∃ next, k false = .cmd .decode next ∧
      ∀ c, ∃ rest, next (some c) = .cmd (.check client c) rest
  | .cmd (.check client _) k => ∃ tls, k = finishLogin hmac h tls client
  | _ => True

theorem login_text {h : AuthHandler} (r : LoginRequest) :
    (login hmac h r).Always (LoginText hmac h) := by
  have hfinish : ∀ ok, (finishLogin hmac h r.tls (clientHost r.remoteAddress) ok).Always
      (LoginText hmac h) := by
    intro ok
    match ok with
    | none => trivial
    | some false => exact ⟨trivial, fun _ => ⟨trivial, fun _ => trivial⟩⟩
    | some true => exact ⟨trivial, fun _ => ⟨trivial, fun _ => trivial⟩⟩
  refine ⟨trivial, fun reading => ⟨⟨_, rfl, fun c => ⟨_, rfl⟩⟩, fun limited => ?_⟩⟩
  cases limited with
  | true => trivial
  | false =>
      refine ⟨trivial, fun credentials => ?_⟩
      cases credentials with
      | none => trivial
      | some c => exact ⟨⟨r.tls, rfl⟩, hfinish⟩

/-! ## Runs -/

/-- A step by which no configuration with other credentials comes into force. -/
def keepsLogin (p : Portal) : PortalEvent → Bool
  | .server (.thread t _) =>
      match p.server.threads[t]? with
      | some (.cmd (.writeConfig cfg) _) => p.server.shared.cfg.server.sameLogin cfg.server
      | _ => true
  | .server (.spawn _) | .server (.env _) | .auth _ => true

/-- A server that has just been built. -/
def FreshPortal (d : Setting) (p : Portal) : Prop :=
  ∃ cfg pool file clock, p = Portal.new d cfg pool file clock

structure PortalInv (hmac : List UInt8 → List UInt8 → List UInt8) (d : Setting) (p : Portal) :
    Prop where
  made : ∃ cfg, p.handler = newAuthHandler cfg d.secret ∧
    cfg.server.sameLogin p.server.shared.cfg.server = true
  text : ∀ prog ∈ p.auth.threads, prog.Always (LoginText hmac p.handler)

theorem exec_cfg {t : Nat} {c : Cmd} {o : Oracle Cmd Cmd.Answer} {s s' : State} {r : c.Answer}
    (hc : ∀ cfg, c ≠ .writeConfig cfg) (he : c.exec d t o s = some (r, s')) : s'.cfg = s.cfg := by
  cases c with
  | writeConfig cfg => exact absurd rfl (hc cfg)
  | updateMonitor cfg =>
      obtain ⟨-, rfl⟩ := Prod.mk.inj (Option.some.inj he)
      rfl
  | _ => exact (exec_kept he (by simp) (by simp)).1

/-- What a step makes of the configuration in force. -/
theorem sameLogin_step {p : Portal} {e : ServerEvent} (he : keepsLogin p (.server e) = true) :
    p.server.shared.cfg.server.sameLogin ((server d).step p.server e).shared.cfg.server = true := by
  cases e with
  | spawn r => exact ServerConfig.sameLogin_refl _
  | env e =>
      have hcfg : ((server d).step p.server (.env e)).shared.cfg = p.server.shared.cfg := by
        cases e with
        | move o v =>
            show (Outside.exec d (.move o v) p.server.shared).cfg = _
            simp only [Outside.exec]
            split <;> rfl
        | _ => rfl
      rw [hcfg]
      exact ServerConfig.sameLogin_refl _
  | thread t o =>
      show p.server.shared.cfg.server.sameLogin
        ((server d).advance p.server t o).shared.cfg.server = true
      rcases (server d).advance_cases p.server t o with heq | ⟨c, k, r, s, hc, hexec, heq⟩
      · rw [heq]
        exact ServerConfig.sameLogin_refl _
      · rw [heq]
        by_cases hwrite : ∃ cfg, c = .writeConfig cfg
        · obtain ⟨cfg, rfl⟩ := hwrite
          obtain ⟨-, rfl⟩ := Prod.mk.inj (Option.some.inj hexec)
          have hsame : p.server.shared.cfg.server.sameLogin cfg.server = true := by
            simpa [keepsLogin, hc] using he
          exact hsame
        · have hcfg : s.cfg = p.server.shared.cfg :=
            exec_cfg (fun cfg h => hwrite ⟨cfg, h⟩) hexec
          show p.server.shared.cfg.server.sameLogin s.cfg.server = true
          rw [hcfg]
          exact ServerConfig.sameLogin_refl _

theorem PortalInv.step {p : Portal} (hp : PortalInv hmac d p) {e : PortalEvent}
    (he : keepsLogin p e = true) : PortalInv hmac d (p.step idKey hmac d e) := by
  obtain ⟨cfg, hmade, hsame⟩ := hp.made
  cases e with
  | server e =>
      exact ⟨⟨cfg, hmade, ServerConfig.sameLogin_trans hsame (sameLogin_step he)⟩, hp.text⟩
  | auth e => exact ⟨⟨cfg, hmade, hsame⟩, Machine.always_step _ login_text hp.text e⟩

theorem portalInv {p : Portal}
    (hp : Reach (Portal.step idKey hmac d) keepsLogin (FreshPortal d) p) : PortalInv hmac d p := by
  refine hp.invariant ?_ fun p e h he => h.step he
  rintro _ ⟨cfg, pool, file, clock, rfl⟩
  exact ⟨⟨cfg, rfl, ServerConfig.sameLogin_refl _⟩, by simp [Portal.new, newAuthPool]⟩

/-! ## The results -/

/-- A login the limiter lets through goes on to the comparison of what its body
says, and it succeeds if the configuration in force then accepts that. -/
structure LoginsCurrent (idKey : IDKey) (p : Portal) : Prop where
  compared : ∀ (t : Nat) (client : String) (reading : Int) (k : Bool → AuthProg LoginReply),
    p.auth.threads[t]? = some (.cmd (.rateLimited client reading) k) →
      ∃ next, k false = .cmd .decode next ∧
        ∀ c, ∃ rest, next (some c) = .cmd (.check client c) rest
  decided : ∀ (t : Nat) (client : String) (c : Credentials)
    (k : Option Bool → AuthProg LoginReply) (o : Oracle AuthCmd AuthCmd.Answer),
    p.auth.threads[t]? = some (.cmd (.check client c) k) →
      ∃ ok s, AuthCmd.exec idKey p.handler t (.check client c) o p.auth.shared = some (ok, s) ∧
        (k ok).Returns fun reply =>
          reply.granted = true ↔ p.server.shared.cfg.server.Accepts idKey c

theorem exec_check (idKey : IDKey) (h : AuthHandler) (t : Nat) (client : String) (c : Credentials)
    (o : Oracle AuthCmd AuthCmd.Answer) (s : AuthState) :
    ∃ s', AuthCmd.exec idKey h t (.check client c) o s = some (h.check idKey c, s') := by
  simp only [AuthCmd.exec]
  split
  · next hcheck => exact ⟨_, by rw [hcheck]⟩
  · next hcheck => exact ⟨_, by rw [hcheck]⟩
  · next hcheck => exact ⟨_, by rw [hcheck]⟩

theorem PortalInv.loginsCurrent {p : Portal} (hp : PortalInv hmac d p)
    (hkey : 32 ≤ d.secret.length) : LoginsCurrent idKey p where
  compared t client reading k ht := (hp.text _ (List.mem_of_getElem? ht)).now
  decided t client c k o ht := by
    obtain ⟨cfg, hmade, hsame⟩ := hp.made
    obtain ⟨tls, rfl⟩ : ∃ tls, k = finishLogin hmac p.handler tls client :=
      (hp.text _ (List.mem_of_getElem? ht)).now
    obtain ⟨s, hexec⟩ := exec_check idKey p.handler t client c o p.auth.shared
    refine ⟨_, s, hexec, ?_⟩
    have hlong : 32 ≤ p.handler.sessions.key.length := by
      rw [hmade]
      exact hkey
    have haccepts : p.handler.check idKey c = some true ↔
        p.server.shared.cfg.server.Accepts idKey c := by
      rw [hmade, check_iff]
      exact ServerConfig.accepts_congr hsame
    rw [← haccepts]
    exact finishLogin_returns hlong tls client _

/-! ## A password that is replaced -/

/-- What the package writes for `replacedConfig`. -/
def replacedText : List Char :=
  "server:
  listenAddress: :8080
  username: admin
  password: changed
  sessionHours: 12
clusters:
  - id: a
    name: a
    brokers:
      - k1:9092
    security:
      protocol: PLAINTEXT
      password: secret
audit:
  directory: ./data/audit
  retentionDays: 30
  maxFileSizeMB: 50
  configBackupRetentionDays: 30
dashboard:
  sampleIntervalSeconds: 15
  historyPoints: 240
".toList

def replacedConfig : Config :=
  { writableConfig with server := { writableConfig.server with password := "changed" } }

def replacedSetting : Setting :=
  { plainSetting with
    yaml := pairYaml writableConfig (passwordText secret) replacedConfig replacedText
    secret := List.replicate 32 0 }

/-- What the outside answers the request. -/
def replacedAnswers : Oracle Cmd Cmd.Answer
  | .readBody .config => some (some replacedConfig)
  | .save _ => some none
  | _ => none

set_option maxRecDepth 4000 in
theorem replacedText_annotated :
    dropNotes .start (annotate replacedText) = replacedText ∧
      Refs.names (annotate replacedText) = [] ∧ replacedText ≠ passwordText secret := by
  unfold annotate passwordText
  rw [show replacedText = _ from toList_eq rfl, show header = _ from toList_eq rfl,
    show beforePassword = _ from toList_eq rfl, show afterPassword = _ from toList_eq rfl,
    show clustersKey = _ from toList_eq rfl, show auditKey = _ from toList_eq rfl,
    show dashboardKey = _ from toList_eq rfl, show clustersNote = _ from toList_eq rfl,
    show auditNote = _ from toList_eq rfl, show dashboardNote = _ from toList_eq rfl]
  exact ⟨by decide +kernel, by decide +kernel, by decide +kernel⟩

theorem replacedConfig_ne : replacedConfig ≠ writableConfig := by
  intro h
  have hpassword := congrArg (fun c : Config => c.server.password) h
  exact absurd hpassword (by decide)

theorem replacedConfig_valid : replacedConfig.validate = none := by
  have hadmin : isBlank "admin" = false := not_blank rfl (by decide)
  have ha : isBlank "a" = false := not_blank rfl (by decide)
  have hbroker : isBlank "k1:9092" = false := not_blank rfl (by decide)
  unfold replacedConfig writableConfig passwordConfig Config.validate
  simp [defaultConfig, plainCluster, validateClusters, validateCluster, hadmin, ha, hbroker]

theorem marshal_replaced : marshal replacedSetting.yaml replacedConfig =
    some (annotate replacedText) :=
  marshal_pairYaml replacedConfig_ne

theorem load_replaced : load replacedSetting.yaml replacedSetting.env (annotate replacedText) =
    .ok replacedConfig := by
  obtain ⟨hbody, hnames, hne⟩ := replacedText_annotated
  exact load_second hbody hnames hne replacedConfig_valid

theorem fillSecrets_replaced : fillSecrets writableConfig replacedConfig = replacedConfig := by
  decide

theorem matches_replaced :
    (plainPool.start (.setDesired writableConfig.clusters)).mgr.matchesClusters
      replacedConfig.clusters = true := by
  decide +kernel

/-- The password of before. -/
def oldLogin : Credentials := ⟨"admin", "admin"⟩

/-- What the outside answers a login. -/
def loginAnswers : Oracle AuthCmd AuthCmd.Answer
  | .decode => some (some oldLogin)
  | _ => none

/-- Argon2id is not used, nor is a signature. -/
abbrev plainStep : Portal → PortalEvent → Portal :=
  Portal.step (fun _ _ _ _ _ _ => none) (fun _ _ => []) replacedSetting

/-- The server of `main` with the old password. -/
def replacedStarted : Portal := Portal.new replacedSetting writableConfig plainPool writableText 0

/-- A request replaces the password. -/
def replace : List ServerEvent :=
  .spawn .putConfig :: (List.replicate 8 (.thread 0 replacedAnswers) ++ [.thread 0 replacedAnswers])

/-- A login up to the comparison. -/
def logIn : List AuthEvent :=
  .spawn ⟨"192.0.2.10:1234", true⟩ :: List.replicate 3 (.thread 0 loginAnswers)

theorem run_server (idKey : IDKey) (hmac : List UInt8 → List UInt8 → List UInt8) (d : Setting)
    (p : Portal) (es : List ServerEvent) :
    run (Portal.step idKey hmac d) p (es.map .server) =
      { p with server := run (server d).step p.server es } := by
  induction es generalizing p with
  | nil => rfl
  | cons e es ih =>
      rw [List.map_cons, run_cons, ih]
      rfl

/-- The server after the request. -/
def replacedServer : ServerPool where
  shared := (savedState replacedSetting replacedStarted.server.shared 0 replacedConfig replacedConfig
    (annotate replacedText)).release
  threads := [.ret (some (.done 204 none))]

theorem run_replace : run (server replacedSetting).step replacedStarted.server replace =
    replacedServer := by
  refine Eq.trans (run_save (s := replacedStarted.server.shared) [] rfl rfl fillSecrets_replaced
    replacedConfig_valid marshal_replaced load_replaced rfl rfl rfl rfl matches_replaced _) ?_
  rfl

/-- The password has been replaced, and the old one is about to be compared. -/
def replacedPortal : Portal :=
  run plainStep { replacedStarted with server := replacedServer } (logIn.map .auth)

theorem logIn_compared (idKey : IDKey) (hmac : List UInt8 → List UInt8 → List UInt8) (d : Setting)
    (server : ServerPool) (h : AuthHandler) :
    (run (Portal.step idKey hmac d) ⟨server, h, newAuthPool 0⟩ (logIn.map .auth)).auth.threads =
      [.cmd (.check "192.0.2.10" oldLogin) (finishLogin hmac h true "192.0.2.10")] := by
  have hhost : clientHost "192.0.2.10:1234" = "192.0.2.10" := by decide +kernel
  rw [← hhost]
  rfl

theorem run_replaced : run plainStep replacedStarted (replace.map .server ++ logIn.map .auth) =
    replacedPortal := by
  rw [run_append, run_server, run_replace]
  rfl

/-- A request has replaced the password, and the old one is not refused. -/
theorem logins_current_replaced :
    Reach plainStep (fun _ _ => true) (FreshPortal replacedSetting) replacedPortal ∧
      replacedPortal.server.threads = [.ret (some (.done 204 none))] ∧
      replacedPortal.server.shared.cfg = replacedConfig ∧
      ¬ LoginsCurrent (fun _ _ _ _ _ _ => none) replacedPortal := by
  have hfresh : FreshPortal replacedSetting replacedStarted := ⟨_, _, _, _, rfl⟩
  have hinit : Reach plainStep (fun _ _ => true) (FreshPortal replacedSetting) replacedStarted :=
    .init hfresh
  have hreach := hinit.run_any
    (replace.map .server ++ logIn.map .auth)
  rw [run_replaced] at hreach
  refine ⟨hreach, rfl, rfl, fun h => ?_⟩
  obtain ⟨ok, s, hexec, hreturns⟩ := h.decided 0 "192.0.2.10" oldLogin _ loginAnswers
    (congrArg (fun threads => threads[0]?) (logIn_compared ..))
  obtain ⟨rfl, -⟩ : some true = ok ∧ replacedPortal.auth.shared = s :=
    Prod.mk.inj (Option.some.inj hexec)
  -- the session is created at any time
  have hgranted := (hreturns () (Instant.ofUnix 0)).1 rfl
  exact absurd hgranted.2 (by decide)

/-- In every run in which no configuration with other credentials comes into
force, a login the limiter lets through succeeds exactly with the credentials
of the configuration in force. -/
theorem logins_current (idKey : IDKey) (hmac : List UInt8 → List UInt8 → List UInt8) (d : Setting)
    (hkey : 32 ≤ d.secret.length) {p : Portal}
    (hp : Reach (Portal.step idKey hmac d) keepsLogin (FreshPortal d) p) : LoginsCurrent idKey p :=
  (portalInv hp).loginsCurrent hkey

/-! ## A password that is kept -/

/-- The next command of the server's only thread, if it puts no other
credentials in force. -/
theorem meets_next (h : AuthHandler) (auth : AuthPool) {s s' : State} {o : Oracle Cmd Cmd.Answer}
    {prog : ServerProg (Option Reply)} {c : Cmd} {k : c.Answer → ServerProg (Option Reply)}
    {r : c.Answer} (hprog : prog = .cmd c k) (he : c.exec d 0 o s = some (r, s'))
    (hkeep : ∀ cfg, c = .writeConfig cfg → s.cfg.server.sameLogin cfg.server = true)
    (es : List PortalEvent) :
    meets (Portal.step idKey hmac d) keepsLogin ⟨⟨s, [prog]⟩, h, auth⟩
        (.server (.thread 0 o) :: es) =
      meets (Portal.step idKey hmac d) keepsLogin ⟨⟨s', [k r]⟩, h, auth⟩ es := by
  subst hprog
  have hkeeps : keepsLogin ⟨⟨s, [.cmd c k]⟩, h, auth⟩ (.server (.thread 0 o)) = true := by
    cases c with
    | writeConfig cfg => exact hkeep cfg rfl
    | _ => rfl
  have hthread : ([.cmd c k] : List (ServerProg (Option Reply)))[0]? = some (.cmd c k) := rfl
  have hstep : Portal.step idKey hmac d ⟨⟨s, [.cmd c k]⟩, h, auth⟩ (.server (.thread 0 o)) =
      ⟨⟨s', [k r]⟩, h, auth⟩ :=
    congrArg (fun server => (⟨server, h, auth⟩ : Portal)) ((server d).run_thread hthread he [])
  rw [meets, hkeeps, hstep]
  rfl

theorem meets_auth (p : Portal) (es : List AuthEvent) :
    meets (Portal.step idKey hmac d) keepsLogin p (es.map .auth) = true := by
  induction es generalizing p with
  | nil => rfl
  | cons e es ih => exact ih (p.step idKey hmac d (.auth e))

def keptSetting : Setting := { plainSetting with secret := List.replicate 32 0 }

abbrev keptStep : Portal → PortalEvent → Portal :=
  Portal.step (fun _ _ _ _ _ _ => none) (fun _ _ => []) keptSetting

def keptStarted : Portal := Portal.new keptSetting writableConfig plainPool writableText 0

/-- A request makes the cluster read-only and leaves the password. -/
def setReadOnly : List ServerEvent :=
  .spawn .putConfig :: (List.replicate 8 (.thread 0 answers) ++ [.thread 0 answers])

/-- The server after the request. -/
def keptServer : ServerPool where
  shared := (putState keptSetting keptStarted.server.shared 0 storedText).release
  threads := [.ret (some (.done 204 none))]

theorem run_setReadOnly : run (server keptSetting).step keptStarted.server setReadOnly =
    keptServer := by
  refine Eq.trans (run_put (s := keptStarted.server.shared) [] rfl marshal_readOnly load_readOnly
    rfl rfl rfl matches_plainPool _) ?_
  rfl

theorem meets_setReadOnly (h : AuthHandler) (auth : AuthPool) {s : State} (hw : s.writer = none)
    (hr : s.readers = []) (hcfg : s.cfg = writableConfig)
    (hmatch : s.pool.mgr.matchesClusters readOnlyConfig.clusters = true) (es : List AuthEvent) :
    meets keptStep keepsLogin ⟨⟨s, []⟩, h, auth⟩ (setReadOnly.map .server ++ es.map .auth) =
      true := by
  obtain ⟨request, hbegin, hrequest⟩ := putConfig_begins (d := keptSetting) readOnlyConfig rfl
  have hput : putCandidate keptSetting writableConfig readOnlyConfig = install writableConfig
      readOnlyConfig storedText "save_config" "config.update" "config.yaml" := by
    have hmarshal : marshal keptSetting.yaml readOnlyConfig = some storedText := marshal_readOnly
    unfold putCandidate
    simp only [fillSecrets_readOnly, readOnlyConfig_valid, hmarshal]
  have hread : (Cmd.readBody .config).exec keptSetting 0 answers s =
    some (some readOnlyConfig, s) := rfl
  have hspawn : keptStep ⟨⟨s, []⟩, h, auth⟩ (.server (.spawn .putConfig)) =
    ⟨⟨s, [Task.prog keptSetting .putConfig]⟩, h, auth⟩ := rfl
  have hcurrent : (s.acquire 0 (.put readOnlyConfig)).cfg = writableConfig := hcfg
  have hsame : (s.acquire 0 (.put readOnlyConfig)).pool.mgr.matchesClusters
    readOnlyConfig.clusters = true := hmatch
  have hkeep : (s.acquire 0 (.put readOnlyConfig)).cfg.server.sameLogin readOnlyConfig.server =
      true := by
    rw [hcurrent]
    decide
  simp only [setReadOnly, List.replicate, List.map_cons, List.map_nil, List.cons_append,
    List.nil_append]
  rw [meets, hspawn]
  refine Eq.trans (meets_next h auth hbegin hread (by simp) _) ?_
  rw [hrequest]
  refine Eq.trans (meets_next h auth rfl (exec_lock hw hr _) (by simp) _) ?_
  refine Eq.trans (meets_next h auth rfl (exec_readConfig hcurrent) (by simp) _) ?_
  show meets keptStep keepsLogin
    ⟨⟨_, [putRest (putCandidate keptSetting writableConfig readOnlyConfig)]⟩, h, auth⟩ _ = true
  rw [hput]
  refine Eq.trans (meets_next h auth rfl (exec_matchesClusters hsame) (by simp) _) ?_
  refine Eq.trans (meets_next h auth rfl (exec_save_ok load_readOnly rfl) (by simp) _) ?_
  refine Eq.trans (meets_next h auth rfl rfl ?_ _) ?_
  · rintro cfg ⟨⟩
    exact hkeep
  refine Eq.trans (meets_next h auth rfl rfl (by simp) _) ?_
  refine Eq.trans (meets_next h auth rfl rfl (by simp) _) ?_
  refine Eq.trans (meets_next h auth rfl rfl (by simp) _) ?_
  exact meets_auth _ es

/-- The configuration has changed, and the password is about to be compared. -/
def keptPortal : Portal :=
  run keptStep { keptStarted with server := keptServer } (logIn.map .auth)

theorem run_kept : run keptStep keptStarted (setReadOnly.map .server ++ logIn.map .auth) =
    keptPortal := by
  rw [run_append, run_server, run_setReadOnly]
  rfl

/-- A request has changed the configuration and kept the password, and a login
with it is compared with the credentials in force. -/
theorem logins_current_kept :
    run keptStep keptStarted (setReadOnly.map .server ++ logIn.map .auth) = keptPortal ∧
      keptPortal.server.threads = [.ret (some (.done 204 none))] ∧
      keptPortal.server.shared.cfg = readOnlyConfig ∧
      keptPortal.auth.threads = [.cmd (.check "192.0.2.10" oldLogin)
        (finishLogin (fun _ _ => []) keptStarted.handler true "192.0.2.10")] ∧
      LoginsCurrent (fun _ _ _ _ _ _ => none) keptPortal := by
  have hfresh : FreshPortal keptSetting keptStarted := ⟨_, _, _, _, rfl⟩
  have hinit : Reach keptStep keepsLogin (FreshPortal keptSetting) keptStarted := .init hfresh
  have hreach := hinit.run
    (meets_setReadOnly keptStarted.handler keptStarted.auth rfl rfl rfl matches_plainPool logIn)
  rw [run_kept] at hreach
  exact ⟨run_kept, rfl, rfl, logIn_compared .., logins_current _ (fun _ _ => []) keptSetting
    (by decide) hreach⟩

end Api

end KafkaManager
