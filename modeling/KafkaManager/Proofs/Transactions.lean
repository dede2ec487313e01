import KafkaManager.Proofs.SaveReplaces
import KafkaManager.Proofs.ServerRequests

/-!
# Transactions are all or nothing, lookups are of one configuration

Two readings of the protocol over every run of a server: what holds when a
transaction unlocks, and what holds when a lookup returns. The run of the
witnesses is one: a request looks up the cluster `a`, and then a save turns on
`readOnly` for it, which changes no connection.
-/

namespace KafkaManager.Api

open Lib Cluster Dashboard

/-! ## A save that changes no connection -/

/-- What the package writes for `readOnlyConfig`. -/
def readOnlyText : List Char :=
  "server:
  listenAddress: :8080
  username: admin
  password: admin
  sessionHours: 12
clusters:
  - id: a
    name: a
    brokers:
      - k1:9092
    readOnly: true
    security:
      protocol: PLAINTEXT
      password: secret
audit:
  directory: ./data/audit
  retentionDays: 30
  maxFileSizeMB: 50
  configBackupRetentionDays: 30
dashboard:
  sampleIntervalSeconds: 15
  historyPoints: 240
".toList

/-- The cluster of `passwordConfig secret`, read-only or not. -/
def secretCluster (readOnly : Bool) : ClusterConfig :=
  { plainCluster "a" "k1:9092" with
    readOnly := readOnly
    security :=
      { protocol := "PLAINTEXT", mechanism := "", username := ""
        password := String.ofList secret, tls := false } }

def writableConfig : Config := passwordConfig secret

def readOnlyConfig : Config := { passwordConfig secret with clusters := [secretCluster true] }

/-- The YAML package on two configurations. -/
def pairYaml (first : Config) (firstText : List Char) (second : Config) (secondText : List Char) :
    Yaml where
  encode c := if c = first then some firstText else if c = second then some secondText else none
  decode _ t :=
    if dropNotes .start t = firstText then some first
    else if dropNotes .start t = secondText then some second
    else none

section

variable {first second : Config} {firstText secondText : List Char}

theorem marshal_pairYaml (h : second ≠ first) :
    marshal (pairYaml first firstText second secondText) second = some (annotate secondText) := by
  have hencode : (pairYaml first firstText second secondText).encode second =
      if second = first then some firstText
      else if second = second then some secondText else none := rfl
  rw [marshal, hencode, if_neg h, if_pos rfl, Option.map_some]

theorem decode_pairYaml (into : Config) {t body : List Char} (h : dropNotes .start t = body) :
    (pairYaml first firstText second secondText).decode into t =
      if body = firstText then some first else if body = secondText then some second else none := by
  rw [← h]
  rfl

theorem load_pairYaml {text : List Char} {cfg : Config} (hnames : Refs.names text = [])
    (hdecode : (pairYaml first firstText second secondText).decode defaultConfig text = some cfg)
    (hvalid : cfg.validate = none) :
    load (pairYaml first firstText second secondText) (fun _ => none) text = .ok cfg := by
  refine load_eq (fun name hname => ?_) ?_ hvalid
  · rw [hnames] at hname
    exact absurd hname (by simp)
  · rw [Refs.expand_of_names_nil _ hnames, hdecode]

theorem load_first (hbody : dropNotes .start firstText = firstText)
    (hnames : Refs.names firstText = []) (hvalid : first.validate = none) :
    load (pairYaml first firstText second secondText) (fun _ => none) firstText = .ok first :=
  load_pairYaml hnames (by rw [decode_pairYaml _ hbody, if_pos rfl]) hvalid

theorem load_second (hbody : dropNotes .start (annotate secondText) = secondText)
    (hnames : Refs.names (annotate secondText) = []) (h : secondText ≠ firstText)
    (hvalid : second.validate = none) :
    load (pairYaml first firstText second secondText) (fun _ => none) (annotate secondText) =
      .ok second :=
  load_pairYaml hnames (by rw [decode_pairYaml _ hbody, if_neg h, if_pos rfl]) hvalid

end

/-- The YAML package on these two. -/
def readOnlyYaml : Yaml where
  encode c :=
    if c = writableConfig then some (passwordText secret)
    else if c = readOnlyConfig then some readOnlyText
    else none
  decode _ t :=
    if dropNotes .start t = passwordText secret then some writableConfig
    else if dropNotes .start t = readOnlyText then some readOnlyConfig
    else none

/-- The file the server starts with, written by hand. -/
@[irreducible] def writableText : List Char := passwordText secret

/-- The file the save of `readOnlyConfig` leaves. -/
@[irreducible] def storedText : List Char := annotate readOnlyText

/-- A hash that tells a text with comments from one without: it looks at the
beginning. -/
def prefixSum (text : List Char) : List UInt8 := (text.take 32).map fun c => UInt8.ofNat c.toNat

def plainSetting : Setting where
  yaml := readOnlyYaml
  gcm := closedGcm
  env _ := none
  secret := []
  sum256 := prefixSum
  store := true

/-- The sampler's first `Upsert` of the cluster has succeeded. -/
def connectActions : List Action :=
  [.start (.upsert (secretCluster false)), .move 1 (.create (some (7, true))), .move 1 (.ping true),
    .move 1 .commit]

def plainPool : Sys := run Sys.step (Sys.initWith writableConfig.clusters) connectActions

set_option maxRecDepth 4000 in
theorem readOnlyText_annotated :
    dropNotes .start (annotate readOnlyText) = readOnlyText ∧
      Refs.names (annotate readOnlyText) = [] ∧ readOnlyText ≠ passwordText secret := by
  unfold annotate passwordText
  rw [show readOnlyText = _ from toList_eq rfl, show header = _ from toList_eq rfl,
    show beforePassword = _ from toList_eq rfl, show afterPassword = _ from toList_eq rfl,
    show clustersKey = _ from toList_eq rfl, show auditKey = _ from toList_eq rfl,
    show dashboardKey = _ from toList_eq rfl, show clustersNote = _ from toList_eq rfl,
    show auditNote = _ from toList_eq rfl, show dashboardNote = _ from toList_eq rfl]
  exact ⟨by decide +kernel, by decide +kernel, by decide +kernel⟩

theorem readOnlyConfig_ne : readOnlyConfig ≠ writableConfig := by
  intro h
  have hro := congrArg (fun c : Config => c.clusters.map ClusterConfig.readOnly) h
  exact absurd hro (by decide)

theorem readOnlyConfig_valid : readOnlyConfig.validate = none := by
  have hadmin : isBlank "admin" = false := not_blank rfl (by decide)
  have ha : isBlank "a" = false := not_blank rfl (by decide)
  have hbroker : isBlank "k1:9092" = false := not_blank rfl (by decide)
  unfold readOnlyConfig passwordConfig Config.validate
  simp [defaultConfig, secretCluster, plainCluster, validateClusters, validateCluster, hadmin, ha,
    hbroker]

theorem marshal_readOnly : marshal readOnlyYaml readOnlyConfig = some storedText := by
  unfold storedText
  exact marshal_pairYaml readOnlyConfig_ne

theorem load_readOnly : load readOnlyYaml (fun _ => none) storedText = .ok readOnlyConfig := by
  unfold storedText
  obtain ⟨hbody, hnames, hne⟩ := readOnlyText_annotated
  exact load_second hbody hnames hne readOnlyConfig_valid

theorem load_writable : load readOnlyYaml (fun _ => none) writableText = .ok writableConfig := by
  unfold writableText
  exact load_first (dropNotes_passwordText (by decide))
    ((names_passwordText secret).trans (by decide)) (passwordConfig_valid secret)

/-- `Runtime` of what is in clear. -/
theorem loadRuntime_clear {text : List Char} {cfg : Config}
    (hload : load plainSetting.yaml plainSetting.env text = .ok cfg)
    (hclear : ∀ c ∈ cfg.clusters, c.InClear) : plainSetting.loadRuntime text = some cfg := by
  unfold Setting.loadRuntime
  rw [hload]
  simp only
  rw [runtime_eq_self.2 hclear]
  rfl

theorem loadRuntime_readOnly : plainSetting.loadRuntime storedText = some readOnlyConfig := by
  refine loadRuntime_clear load_readOnly fun c hc => ?_
  obtain rfl := List.mem_singleton.1 hc
  show ¬ encryptedPrefix <+: (String.ofList secret).toList
  rw [String.toList_ofList]
  decide

theorem loadRuntime_writable : plainSetting.loadRuntime writableText = some writableConfig :=
  loadRuntime_clear load_writable (passwordConfig_inClear (by decide))

theorem fillSecrets_readOnly : fillSecrets writableConfig readOnlyConfig = readOnlyConfig := by
  decide

theorem kafka_plainPool :
    (plainPool.start (.setDesired writableConfig.clusters)).mgr.kafka "a" =
      some ⟨7, secretCluster false, true⟩ := by
  decide +kernel

theorem matches_plainPool :
    (plainPool.start (.setDesired writableConfig.clusters)).mgr.matchesClusters
      readOnlyConfig.clusters = true := by
  decide +kernel

/-! ## The run -/

/-- What the outside answers: the body of the request, a save that succeeds, a
file that can be read, a topic that is deleted. -/
def answers : Oracle Cmd Cmd.Answer
  | .readBody .config => some (some readOnlyConfig)
  | .save _ => some none
  | .readFile => some (.ok [])
  | .kafka _ _ (.deleteTopic _) => some none
  | _ => none

section

variable {d : Setting} {t : Nat} {o : Oracle Cmd Cmd.Answer} {s : State}

theorem exec_lock (hw : s.writer = none) (hr : s.readers = []) (txn : Txn) :
    (Cmd.lock txn).exec d t o s = some ((), s.acquire t txn) := by
  simp only [Cmd.exec]
  rw [if_pos (by rw [hw, hr]; rfl)]

theorem exec_clusterConfig {id : String} {entry : Option ClusterConfig}
    (h : s.cfg.cluster id = entry) :
    (Cmd.clusterConfig id).exec d t o s = some (entry, s.note (.lookup t id entry)) := by
  rw [← h]
  rfl

theorem exec_readConfig {cfg : Config} (h : s.cfg = cfg) :
    Cmd.readConfig.exec d t o s = some (cfg, s) := by
  rw [← h]
  rfl

theorem exec_matchesClusters {clusters : List ClusterConfig} {r : Bool}
    (h : s.pool.mgr.matchesClusters clusters = r) :
    (Cmd.matchesClusters clusters).exec d t o s = some (r, s) := by
  rw [← h]
  rfl

theorem exec_kafkaClient {id : String} {r : Option Client} (h : s.pool.mgr.kafka id = r) :
    (Cmd.kafkaClient id).exec d t o s = some (r, s) := by
  rw [← h]
  rfl

theorem exec_save_ok {text : List Char} {persisted : Config}
    (hload : load d.yaml d.env text = .ok persisted) (ho : o (.save text) = some none) :
    (Cmd.save text).exec d t o s = some (none, s.store d text) := by
  simp only [Cmd.exec, hload, ho]

theorem exec_save_error {text : List Char} {e : LoadError}
    (hload : load d.yaml d.env text = .error e) :
    (Cmd.save text).exec d t o s = some (some (.load e), s) := by
  simp only [Cmd.exec, hload]

end

variable {d : Setting} {s : State}

/-- The next command of the thread started last. -/
theorem run_newest {s' : State} {o : Oracle Cmd Cmd.Answer}
    {threads : List (ServerProg (Option Reply))} {p : ServerProg (Option Reply)} {c : Cmd}
    {k : c.Answer → ServerProg (Option Reply)} {r : c.Answer} (hp : p = .cmd c k)
    (he : c.exec d threads.length o s = some (r, s')) (es : List ServerEvent) :
    run (server d).step { shared := s, threads := threads ++ [p] }
        (.thread threads.length o :: es) =
      run (server d).step { shared := s', threads := threads ++ [k r] } es :=
  (server d).run_last hp he es

/-- The server after a save, the lock still held. -/
def savedState (d : Setting) (s : State) (t : Nat) (candidate cfg : Config) (data : List Char) : State :=
  (((s.acquire t (.put candidate)).store d data).setConfig cfg).setMonitor
    (s.monitor.update cfg.clusters (dashboardOptions cfg))

/-- What is left of `putConfig` when it has read the configuration. -/
def putRest (p : ServerProg Reply) : ServerProg (Option Reply) :=
  replied (p >>= fun r => .cmd (.unlock r.failed) fun _ => .ret r)

theorem putConfig_begins (candidate : Config) (hstore : d.store = true) : ∃ request,
    Task.prog d .putConfig = .cmd (.readBody .config) request ∧ request (some candidate) =
      replied (transaction (.put candidate) Reply.failed (putLocked d candidate)) := by
  simp only [Task.prog, putConfig, hstore]
  exact ⟨_, rfl, rfl⟩

/-- A thread started in a server that runs `current` is to save `candidate`, up
to the configuration it reads. -/
theorem run_toCandidate {o : Oracle Cmd Cmd.Answer} {current candidate : Config}
    (threads : List (ServerProg (Option Reply))) (hstore : d.store = true)
    (hbody : o (.readBody .config) = some (some candidate)) (hw : s.writer = none)
    (hr : s.readers = []) (hcfg : s.cfg = current) (es : List ServerEvent) :
    run (server d).step { shared := s, threads := threads }
        (.spawn .putConfig :: (List.replicate 3 (.thread threads.length o) ++ es)) =
      run (server d).step
        { shared := s.acquire threads.length (.put candidate)
          threads := threads ++ [putRest (putCandidate d current candidate)] }
        es := by
  obtain ⟨request, hbegin, hrequest⟩ := putConfig_begins candidate hstore
  have hread : (Cmd.readBody .config).exec d threads.length o s = some (some candidate, s) := by
    simp only [Cmd.exec, hbody, Option.map_some]
  have hcurrent : (s.acquire threads.length (.put candidate)).cfg = current := hcfg
  rw [(server d).run_spawn]
  simp only [List.replicate, List.cons_append, List.nil_append]
  refine Eq.trans (run_newest hbegin hread _) ?_
  rw [hrequest]
  refine Eq.trans (run_newest rfl (exec_lock hw hr _) _) ?_
  exact run_newest rfl (exec_readConfig hcurrent) _

/-- The newest thread is to install `cfg`, up to its unlock. No connection
changes. -/
theorem run_installed {o : Oracle Cmd Cmd.Answer} {current cfg persisted : Config}
    (threads : List (ServerProg (Option Reply))) {data : List Char} {code action resource : String}
    (hload : load d.yaml d.env data = .ok persisted) (hsave : o (.save data) = some none)
    (hmatch : s.pool.mgr.matchesClusters cfg.clusters = true) (es : List ServerEvent) :
    run (server d).step
        { shared := s
          threads := threads ++ [putRest (install current cfg data code action resource)] }
        (List.replicate 5 (.thread threads.length o) ++ es) =
      run (server d).step
        { shared := ((s.store d data).setConfig cfg).setMonitor
            (s.monitor.update cfg.clusters (dashboardOptions cfg))
          threads := threads ++ [.cmd (.unlock false) fun _ => .ret (some (.done 204 none))] }
        es := by
  simp only [List.replicate, List.cons_append, List.nil_append]
  refine Eq.trans (run_newest rfl (exec_matchesClusters hmatch) _) ?_
  refine Eq.trans (run_newest rfl (exec_save_ok hload hsave) _) ?_
  refine Eq.trans (run_newest rfl rfl _) ?_
  refine Eq.trans (run_newest rfl rfl _) ?_
  exact run_newest rfl rfl _

theorem putCandidate_install {current candidate cfg : Config} {data : List Char}
    (hfill : fillSecrets current candidate = cfg) (hvalid : cfg.validate = none)
    (hmarshal : marshal d.yaml cfg = some data) :
    putCandidate d current candidate =
      install current cfg data "save_config" "config.update" "config.yaml" := by
  unfold putCandidate
  simp only [hfill, hvalid, hmarshal]

/-- A thread started in a server that runs `current` saves what `candidate` is
completed to, up to its unlock. No connection changes. -/
theorem run_save {o : Oracle Cmd Cmd.Answer} {current candidate cfg persisted : Config}
    (threads : List (ServerProg (Option Reply))) {data : List Char} (hstore : d.store = true)
    (hbody : o (.readBody .config) = some (some candidate))
    (hfill : fillSecrets current candidate = cfg) (hvalid : cfg.validate = none)
    (hmarshal : marshal d.yaml cfg = some data) (hload : load d.yaml d.env data = .ok persisted)
    (hsave : o (.save data) = some none) (hw : s.writer = none) (hr : s.readers = [])
    (hcfg : s.cfg = current) (hmatch : s.pool.mgr.matchesClusters cfg.clusters = true)
    (es : List ServerEvent) :
    run (server d).step { shared := s, threads := threads }
        (.spawn .putConfig :: (List.replicate 8 (.thread threads.length o) ++ es)) =
      run (server d).step
        { shared := savedState d s threads.length candidate cfg data
          threads := threads ++ [.cmd (.unlock false) fun _ => .ret (some (.done 204 none))] }
        es := by
  have hsame : (s.acquire threads.length (.put candidate)).pool.mgr.matchesClusters
      cfg.clusters = true := hmatch
  rw [List.replicate_add 3 5, List.append_assoc,
    run_toCandidate threads hstore hbody hw hr hcfg,
    putCandidate_install hfill hvalid hmarshal, run_installed threads hload hsave hsame]
  rfl

/-- The server after the save, the lock still held. -/
def putState (d : Setting) (s : State) (t : Nat) (data : List Char) : State :=
  (((s.acquire t (.put readOnlyConfig)).store d data).setConfig readOnlyConfig).setMonitor
    (s.monitor.update readOnlyConfig.clusters (dashboardOptions readOnlyConfig))

/-- The save of `readOnlyConfig`. -/
theorem run_put (threads : List (ServerProg (Option Reply))) {data : List Char}
    (hstore : d.store = true) (hmarshal : marshal d.yaml readOnlyConfig = some data)
    (hload : load d.yaml d.env data = .ok readOnlyConfig) (hw : s.writer = none)
    (hr : s.readers = []) (hcfg : s.cfg = writableConfig)
    (hmatch : s.pool.mgr.matchesClusters readOnlyConfig.clusters = true)
    (es : List ServerEvent) :
    run (server d).step { shared := s, threads := threads }
        (.spawn .putConfig :: (List.replicate 8 (.thread threads.length answers) ++ es)) =
      run (server d).step
        { shared := putState d s threads.length data
          threads := threads ++ [.cmd (.unlock false) fun _ => .ret (some (.done 204 none))] }
        es :=
  run_save threads hstore rfl fillSecrets_readOnly readOnlyConfig_valid hmarshal hload rfl hw hr hcfg
    hmatch es

def ordersClient : Client := ⟨7, secretCluster false, true⟩

/-- The rest of `deleteTopic` behind its guard. -/
def deleteOrders : ServerProg (Option Reply) :=
  replied do
    let err ← through "a" ordersClient (Topic.delete "orders")
    answer "topic.delete" "orders" (err.map .topic) (.done 204 none)

/-- The server after the guard has looked, the lock still shared. -/
def guardState (s : State) (t : Nat) : State :=
  ((s.enter t).note (.lookup t "a" (some (secretCluster false)))).note
    (.lookup t "a" (some (secretCluster false)))

/-- A thread is to delete a topic, up to the unlock of its guard. -/
theorem run_guard (threads : List (ServerProg (Option Reply))) (hw : s.writer = none)
    (hentry : s.cfg.cluster "a" = some (secretCluster false))
    (hclient : s.pool.mgr.kafka "a" = some ordersClient) (es : List ServerEvent) :
    run (server d).step { shared := s, threads := threads }
        (.spawn (.deleteTopic "a" "orders") ::
          (List.replicate 4 (.thread threads.length answers) ++ es)) =
      run (server d).step
        { shared := guardState s threads.length
          threads := threads ++
            [.cmd (.rUnlock (some ⟨"a", ordersClient, secretCluster false⟩)) fun _ =>
              deleteOrders] }
        es := by
  have hlock : (Cmd.rLock).exec d threads.length answers s = some ((), s.enter threads.length) := by
    simp only [Cmd.exec]
    rw [if_pos (by rw [hw]; rfl)]
  have hentry₁ : (s.enter threads.length).cfg.cluster "a" = some (secretCluster false) := hentry
  have hentry₂ : ((s.enter threads.length).note
      (.lookup threads.length "a" (some (secretCluster false)))).cfg.cluster "a" =
        some (secretCluster false) := hentry
  have hclient' : (guardState s threads.length).pool.mgr.kafka "a" = some ordersClient := hclient
  simp only [List.replicate, List.cons_append, List.nil_append]
  show run (server d).step
    { shared := s, threads := threads ++ [Task.prog d (.deleteTopic "a" "orders")] } _ = _
  refine Eq.trans (run_newest rfl hlock _) ?_
  refine Eq.trans (run_newest rfl (exec_clusterConfig hentry₁) _) ?_
  refine Eq.trans (run_newest rfl (exec_clusterConfig hentry₂) _) ?_
  exact run_newest rfl (exec_kafkaClient hclient') _

/-- The server of `main` with `writableConfig`, its cluster connected. -/
def plainStarted : ServerPool := started plainSetting writableConfig plainPool writableText

theorem connectActions_before : BeforeServer connectActions := by
  intro a ha clusters heq
  subst heq
  simp [connectActions] at ha

theorem plainStarted_entry :
    plainStarted.shared.cfg.cluster "a" = some (secretCluster false) := by
  decide

/-- The pool before the save unlocks. -/
def savePool : ServerPool where
  shared := putState plainSetting plainStarted.shared 0 storedText
  threads := [.cmd (.unlock false) fun _ => .ret (some (.done 204 none))]

/-- The pool before the guard unlocks. -/
def guardPool : ServerPool where
  shared := guardState plainStarted.shared 0
  threads := [.cmd (.rUnlock (some ⟨"a", ordersClient, secretCluster false⟩)) fun _ => deleteOrders]

theorem reachable_of_run {p : ServerPool} (es : List ServerEvent)
    (h : run (server plainSetting).step plainStarted es = p) : Reachable plainSetting p :=
  ⟨writableConfig, connectActions, writableText, es, Config.validate_ids (passwordConfig_valid secret),
    connectActions_before, h.symm⟩

theorem savePool_reachable : Reachable plainSetting savePool :=
  reachable_of_run _ (run_put [] rfl marshal_readOnly load_readOnly rfl rfl rfl matches_plainPool [])

theorem guardPool_reachable : Reachable plainSetting guardPool :=
  reachable_of_run _ (run_guard [] rfl plainStarted_entry kafka_plainPool [])

/-! ## The results -/

variable {p : ServerPool}

/-- A transaction is all or nothing: whenever one is about to unlock, pool and
sampler agree with the configuration in force, which is the new one if it
reports success and the old one, with everything that belongs to it, if it
reports an error. While none holds the lock they agree as well. -/
theorem transactions_all_or_nothing (d : Setting) (hp : Reachable d p) :
    (∀ (t : Nat) (failed : Bool) (k : Unit → ServerProg (Option Reply)),
      p.threads[t]? = some (.cmd (.unlock failed) k) →
        ∃ h, p.shared.writer = some h ∧ h.thread = t ∧ AllOrNothing failed h p.shared) ∧
      (p.shared.writer = none →
        p.shared.pool.mgr.matchesClusters p.shared.cfg.clusters = true ∧
          p.shared.monitor.configs = enabledClusters p.shared.cfg.clusters) := by
  refine ⟨fun t failed k ht => hp.ok.pre ht, fun hw => ?_⟩
  have hsettled := hp.ok.inv.settled hw
  exact ⟨(hsettled.idle.matchesClusters hp.ok.inv.pool _).2 rfl, hsettled.configs⟩

theorem transactions_all_or_nothing_save :
    savePool.shared.cfg = readOnlyConfig ∧
      ∃ h, savePool.shared.writer = some h ∧ h.thread = 0 ∧ AllOrNothing false h savePool.shared :=
  ⟨rfl, (transactions_all_or_nothing plainSetting savePool_reachable).1 0 false _ rfl⟩

/-- Whatever a lookup returns belongs together: the configuration is the entry
of that id in force, and the client was created for its connection. -/
theorem lookups_paired (d : Setting) (hp : Reachable d p) (t : Nat) (found : Found)
    (k : Unit → ServerProg (Option Reply))
    (ht : p.threads[t]? = some (.cmd (.rUnlock (some found)) k)) :
    p.shared.cfg.cluster found.id = some found.cfg ∧
      Cluster.sameConnection found.client.createdFrom found.cfg = true := by
  have hpaired : Paired found p.shared := hp.ok.pre ht
  exact ⟨hpaired.entry, hpaired.client⟩

theorem lookups_paired_guard :
    guardPool.shared.cfg.cluster "a" = some (secretCluster false) ∧
      Cluster.sameConnection ordersClient.createdFrom (secretCluster false) = true :=
  lookups_paired plainSetting guardPool_reachable 0 ⟨"a", ordersClient, secretCluster false⟩ _ rfl

end KafkaManager.Api
