import KafkaManager.Proofs.LiveInvariant
import KafkaManager.Proofs.Transactions

/-!
# Figures are measured on the cluster they are shown for

A call of the source remembers its configuration and finds its client by the id
alone. If whatever the pool desires under that id, whenever a call looks, is the
call's connection, everything the sampler holds was measured through clients of
the current connection.

Without that it is not: a save that fails goes back to the old connections, and
what was measured on the new ones in between passes for the old cluster's.
-/

namespace KafkaManager.Api

open Lib Cluster Dashboard

/-- A result that may stand for this cluster. -/
structure MeasuredOn (cfg : ClusterConfig) (r : Result) : Prop where
  own : ∀ client, r.via = some client → Own cfg client
  online : r.snapshot.status = .online → r.via ≠ none

/-- What the sampler holds of a cluster comes from these results. -/
structure HeldFrom (s : Sampler) (cfg : ClusterConfig) (cs : List Commit) : Prop where
  item : s.items[cfg.id]? = some (shown cfg cs)
  history : ∃ l, s.history[cfg.id]? = some l ∧ l <:+ points cs

/-- All figures are their cluster's own. -/
def OwnFigures (l : Live) : Prop :=
  ∀ cfg ∈ l.server.shared.monitor.configs,
    HeldFrom l.server.shared.monitor cfg (commits cfg.id l.log) ∧
      ∀ c ∈ commits cfg.id l.log, MeasuredOn cfg c.result

theorem LiveInv.ownFigures {d : Setting} {l : Live} (h : LiveInv d l) : OwnFigures l := by
  intro cfg hcfg
  have hfollows : Follows l.server.shared.monitor l.log := h.known.follows
  have hentry := entry_of_mem hfollows.distinct hcfg
  refine ⟨⟨?_, ?_⟩, fun c hc => ?_⟩
  · rw [hfollows.item, hentry, Option.map_some]
  · obtain ⟨ps, hps, hkept⟩ := hfollows.kept cfg.id cfg hentry
    exact ⟨ps, hps, hkept.suffix⟩
  · obtain ⟨-, hsame, -⟩ := hfollows.source cfg.id cfg hentry c hc
    have hmeasured : Measured c.result := h.committed c (mem_of_mem_commits hc)
    refine ⟨fun client hclient => ?_, hmeasured.online⟩
    have hown := hmeasured.own client hclient
    rw [Dashboard.sameConnection_iff] at hsame
    unfold Own Cluster.sameConnection at hown ⊢
    rw [hsame.1, hsame.2]
    exact hown

/-! ## A save that fails meanwhile

A request names another broker and a variable that is not set. Its `Apply`
succeeds, its save does not, and it puts the old connections back; in between
the source looks up the client and measures the other broker.
-/

/-- As `beforePassword`, on another broker. -/
def beforeMoved : List Char :=
  "server:
  listenAddress: :8080
  username: admin
  password: admin
  sessionHours: 12
clusters:
  - id: a
    name: a
    brokers:
      - k2:9092
    security:
      protocol: PLAINTEXT
      password: ".toList

/-- What the package writes for `movedConfig`. -/
def movedText : List Char := beforeMoved ++ (homeRef ++ '\n' :: afterPassword)

def movedCluster : ClusterConfig :=
  { plainCluster "a" "k2:9092" with
    security :=
      { protocol := "PLAINTEXT", mechanism := "", username := ""
        password := String.ofList homeRef, tls := false } }

def movedConfig : Config := { passwordConfig secret with clusters := [movedCluster] }

/-- The YAML package on these two. -/
def movedYaml : Yaml where
  encode c :=
    if c = writableConfig then some (passwordText secret)
    else if c = movedConfig then some movedText
    else none
  decode _ t :=
    if dropNotes .start t = passwordText secret then some writableConfig
    else if dropNotes .start t = movedText then some movedConfig
    else none

def movedSetting : Setting := { plainSetting with yaml := movedYaml }

/-- What the outside answers the request. -/
def movedAnswers : Oracle Cmd Cmd.Answer
  | .readBody .config => some (some movedConfig)
  | _ => none

/-- A cluster with one broker and nothing on it. -/
def sourceAnswers : Oracle SourceCmd SourceCmd.Answer
  | .now => some 0
  | .listBrokers _ => some (.ok 1)
  | .listTopics _ => some (.ok [])
  | .listGroups _ => some (.ok [])
  | _ => none

def putTurns (n : Nat) : List LiveEvent := List.replicate n (.server (.thread 0 movedAnswers))

def sourceTurns (n : Nat) : List LiveEvent := List.replicate n (.turn 0 sourceAnswers 1000000)

/-- How the pool connects a cluster. -/
def connectingMoves (serial : Nat) : List Move :=
  [.create (some (serial, true)), .ping true, .commit, .close]

def envMoves (o serial : Nat) : List LiveEvent :=
  (connectingMoves serial).map fun v => .server (.env (.move o v))

def liveStarted : Live := Live.new movedSetting writableConfig plainPool writableText

/-- A save that fails while the cluster is measured. -/
def failingSave : List LiveEvent :=
  [.start 0, .call 0] ++ .server (.spawn .putConfig) :: (putTurns 3 ++ (putTurns 2 ++
    (envMoves 3 8 ++ (putTurns 1 ++ (sourceTurns 6 ++ (putTurns 2 ++ (envMoves 4 9 ++
      (putTurns 2 ++ [.turn 0 sourceAnswers 1000000, .commit fun _ => 5]))))))))

/-! ## The configuration of the request -/

set_option maxRecDepth 2000 in
theorem beforeMoved_plain : '$' ∉ beforeMoved := by
  rw [show beforeMoved = _ from toList_eq rfl]
  decide

set_option maxRecDepth 4000 in
theorem movedText_aligned : Aligned movedText := by
  unfold Aligned movedText
  rw [show beforeMoved = _ from toList_eq rfl, show afterPassword = _ from toList_eq rfl,
    show clustersKey = _ from toList_eq rfl, show auditKey = _ from toList_eq rfl,
    show dashboardKey = _ from toList_eq rfl, show clustersNote = _ from toList_eq rfl,
    show auditNote = _ from toList_eq rfl]
  exact ⟨alignedAt_of (by decide +kernel), alignedAt_of (by decide +kernel),
    alignedAt_of (by decide +kernel)⟩

theorem names_movedText : Refs.names movedText = [['H', 'O', 'M', 'E']] := by
  have hplain : Refs.names movedText = Refs.names (passwordText homeRef) := by
    rw [movedText, passwordText, Refs.names_append_of_plain beforeMoved_plain,
      Refs.names_append_of_plain beforePassword_plain.1]
  rw [hplain, names_passwordText]
  decide

theorem load_moved : load movedYaml (fun _ => none) (annotate movedText) =
    .error (.missing ['H', 'O', 'M', 'E']) := by
  refine load_missing ?_
  rw [(annotated_annotate movedText_aligned).names, names_movedText]
  rfl

theorem movedConfig_ne : movedConfig ≠ writableConfig := by
  intro h
  have hbrokers := congrArg (fun c : Config => c.clusters.map ClusterConfig.brokers) h
  exact absurd hbrokers (by decide)

theorem marshal_moved : marshal movedYaml movedConfig = some (annotate movedText) := by
  have hencode : movedYaml.encode movedConfig =
      if movedConfig = writableConfig then some (passwordText secret)
      else if movedConfig = movedConfig then some movedText else none := rfl
  rw [marshal, hencode, if_neg movedConfig_ne, if_pos rfl, Option.map_some]

theorem movedConfig_valid : movedConfig.validate = none := by
  have hadmin : isBlank "admin" = false := not_blank rfl (by decide)
  have ha : isBlank "a" = false := not_blank rfl (by decide)
  have hbroker : isBlank "k2:9092" = false := not_blank rfl (by decide)
  unfold movedConfig passwordConfig Config.validate
  simp [defaultConfig, movedCluster, plainCluster, validateClusters, validateCluster, hadmin, ha,
    hbroker]

theorem fillSecrets_moved : fillSecrets writableConfig movedConfig = movedConfig := by
  decide

theorem putCandidate_moved : putCandidate movedSetting writableConfig movedConfig =
    install writableConfig movedConfig (annotate movedText) "save_config" "config.update"
      "config.yaml" :=
  putCandidate_install fillSecrets_moved movedConfig_valid marshal_moved

/-! ## Steps of the run -/

section

variable {d : Setting} {s : State} {refresh : Option Refresh} {sources : GoMap Nat SourceRun}
  {log : List Moment} {o : Oracle Cmd Cmd.Answer}

/-- The next command of the only thread. -/
theorem live_thread {s' : State} {p : ServerProg (Option Reply)} {c : Cmd}
    {k : c.Answer → ServerProg (Option Reply)} {r : c.Answer} (hp : p = .cmd c k)
    (hu : updates { shared := s, threads := [.cmd c k] } (.thread 0 o) = none)
    (he : c.exec d 0 o s = some (r, s')) (es : List LiveEvent) :
    run (Live.step d) ⟨{ shared := s, threads := [p] }, refresh, sources, log⟩
        (.server (.thread 0 o) :: es) =
      run (Live.step d) ⟨{ shared := s', threads := [k r] }, refresh, sources, log⟩ es := by
  subst hp
  have hget : ([.cmd c k] : List (ServerProg (Option Reply)))[0]? = some (.cmd c k) := rfl
  have hserver : (server d).step { shared := s, threads := [.cmd c k] } (.thread 0 o) =
      { shared := s', threads := [k r] } := (server d).run_thread hget he []
  have hstep : Live.step d ⟨{ shared := s, threads := [.cmd c k] }, refresh, sources, log⟩
      (.server (.thread 0 o)) =
        ⟨{ shared := s', threads := [k r] }, refresh, sources, log⟩ := by
    show Live.serverStep _ d _ = _
    unfold Live.serverStep
    simp only [hu, hserver]
    rfl
  rw [run_cons, hstep]

/-- The same where it is the update of the sampler. -/
theorem live_update {cfg : Config} {k : Unit → ServerProg (Option Reply)} (es : List LiveEvent) :
    run (Live.step d)
        ⟨{ shared := s, threads := [.cmd (.updateMonitor cfg) k] }, refresh, sources, log⟩
        (.server (.thread 0 o) :: es) =
      run (Live.step d)
        ⟨{ shared := s.setMonitor (s.monitor.update cfg.clusters (dashboardOptions cfg))
           threads := [k ()] }, refresh, sources,
          .updated (enabledClusters cfg.clusters) (normalizeOptions (dashboardOptions cfg)) :: log⟩
        es := rfl

/-- Moves of an operation while no reload is under way. -/
theorem live_moves {threads : List (ServerProg (Option Reply))} (hs : s.reloading = false)
    {o : Nat} {vs : List Move} {p : Sys}
    (hp : run Sys.step s.pool (vs.map fun v => .move o v) = p) (es : List LiveEvent) :
    run (Live.step d) ⟨{ shared := s, threads }, refresh, sources, log⟩
        (vs.map (fun v => LiveEvent.server (.env (.move o v))) ++ es) =
      run (Live.step d) ⟨{ shared := s.setPool p, threads }, refresh, sources, log⟩ es := by
  induction vs generalizing s with
  | nil =>
      subst hp
      rfl
  | cons v vs ih =>
      have hexec : (Outside.move o v).exec d s = s.setPool (s.pool.move o v) :=
        if_neg (by simp [State.failsReload, hs])
      have hstep : Live.step d ⟨{ shared := s, threads }, refresh, sources, log⟩
          (.server (.env (.move o v))) =
            ⟨{ shared := s.setPool (s.pool.move o v), threads }, refresh, sources, log⟩ := by
        rw [← hexec]
        rfl
      rw [List.map_cons, List.cons_append, run_cons, hstep]
      exact ih hs hp

/-- A step of the call of goroutine 0. -/
theorem live_turn {p p' : ServerPool} {cfg : ClusterConfig} {prog : SourceProg Snapshot}
    {via : Option Client} {c : SourceCmd} {cont : c.Answer → SourceProg Snapshot} {r : c.Answer}
    (hprog : prog = .cmd c cont) (he : sourceExec d p sourceAnswers c = some (r, p'))
    (es : List LiveEvent) :
    run (Live.step d) ⟨p, refresh, sources.insert 0 ⟨cfg, prog, via⟩, log⟩
        (.turn 0 sourceAnswers 1000000 :: es) =
      run (Live.step d)
        ⟨p', refresh, sources.insert 0 ⟨cfg, cont r, c.client.or via⟩, log⟩ es := by
  subst hprog
  have hget : (sources.insert 0 ⟨cfg, .cmd c cont, via⟩)[0]? =
      some (⟨cfg, .cmd c cont, via⟩ : SourceRun) := by
    rw [GoMap.get_insert, if_pos rfl]
  rw [run_cons]
  congr 1
  show Live.turn _ d 0 sourceAnswers 1000000 = _
  unfold Live.turn
  simp only [hget, he, GoMap.insert_insert]

end

/-! ## The pool -/

/-- A pool after an `Apply` that succeeds. -/
def applied (p : Sys) (clusters : List ClusterConfig) (serial : Nat) : Sys :=
  run Sys.step (p.start (.apply clusters)) ((connectingMoves serial).map fun v => .move p.ops.length v)

/-- The operation has returned without an error. -/
def succeeded (p : Sys) (o : Nat) : Bool :=
  match p.ops[o]? with
  | some (.closing [] none) => true
  | _ => false

theorem exec_await {d : Setting} {t o : Nat} {answers : Oracle Cmd Cmd.Answer} {s : State}
    (h : succeeded s.pool o = true) : (Cmd.await o).exec d t answers s = some (none, s) := by
  unfold succeeded at h
  split at h
  · next hop => simp only [Cmd.exec, hop]
  · cases h

@[irreducible] def startedPool : Sys := plainPool.start (.setDesired writableConfig.clusters)

@[irreducible] def movedPool : Sys := applied startedPool movedConfig.clusters 8

@[irreducible] def restoredPool : Sys := applied movedPool writableConfig.clusters 9

theorem pools : startedPool.mgr.matchesClusters movedConfig.clusters = false ∧
    startedPool.ops.length = 3 ∧ succeeded movedPool 3 = true ∧
    movedPool.mgr.kafka "a" = some ⟨8, movedCluster, true⟩ ∧ movedPool.ops.length = 4 ∧
    succeeded restoredPool 4 = true := by
  decide +kernel

/-! ## The run -/

/-- What a cluster with one broker and nothing on it gives. -/
def emptyFigures : Snapshot := KafkaSource.recordLag (KafkaSource.online 0 1 [] []) (.ok 0)

/-- The call of the source on a client that answers. -/
theorem run_measure {d : Setting} {p : ServerPool} {client : Client}
    (hp : p.shared.pool.mgr.kafka "a" = some client) {refresh : Option Refresh}
    {sources : GoMap Nat SourceRun} {log : List Moment} (es : List LiveEvent) :
    run (Live.step d) ⟨p, refresh, sources.insert 0
        ⟨secretCluster false, KafkaSource.snapshot (secretCluster false), none⟩, log⟩
        (sourceTurns 6 ++ es) =
      run (Live.step d) ⟨p, refresh, sources.insert 0
        ⟨secretCluster false, .ret emptyFigures, some client⟩, log⟩ es := by
  have hlookup : sourceExec d p sourceAnswers (.kafka "a") = some (some client, p) := by
    rw [← hp]
    rfl
  simp only [sourceTurns, List.replicate, List.cons_append, List.nil_append]
  refine Eq.trans (live_turn rfl hlookup _) ?_
  refine Eq.trans (live_turn rfl rfl _) ?_
  refine Eq.trans (live_turn rfl rfl _) ?_
  refine Eq.trans (live_turn rfl rfl _) ?_
  refine Eq.trans (live_turn rfl rfl _) ?_
  refine Eq.trans (live_turn rfl rfl _) ?_
  rfl

/-- The request from `install` on, the source at work in between. -/
theorem run_install {s : State} (hreload : s.reloading = false)
    (hpool : s.pool = startedPool) {refresh : Option Refresh} {sources : GoMap Nat SourceRun}
    {log : List Moment} (es : List LiveEvent) :
    run (Live.step movedSetting)
        ⟨{ shared := s, threads := [replied (install writableConfig movedConfig
            (annotate movedText) "save_config" "config.update" "config.yaml" >>= fun r =>
              Prog.cmd (.unlock r.failed) fun _ => .ret r)] }, refresh, sources.insert 0
          ⟨secretCluster false, KafkaSource.snapshot (secretCluster false), none⟩, log⟩
        (putTurns 2 ++ (envMoves 3 8 ++ (putTurns 1 ++ (sourceTurns 6 ++ (putTurns 2 ++
          (envMoves 4 9 ++ (putTurns 2 ++ es))))))) =
      run (Live.step movedSetting)
        ⟨{ shared := (s.setPool restoredPool).release
           threads := [.ret (some (.error 500 "save_config"
            (.save (.load (.missing ['H', 'O', 'M', 'E'])))))] }, refresh, sources.insert 0
          ⟨secretCluster false, .ret emptyFigures, some ⟨8, movedCluster, true⟩⟩, log⟩ es := by
  obtain ⟨hmatch, hmoved, happlied, hclient, hrestored, hback⟩ := pools
  have hchanged : s.pool.mgr.matchesClusters movedConfig.clusters = false := hpool ▸ hmatch
  simp only [putTurns, List.replicate, List.cons_append, List.nil_append]
  refine Eq.trans (live_thread rfl rfl (exec_matchesClusters hchanged) _) ?_
  have happly : run Sys.step (s.pool.start (.apply movedConfig.clusters))
      ((connectingMoves 8).map fun v => .move 3 v) = movedPool := by
    rw [hpool, movedPool, applied, hmoved]
  have hawait : (Cmd.await s.pool.ops.length).exec movedSetting 0 movedAnswers
      (s.setPool movedPool) = some (none, s.setPool movedPool) := by
    rw [hpool, hmoved]
    exact exec_await happlied
  have hload : load movedSetting.yaml movedSetting.env (annotate movedText) =
    .error (.missing ['H', 'O', 'M', 'E']) := load_moved
  have hrollback : run Sys.step (movedPool.start (.apply writableConfig.clusters))
      ((connectingMoves 9).map fun v => .move 4 v) = restoredPool := by
    rw [restoredPool, applied, hrestored]
  have hreturn : (Cmd.await movedPool.ops.length).exec movedSetting 0 movedAnswers
      (s.setPool restoredPool) = some (none, s.setPool restoredPool) := by
    rw [hrestored]
    exact exec_await hback
  refine Eq.trans (live_thread rfl rfl rfl _) ?_
  refine Eq.trans (live_moves (s := s.setPool (s.pool.start (.apply movedConfig.clusters)))
    hreload happly _) ?_
  refine Eq.trans (live_thread rfl rfl hawait _) ?_
  refine Eq.trans (run_measure hclient _) ?_
  refine Eq.trans (live_thread rfl rfl (exec_save_error hload) _) ?_
  refine Eq.trans (live_thread rfl rfl rfl _) ?_
  refine Eq.trans (live_moves (s := s.setPool (movedPool.start (.apply writableConfig.clusters)))
    hreload hrollback _) ?_
  refine Eq.trans (live_thread rfl rfl hreturn _) ?_
  refine Eq.trans (live_thread rfl rfl rfl _) ?_
  rfl

/-- A request in a server that runs `writableConfig`, up to there. -/
theorem run_toInstall {d : Setting} {s : State} {o : Oracle Cmd Cmd.Answer} {candidate : Config}
    {p : ServerProg Reply} (hstore : d.store = true)
    (hbody : o (.readBody .config) = some (some candidate))
    (hput : putCandidate d writableConfig candidate = p) (hw : s.writer = none)
    (hr : s.readers = []) (hcfg : s.cfg = writableConfig) {refresh : Option Refresh}
    {sources : GoMap Nat SourceRun} {log : List Moment} (es : List LiveEvent) :
    run (Live.step d) ⟨{ shared := s, threads := [] }, refresh, sources, log⟩
        (.server (.spawn .putConfig) :: (List.replicate 3 (.server (.thread 0 o)) ++ es)) =
      run (Live.step d)
        ⟨{ shared := s.acquire 0 (.put candidate), threads := [putRest p] }, refresh, sources, log⟩
        es := by
  obtain ⟨request, hbegin, hrequest⟩ := putConfig_begins (d := d) candidate hstore
  have hread : (Cmd.readBody .config).exec d 0 o s = some (some candidate, s) := by
    simp only [Cmd.exec, hbody, Option.map_some]
  have hlock := exec_lock (d := d) (t := 0) (o := o) hw hr (.put candidate)
  have hcurrent : (s.acquire 0 (.put candidate)).cfg = writableConfig := hcfg
  have hspawn : Live.step d ⟨{ shared := s, threads := [] }, refresh, sources, log⟩
      (.server (.spawn .putConfig)) =
        ⟨{ shared := s, threads := [Task.prog d .putConfig] }, refresh, sources, log⟩ := rfl
  rw [run_cons, hspawn]
  simp only [List.replicate, List.cons_append, List.nil_append]
  refine Eq.trans (live_thread hbegin rfl hread _) ?_
  rw [hrequest]
  refine Eq.trans (live_thread rfl rfl hlock _) ?_
  refine Eq.trans (live_thread rfl rfl (exec_readConfig hcurrent) _) ?_
  rw [← hput]
  rfl

/-- The server when the request has ended. -/
def restoredServer : ServerPool where
  shared := (((liveStarted.server.shared.setPool startedPool).acquire 0 (.put movedConfig)).setPool
    restoredPool).release
  threads := [.ret (some (.error 500 "save_config"
    (.save (.load (.missing ['H', 'O', 'M', 'E'])))))]

/-- The only goroutine has its cluster. -/
def measuring : Live := run (Live.step movedSetting) liveStarted [.start 0, .call 0]

/-- The sampler takes what it measured. -/
def misled : Live :=
  run (Live.step movedSetting)
    ⟨restoredServer, measuring.refresh, measuring.sources.insert 0
      ⟨secretCluster false, .ret emptyFigures, some ⟨8, movedCluster, true⟩⟩, measuring.log⟩
    [.turn 0 sourceAnswers 1000000, .commit fun _ => 5]

theorem measuring_eq : measuring =
    ⟨{ shared := liveStarted.server.shared.setPool startedPool, threads := [] }, measuring.refresh,
      (∅ : GoMap Nat SourceRun).insert 0
        ⟨secretCluster false, KafkaSource.snapshot (secretCluster false), none⟩, measuring.log⟩ := by
  unfold startedPool
  rfl

theorem run_misled : run (Live.step movedSetting) liveStarted failingSave = misled := by
  have hstart : run (Live.step movedSetting) liveStarted [.start 0, .call 0] = measuring := rfl
  rw [failingSave, run_append, hstart, measuring_eq]
  refine Eq.trans (run_toInstall rfl rfl putCandidate_moved rfl rfl rfl _) ?_
  refine Eq.trans (run_install rfl rfl _) ?_
  rfl

/-- A save has failed, and figures of the broker it named are shown for the
broker of before. -/
theorem figures_own_restored :
    LiveRun movedSetting (fun _ _ => true) (run (Live.step movedSetting) liveStarted failingSave) ∧
      (run (Live.step movedSetting) liveStarted failingSave).server.shared.writer = none ∧
      ¬ OwnFigures (run (Live.step movedSetting) liveStarted failingSave) := by
  have hnew : LiveRun movedSetting (fun _ _ => true) liveStarted :=
    .new writableText (Config.validate_ids (passwordConfig_valid secret)) connectActions_before
  refine ⟨hnew.any failingSave, ?_⟩
  rw [run_misled]
  refine ⟨rfl, fun h => ?_⟩
  obtain ⟨-, hmeasured⟩ := h (secretCluster false) (.head _)
  obtain ⟨c, hc, hvia⟩ : ∃ c ∈ commits "a" misled.log,
      c.result.via = some ⟨8, movedCluster, true⟩ := ⟨_, .head _, rfl⟩
  have hown : Cluster.sameConnection movedCluster (secretCluster false) = true :=
    (hmeasured c hc).own _ hvia
  exact absurd hown (by decide)

/-- Everything the sampler holds has been measured on the cluster it is shown
for, in a run in which the pool never desires another connection than that of
the call that looks its client up. -/
theorem figures_own (d : Setting) {l : Live} (h : LiveRun d Live.inTime l) : OwnFigures l :=
  h.inv.ownFigures

/-! ## A save beside a measurement

The goroutine has its cluster, a save turns on `readOnly`, and then the source
looks up the client.
-/

def plainLive : Live := Live.new plainSetting writableConfig plainPool writableText

def saving : List ServerEvent := .spawn .putConfig :: List.replicate 9 (.thread 0 answers)

/-- The save of `readOnlyConfig`, from its beginning to its end. -/
theorem run_saving {s : State} (hw : s.writer = none) (hr : s.readers = [])
    (hcfg : s.cfg = writableConfig)
    (hmatch : s.pool.mgr.matchesClusters readOnlyConfig.clusters = true)
    {refresh : Option Refresh} {sources : GoMap Nat SourceRun} {log : List Moment} :
    run (Live.step plainSetting) ⟨{ shared := s, threads := [] }, refresh, sources, log⟩
        (saving.map .server) =
      ⟨{ shared := (putState plainSetting s 0 storedText).release
         threads := [.ret (some (.done 204 none))] }, refresh, sources,
        .updated (enabledClusters readOnlyConfig.clusters)
          (normalizeOptions (dashboardOptions readOnlyConfig)) :: log⟩ := by
  have hput := putCandidate_install (d := plainSetting) fillSecrets_readOnly readOnlyConfig_valid
    marshal_readOnly
  have hsame : (s.acquire 0 (.put readOnlyConfig)).pool.mgr.matchesClusters
      readOnlyConfig.clusters = true := hmatch
  have hsave : answers (.save storedText) = some none := rfl
  refine Eq.trans (run_toInstall (o := answers) rfl rfl hput hw hr hcfg
    (List.replicate 6 (.server (.thread 0 answers)))) ?_
  simp only [List.replicate]
  refine Eq.trans (live_thread rfl rfl (exec_matchesClusters hsame) _) ?_
  refine Eq.trans (live_thread rfl rfl (exec_save_ok load_readOnly hsave) _) ?_
  refine Eq.trans (live_thread rfl rfl rfl _) ?_
  refine Eq.trans (live_update _) ?_
  refine Eq.trans (live_thread rfl rfl rfl _) ?_
  refine Eq.trans (live_thread rfl rfl rfl _) ?_
  rfl

theorem meets_server {d : Setting} (es : List ServerEvent) (l : Live) :
    l.meets d Live.inTime (es.map .server) = true := by
  induction es generalizing l with
  | nil => rfl
  | cons e es ih => exact ih _

/-- The goroutine has its cluster, and the save has not begun. -/
def plainMeasuring : Live := run (Live.step plainSetting) plainLive [.start 0, .call 0]

/-- The save is over. -/
def plainSaved : Live where
  server :=
    { shared := (putState plainSetting plainMeasuring.server.shared 0 storedText).release
      threads := [.ret (some (.done 204 none))] }
  refresh := plainMeasuring.refresh
  sources := plainMeasuring.sources
  log :=
    .updated (enabledClusters readOnlyConfig.clusters)
      (normalizeOptions (dashboardOptions readOnlyConfig)) :: plainMeasuring.log

theorem run_plainSaved :
    run (Live.step plainSetting) plainMeasuring (saving.map .server) = plainSaved := by
  have hfields : plainMeasuring = ⟨{ shared := plainMeasuring.server.shared, threads := [] },
      plainMeasuring.refresh, plainMeasuring.sources, plainMeasuring.log⟩ := rfl
  rw [hfields]
  exact run_saving rfl rfl rfl matches_plainPool

/-- The source looks up the client, measures, and the sampler takes it. -/
def measuredEvents : List LiveEvent :=
  [.start 0, .call 0] ++ (saving.map .server ++
    (sourceTurns 6 ++ [.turn 0 sourceAnswers 1000000, .commit fun _ => 5]))

def measured : Live := run (Live.step plainSetting) plainLive measuredEvents

theorem measured_eq : measured = run (Live.step plainSetting) plainSaved
    (sourceTurns 6 ++ [.turn 0 sourceAnswers 1000000, .commit fun _ => 5]) := by
  rw [measured, measuredEvents, run_append, run_append, ← plainMeasuring, run_plainSaved]

theorem figures_own_measured :
    (commits "a" measured.log).map (fun c => c.result.via.map Client.serial) = [some 7] ∧
      measured.server.shared.cfg = readOnlyConfig ∧ OwnFigures measured := by
  have hnew : LiveRun plainSetting Live.inTime plainLive :=
    .new writableText (Config.validate_ids (passwordConfig_valid secret)) connectActions_before
  have hcalled : LiveRun plainSetting Live.inTime plainMeasuring := hnew.run (by decide +kernel)
  have hsaved : LiveRun plainSetting Live.inTime plainSaved :=
    run_plainSaved ▸ hcalled.run (meets_server saving _)
  rw [measured_eq]
  exact ⟨by decide +kernel, by decide +kernel,
    figures_own plainSetting (hsaved.run (by decide +kernel))⟩

end KafkaManager.Api
