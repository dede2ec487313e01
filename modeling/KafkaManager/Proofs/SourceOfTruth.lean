import KafkaManager.Proofs.Transactions

/-!
# When the server runs what the file says

The watcher compares the file with the text it has seen last and knows nothing
of the saves in between, and it records a text before the reload has gone
through. So there are two ways for file and server to part for good: somebody
puts back by hand the text the watcher holds while the server runs something
else, and a reload fails to connect.

`Calm` says of a step that it is neither, and of a save that loading gives
back what was saved. `CalmlyReachable` are the states of the runs all of whose
steps are calm: there the polling thread brings the server in step with the
file.
-/

namespace KafkaManager.Api

open Lib Cluster Dashboard

variable {d : Setting} {p : ServerPool} {s : State}

/-! ## Calm runs -/

/-- Loading what is saved gives back what the transaction is to put in
force. -/
def State.SavesAs (d : Setting) (s : State) (text : List Char) : Prop :=
  ∀ persisted, load d.yaml d.env text = .ok persisted →
    d.loadRuntime text = s.writer.map fun h => h.txn.target h.cfg

/-- A text the watcher would not look at is the configuration that runs. -/
def State.WritesSeen (d : Setting) (s : State) (text : List Char) : Prop :=
  s.pending = false → d.sum256 text = s.hash →
    ∀ cfg, d.loadRuntime text = some cfg → cfg = s.coming

def Calm (d : Setting) (p : ServerPool) : ServerEvent → Prop
  | .spawn _ => True
  | .thread t _ => ∀ text k, p.threads[t]? = some (.cmd (.save text) k) → p.shared.SavesAs d text
  | .env (.write text) => p.shared.WritesSeen d text
  | .env (.move o v) => p.shared.failsReload o v = false
  | .env (.upsert _) | .env (.sample _) => True

inductive CalmlyReachable (d : Setting) : ServerPool → Prop
  | start {cfg : Config} {as : List Action} {file : List Char}
      (hload : d.loadRuntime file = some cfg) (has : BeforeServer as) :
      CalmlyReachable d (started d cfg (run Sys.step (Sys.initWith cfg.clusters) as) file)
  | step {p : ServerPool} (e : ServerEvent) (hp : CalmlyReachable d p) (hcalm : Calm d p e) :
      CalmlyReachable d ((server d).step p e)

theorem CalmlyReachable.reachable (hp : CalmlyReachable d p) : Reachable d p := by
  induction hp with
  | @start cfg as file hload has =>
      exact ⟨cfg, as, file, [], loadRuntime_distinct hload, has, rfl⟩
  | step e _ _ ih => exact ih.step e

/-- Of the commands only `Save` can lead astray. -/
theorem exec_astray {c : Cmd} {t : Nat} {o : Oracle Cmd Cmd.Answer} {r : c.Answer} {s' : State}
    (hc : ∀ text, c ≠ .save text) (he : c.exec d t o s = some (r, s')) :
    s'.astray = s.astray := by
  by_cases hquiet : c.quiet = true
  · rw [exec_quiet hquiet he]
  · cases c with
    | save text => exact absurd rfl (hc text)
    | lock txn =>
        simp only [Cmd.exec] at he
        split at he
        · obtain ⟨-, rfl⟩ := Prod.mk.inj (Option.some.inj he)
          rfl
        · simp at he
    | rLock =>
        simp only [Cmd.exec] at he
        split at he
        · obtain ⟨-, rfl⟩ := Prod.mk.inj (Option.some.inj he)
          rfl
        · simp at he
    | pollBegin =>
        simp only [Cmd.exec] at he
        split at he
        · obtain ⟨-, rfl⟩ := Prod.mk.inj (Option.some.inj he)
          rfl
        · simp at he
    | kafka id client call =>
        simp only [Cmd.exec, Option.map_eq_some_iff, Prod.mk.injEq] at he
        obtain ⟨-, -, -, rfl⟩ := he
        rfl
    | readBody b => exact absurd rfl hquiet
    | readConfig => exact absurd rfl hquiet
    | matchesClusters clusters => exact absurd rfl hquiet
    | await o' => exact absurd rfl hquiet
    | kafkaClient id => exact absurd rfl hquiet
    | readBackup id => exact absurd rfl hquiet
    | audit action resource problem => exact absurd rfl hquiet
    | readFile => exact absurd rfl hquiet
    | readHash => exact absurd rfl hquiet
    | _ =>
        obtain ⟨-, rfl⟩ := Prod.mk.inj (Option.some.inj he)
        rfl

theorem save_astray {text : List Char} {t : Nat} {o : Oracle Cmd Cmd.Answer}
    {r : Option SaveError} {s' : State} (hcalm : s.SavesAs d text)
    (he : (Cmd.save text).exec d t o s = some (r, s')) : s'.astray = s.astray := by
  cases hload : load d.yaml d.env text with
  | error e =>
      simp only [Cmd.exec, hload] at he
      rw [(Prod.mk.inj (Option.some.inj he)).2]
  | ok persisted =>
      rcases exec_save he with ⟨-, rfl⟩ | ⟨-, rfl⟩
      · rfl
      · show (s.astray || d.loadRuntime text != _) = s.astray
        rw [hcalm persisted hload, bne_self_eq_false, Bool.or_false]

theorem edit_astray {text : List Char} (hcalm : s.WritesSeen d text) :
    (s.edit d text).astray = s.astray := by
  show (s.astray || (!s.pending && d.sum256 text == s.hash &&
    (d.loadRuntime text).any fun cfg => cfg != s.coming)) = s.astray
  by_cases hunseen : s.pending = false ∧ d.sum256 text = s.hash
  · obtain ⟨hpending, hhash⟩ := hunseen
    cases hload : d.loadRuntime text with
    | none => simp
    | some cfg =>
        have hcoming : cfg = s.coming := hcalm hpending hhash cfg hload
        simp [hcoming]
  · have hseen : (!s.pending && d.sum256 text == s.hash) = false := by
      simpa using hunseen
    rw [hseen, Bool.false_and, Bool.or_false]

theorem calm_step (e : ServerEvent) (hcalm : Calm d p e) :
    ((server d).step p e).shared.astray = p.shared.astray := by
  cases e with
  | spawn task => rfl
  | env e =>
      cases e with
      | upsert cfg => rfl
      | sample x => rfl
      | write text => exact edit_astray hcalm
      | move o v =>
          have hexec : (Outside.move o v).exec d p.shared =
              p.shared.setPool (p.shared.pool.move o v) := if_neg (by
            have hok : p.shared.failsReload o v = false := hcalm
            rw [hok]
            simp)
          show ((Outside.move o v).exec d p.shared).astray = _
          rw [hexec]
          rfl
  | thread t o =>
      show ((server d).advance p t o).shared.astray = _
      rcases (server d).advance_cases p t o with heq | ⟨c, k, r, s, hc, hexec, heq⟩
      · rw [heq]
      · rw [heq]
        by_cases hsave : ∃ text, c = .save text
        · obtain ⟨text, rfl⟩ := hsave
          exact save_astray (t := t) (hcalm text k hc) hexec
        · exact exec_astray (fun text h => hsave ⟨text, h⟩) hexec

/-- A calm run does not go astray. -/
theorem CalmlyReachable.not_astray (hp : CalmlyReachable d p) : p.shared.astray = false := by
  induction hp with
  | @start cfg as file hload has =>
      show (d.loadRuntime file != some cfg) = false
      rw [hload, bne_self_eq_false]
  | step e _ hcalm ih => rw [calm_step e hcalm, ih]

/-! ## Polls of the example server -/

/-- The thread started last carries out its next command. -/
theorem step_newest {s' : State} {threads : List (ServerProg (Option Reply))}
    {p : ServerProg (Option Reply)} {c : Cmd} {k : c.Answer → ServerProg (Option Reply)}
    {r : c.Answer} (hp : p = .cmd c k) (he : c.exec d threads.length answers s = some (r, s')) :
    (server d).step { shared := s, threads := threads ++ [p] } (.thread threads.length answers) =
      { shared := s', threads := threads ++ [k r] } :=
  run_newest hp he []

theorem CalmlyReachable.newest {s' : State} {threads : List (ServerProg (Option Reply))}
    {p : ServerProg (Option Reply)} {c : Cmd} {k : c.Answer → ServerProg (Option Reply)}
    {r : c.Answer} (h : CalmlyReachable d { shared := s, threads := threads ++ [p] })
    (hp : p = .cmd c k) (hc : ∀ text, c ≠ .save text)
    (he : c.exec d threads.length answers s = some (r, s')) :
    CalmlyReachable d { shared := s', threads := threads ++ [k r] } := by
  rw [← step_newest hp he]
  refine h.step _ fun text k' ht => ?_
  have hnext : (threads ++ [p])[threads.length]? = some (.cmd (.save text) k') := ht
  rw [List.getElem?_concat_length, hp, Option.some.injEq, Prog.cmd.injEq] at hnext
  exact absurd hnext.1 (hc text)

/-- `poll` once it has begun and has the text and the hash of the last one. -/
def pollRead (d : Setting) (data : List Char) (known : List UInt8) :
    ServerProg (Option Reply) :=
  ended do
    pollText d data known
    Cmd.perform (.pollEnd (some data))

theorem exec_pollBegin {t : Nat} (hp : s.polling = none) :
    Cmd.pollBegin.exec d t answers s = some ((), s.beginPoll t) := by
  simp only [Cmd.exec]
  rw [if_pos (by rw [hp]; rfl)]

theorem run_read (threads : List (ServerProg (Option Reply))) (hp : s.polling = none) :
    run (server d).step { shared := s, threads := threads }
        (.spawn .poll :: List.replicate 3 (.thread threads.length answers)) =
      { shared := s.beginPoll threads.length
        threads := threads ++ [pollRead d s.file s.hash] } := by
  refine Eq.trans (run_newest (p := Task.prog d .poll) rfl (exec_pollBegin hp) _) ?_
  refine Eq.trans (run_newest rfl rfl _) ?_
  exact run_newest rfl rfl []

theorem CalmlyReachable.read {threads : List (ServerProg (Option Reply))}
    (h : CalmlyReachable d { shared := s, threads := threads }) (hp : s.polling = none) :
    CalmlyReachable d
      { shared := s.beginPoll threads.length
        threads := threads ++ [pollRead d s.file s.hash] } := by
  have hspawned : CalmlyReachable d
      { shared := s, threads := threads ++ [Task.prog d .poll] } := h.step (.spawn .poll) trivial
  have hbegun := hspawned.newest rfl (by simp) (exec_pollBegin hp)
  exact (hbegun.newest rfl (by simp) rfl).newest rfl (by simp) rfl

theorem pollText_same (text : List Char) : pollText d text (d.sum256 text) = pure () :=
  if_pos rfl

theorem pollText_changed {text : List Char} {known : List UInt8} {updated cfg : Config}
    (hne : d.sum256 text ≠ known) (hload : load d.yaml d.env text = .ok updated)
    (hrun : runtime d.gcm updated d.secret = .ok cfg) :
    pollText d text known =
      .cmd (.writeHash (d.sum256 text)) fun _ =>
        (do
          match ← reconcileConfig cfg with
          | some e => Cmd.perform (.rejected (.pool e))
          | none => pure ()) := by
  unfold pollText
  rw [if_neg hne]
  simp only [hload, onChange, hrun]
  rfl

set_option maxRecDepth 4000 in
theorem prefixSum_stored_ne : prefixSum storedText ≠ prefixSum writableText := by
  have hstored : (prefixSum storedText).head? = some 35 := by
    unfold storedText annotate
    rw [show readOnlyText = _ from toList_eq rfl, show header = _ from toList_eq rfl,
      show clustersKey = _ from toList_eq rfl, show auditKey = _ from toList_eq rfl,
      show dashboardKey = _ from toList_eq rfl, show clustersNote = _ from toList_eq rfl,
      show auditNote = _ from toList_eq rfl, show dashboardNote = _ from toList_eq rfl]
    decide +kernel
  have hwritten : (prefixSum writableText).head? = some 115 := by
    unfold writableText passwordText
    rw [show beforePassword = _ from toList_eq rfl, show afterPassword = _ from toList_eq rfl]
    decide +kernel
  intro heq
  rw [heq, hwritten] at hstored
  exact absurd hstored (by decide)

theorem noCollision_plain {texts : List (List Char)}
    (h : ∀ x ∈ texts, x = writableText ∨ x = storedText) : NoCollision plainSetting texts := by
  have hne : plainSetting.sum256 storedText ≠ plainSetting.sum256 writableText := prefixSum_stored_ne
  intro x hx y hy hsum
  rcases h x hx with rfl | rfl <;> rcases h y hy with rfl | rfl
  · rfl
  · exact absurd hsum.symm hne
  · exact absurd hsum hne
  · rfl

/-! ## A revert by hand

A save turns on `readOnly`, the text from before is put back by hand, and a
poll reads it. -/

def revertedState : State :=
  (putState plainSetting plainStarted.shared 0 storedText).release.edit plainSetting writableText

def revertedPool : ServerPool where
  shared := revertedState
  threads := [.ret (some (.done 204 none))]

/-- The poll is about to end. -/
def missedPool : ServerPool where
  shared := revertedState.beginPoll 1
  threads := [.ret (some (.done 204 none)), .cmd (.pollEnd (some writableText)) fun _ => .ret none]

theorem revertedPool_reachable : Reachable plainSetting revertedPool :=
  savePool_reachable.run [.thread 0 answers, .env (.write writableText)]

theorem run_missed :
    run (server plainSetting).step revertedPool
        (.spawn .poll :: List.replicate 3 (.thread 1 answers)) = missedPool := by
  refine Eq.trans (run_read [.ret (some (.done 204 none))] rfl) ?_
  have hfile : revertedState.file = writableText := rfl
  have hhash : revertedState.hash = plainSetting.sum256 writableText := rfl
  unfold pollRead
  rw [hfile, hhash, pollText_same]
  rfl

/-! ## An edit that is read

The text of the save is written by hand, and a poll loads it. -/

def editedState : State := plainStarted.shared.edit plainSetting storedText

def recordedState : State := (editedState.beginPoll 0).record (plainSetting.sum256 storedText)

def reloadedState : State :=
  (((recordedState.acquire 0 (.reconcile readOnlyConfig)).setConfig readOnlyConfig).setMonitor
    (recordedState.monitor.update readOnlyConfig.clusters
      (dashboardOptions readOnlyConfig))).release

def reloadedPool : ServerPool where
  shared := reloadedState
  threads := [.cmd (.pollEnd (some storedText)) fun _ => .ret none]

theorem pollText_stored : pollText plainSetting storedText (plainSetting.sum256 writableText) =
    .cmd (.writeHash (plainSetting.sum256 storedText)) fun _ =>
      (do
        match ← reconcileConfig readOnlyConfig with
        | some e => Cmd.perform (.rejected (.pool e))
        | none => pure ()) :=
  pollText_changed prefixSum_stored_ne load_readOnly (runtime_eq_self.2 fun c hc => by
    obtain rfl := List.mem_singleton.1 hc
    show ¬ encryptedPrefix <+: (String.ofList secret).toList
    rw [String.toList_ofList]
    decide)

theorem reloadedPool_reachable : CalmlyReachable plainSetting reloadedPool := by
  have hstart : CalmlyReachable plainSetting plainStarted :=
    .start loadRuntime_writable connectActions_before
  have hedited : CalmlyReachable plainSetting { shared := editedState, threads := [] } := by
    refine hstart.step (.env (.write storedText)) ?_
    intro _ hhash
    exact absurd hhash prefixSum_stored_ne
  have hread := hedited.read rfl
  have hfile : editedState.file = storedText := rfl
  have hhash : editedState.hash = plainSetting.sum256 writableText := rfl
  unfold pollRead at hread
  rw [hfile, hhash, pollText_stored] at hread
  have hsame : (recordedState.acquire 0 (.reconcile readOnlyConfig)).pool.mgr.matchesClusters
      readOnlyConfig.clusters = true := matches_plainPool
  have hrecorded := hread.newest rfl (by simp) rfl
  have hlocked := hrecorded.newest rfl (by simp)
    (exec_lock (s := recordedState) rfl rfl (.reconcile readOnlyConfig))
  have hmatched := hlocked.newest rfl (by simp) (exec_matchesClusters hsame)
  have hwritten := (hmatched.newest rfl (by simp) rfl).newest rfl (by simp) rfl
  exact hwritten.newest rfl (by simp) rfl

theorem reloaded_contents : ∀ x ∈ reloadedState.contents, x = writableText ∨ x = storedText := by
  have hcontents : reloadedState.contents = [storedText, writableText] := rfl
  rw [hcontents]
  simp

theorem missed_contents : ∀ x ∈ missedPool.shared.contents, x = writableText ∨ x = storedText := by
  have hcontents : missedPool.shared.contents = [writableText, storedText, writableText] := rfl
  rw [hcontents]
  simp

/-! ## The results -/

/-- Nothing but a poll happens, and at its end the server still runs what was
saved, though the file says otherwise and its cluster is connected. -/
theorem poll_misses_revert :
    Reachable plainSetting revertedPool ∧ revertedPool.shared.writer = none ∧
      run (server plainSetting).step revertedPool
        (.spawn .poll :: List.replicate 3 (.thread 1 answers)) = missedPool ∧
      (∃ k, missedPool.threads[1]? = some (.cmd (.pollEnd (some writableText)) k)) ∧
      missedPool.shared.file = writableText ∧
      NoCollision plainSetting missedPool.shared.contents ∧
      plainSetting.loadRuntime storedText = some readOnlyConfig ∧
      plainSetting.loadRuntime writableText = some writableConfig ∧
      missedPool.shared.pool.mgr.kafka "a" = some ordersClient ∧
      missedPool.shared.cfg ≠ writableConfig :=
  ⟨revertedPool_reachable, rfl, run_missed, ⟨_, rfl⟩, rfl, noCollision_plain missed_contents,
    loadRuntime_readOnly, loadRuntime_writable, kafka_plainPool, readOnlyConfig_ne⟩

/-- In a calm run a poll that ends while no transaction runs, the file being as
it was read, leaves the server with the configuration of the file. -/
theorem poll_source_of_truth (d : Setting) (hp : CalmlyReachable d p) (t : Nat)
    (text : List Char) (k : Unit → ServerProg (Option Reply))
    (ht : p.threads[t]? = some (.cmd (.pollEnd (some text)) k))
    (hcollision : NoCollision d p.shared.contents) (hw : p.shared.writer = none)
    (hfile : p.shared.file = text) (cfg : Config) (hload : d.loadRuntime text = some cfg) :
    p.shared.cfg = cfg := by
  have hcaught : CaughtUp d text p.shared := hp.reachable.ok.pre ht
  have hload' : d.loadRuntime p.shared.file = some cfg := by rw [hfile, hload]
  exact hcaught hp.not_astray hcollision hw hfile cfg hload'

theorem poll_source_of_truth_edit : reloadedPool.shared.cfg = readOnlyConfig :=
  poll_source_of_truth plainSetting reloadedPool_reachable 0 storedText _ rfl
    (noCollision_plain reloaded_contents) rfl rfl readOnlyConfig loadRuntime_readOnly

end KafkaManager.Api
