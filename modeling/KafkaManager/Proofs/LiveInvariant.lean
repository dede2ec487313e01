import KafkaManager.Api.Live
import KafkaManager.Proofs.ServerRequests
import KafkaManager.Proofs.SamplingInvariant

/-!
# The server and its sampler together

Two machines share the sampler. This file shows that each runs undisturbed by
the other: the server part of a `Live` is a server in a run of its own
(`Reachable`), and the sampler part is a sampler whose `Update` calls come from
the server's transactions (`Known`). For the second, every configuration the
server gives the sampler has passed `Validate`.

A call of the source is followed as the program it still has to run. As long
as the clients it finds belong to the cluster it was called for (`Own`), it asks
no other, and it does not report a cluster online without having asked one.
-/

namespace KafkaManager.Api

open Lib Cluster Dashboard

/-! ## What the server gives the sampler -/

/-- A command that gives the sampler a list with distinct ids, if any. -/
def Cmd.Distinct : Cmd → Prop
  | .updateMonitor cfg => DistinctIDs cfg.clusters
  | _ => True

/-- The same of every command of a program. -/
abbrev DistinctUpdates {α : Type} (p : ServerProg α) : Prop :=
  p.Within (fun _ _ => True) Cmd.Distinct

section Programs

variable {d : Setting} {α β : Type}

theorem distinctUpdates_cmd {c : Cmd} {k : c.Answer → ServerProg α} (hc : c.Distinct)
    (hk : ∀ r, DistinctUpdates (k r)) : DistinctUpdates (.cmd c k) :=
  ⟨hc, fun r _ => hk r⟩

/-- What only concerns the pool. -/
theorem distinctUpdates_pool {p : ServerProg α}
    (h : p.Within (fun _ _ => True) fun c => c.poolOnly = true) : DistinctUpdates p := by
  refine h.mono fun c hc => ?_
  cases c <;> trivial

theorem transaction_distinct {txn : Txn} {failed : α → Bool} {body : ServerProg α}
    (hbody : DistinctUpdates body) : DistinctUpdates (transaction txn failed body) :=
  distinctUpdates_cmd trivial fun _ => hbody.bind fun _ =>
    distinctUpdates_cmd trivial fun _ => trivial

theorem updateConfig_distinct {cfg : Config} (h : DistinctIDs cfg.clusters) :
    DistinctUpdates (updateConfig cfg) :=
  distinctUpdates_cmd trivial fun _ => distinctUpdates_cmd h fun _ => trivial

theorem saveFailed_distinct (current : Config) (changed : Bool) (code : String) (e : SaveError) :
    DistinctUpdates (saveFailed current changed code e) := by
  cases changed with
  | false => trivial
  | true =>
      refine (distinctUpdates_pool rollbackClusters_within).bind fun e => ?_
      cases e <;> trivial

theorem install_distinct {current cfg : Config} (h : DistinctIDs cfg.clusters) {text : List Char}
    {code action resource : String} :
    DistinctUpdates (install current cfg text code action resource) := by
  refine (distinctUpdates_pool applyClustersIfChanged_within).bind fun r => ?_
  cases r with
  | error e => trivial
  | ok changed =>
      refine distinctUpdates_cmd trivial fun e => ?_
      cases e with
      | some e => exact saveFailed_distinct ..
      | none =>
          exact (updateConfig_distinct h).bind fun _ => distinctUpdates_cmd trivial fun _ => trivial

theorem putConfig_distinct : DistinctUpdates (putConfig d) := by
  unfold putConfig
  split
  · trivial
  · refine distinctUpdates_cmd trivial fun candidate => ?_
    cases candidate with
    | none => trivial
    | some candidate =>
        refine transaction_distinct (distinctUpdates_cmd trivial fun current => ?_)
        show DistinctUpdates (putCandidate d current candidate)
        unfold putCandidate
        simp only
        split
        · trivial
        · next hvalid =>
            split
            · trivial
            · exact install_distinct (Config.validate_ids hvalid)

theorem restoreConfigBackup_distinct (backup : String) :
    DistinctUpdates (restoreConfigBackup d backup) := by
  unfold restoreConfigBackup
  split
  · trivial
  · refine distinctUpdates_cmd trivial fun data => ?_
    cases data with
    | error e => trivial
    | ok data =>
        simp only [Prog.bind]
        split
        · trivial
        · next hload =>
            split
            · trivial
            · next hrun =>
                exact transaction_distinct (distinctUpdates_cmd trivial fun _ =>
                  install_distinct (runtime_ids hrun (Config.validate_ids (load_valid hload))))

theorem poll_distinct : DistinctUpdates (poll d) := by
  refine distinctUpdates_cmd trivial fun _ => distinctUpdates_cmd trivial fun data => ?_
  cases data with
  | error e => exact distinctUpdates_cmd trivial fun _ => trivial
  | ok data =>
      refine distinctUpdates_cmd trivial fun known => ?_
      have htext : DistinctUpdates (pollText d data known) := by
        unfold pollText
        split
        · trivial
        · split
          · trivial
          · next cfg hload =>
              refine distinctUpdates_cmd trivial fun _ => ?_
              unfold onChange
              split
              · exact distinctUpdates_cmd trivial fun _ => trivial
              · next hrun =>
                  have hids := runtime_ids hrun (Config.validate_ids (load_valid hload))
                  refine (transaction_distinct
                    ((distinctUpdates_pool applyClustersIfChanged_within).bind
                      fun r => ?_)).bind fun e => ?_
                  · cases r with
                    | error e => trivial
                    | ok changed => exact (updateConfig_distinct hids).bind fun _ => trivial
                  · cases e with
                    | none => trivial
                    | some e => exact distinctUpdates_cmd trivial fun _ => trivial
      exact htext.bind fun _ => distinctUpdates_cmd trivial fun _ => trivial

theorem readLocked_distinct {ε : Type} {id : String}
    {body : ServerProg (Except ε (Client × ClusterConfig))} (hbody : DistinctUpdates body) :
    DistinctUpdates (readLocked id body) :=
  distinctUpdates_cmd trivial fun _ => hbody.bind fun _ =>
    distinctUpdates_cmd trivial fun _ => trivial

theorem kafkaClientLocked_distinct (id : String) : DistinctUpdates (kafkaClientLocked id) := by
  refine distinctUpdates_cmd trivial fun entry => ?_
  cases entry with
  | none => trivial
  | some cfg =>
      refine distinctUpdates_cmd trivial fun client => ?_
      cases client <;> trivial

theorem writable_distinct (id action resource : String) :
    DistinctUpdates (writable id action resource (kafkaClientLocked id)) := by
  refine readLocked_distinct (distinctUpdates_cmd trivial fun entry => ?_)
  cases entry with
  | none => trivial
  | some cfg =>
      show DistinctUpdates (if cfg.readOnly then _ else _)
      split
      · exact distinctUpdates_cmd trivial fun _ => trivial
      · refine (kafkaClientLocked_distinct id).bind fun r => ?_
        cases r <;> trivial

theorem through_distinct (id : String) (client : Client) (p : Kafka.KafkaProg α) :
    DistinctUpdates (through id client p) :=
  Prog.Within.interp fun _ => distinctUpdates_cmd trivial fun _ => trivial

theorem answer_distinct (action resource : String) (problem : Option Problem) (reply : Reply) :
    DistinctUpdates (answer action resource problem reply) := by
  refine distinctUpdates_cmd trivial fun _ => ?_
  cases problem <;> trivial

/-- A handler behind the guard. -/
theorem guarded_distinct {id action resource : String}
    {next : Client → ClusterConfig → ServerProg Reply}
    (hnext : ∀ client cfg, DistinctUpdates (next client cfg)) :
    DistinctUpdates (guarded (writable id action resource (kafkaClientLocked id)) next) := by
  refine (writable_distinct id action resource).bind fun r => ?_
  cases r with
  | error reply => trivial
  | ok found => exact hnext found.1 found.2

theorem decodeJSON_distinct {b : Body} {next : b.Value → ServerProg Reply}
    (hnext : ∀ request, DistinctUpdates (next request)) : DistinctUpdates (decodeJSON b next) := by
  refine distinctUpdates_cmd trivial fun request => ?_
  cases request with
  | none => trivial
  | some request => exact hnext request

theorem service_distinct {id : String} {client : Client} {p : Kafka.KafkaProg α}
    {next : α → ServerProg Reply} (hnext : ∀ r, DistinctUpdates (next r)) :
    DistinctUpdates (through id client p >>= next) :=
  (through_distinct id client p).bind hnext

theorem produceMessage_distinct (cluster : String) : DistinctUpdates (produceMessage cluster) := by
  refine guarded_distinct fun client cfg => decodeJSON_distinct fun request =>
    service_distinct fun r => ?_
  cases r <;> exact answer_distinct ..

theorem replied_distinct {p : ServerProg Reply} (h : DistinctUpdates p) :
    DistinctUpdates (replied p) :=
  h.bind fun _ => trivial

theorem ended_distinct {p : ServerProg α} (h : DistinctUpdates p) : DistinctUpdates (ended p) :=
  h.bind fun _ => trivial

theorem task_distinct (task : Task) : DistinctUpdates (task.prog d) := by
  cases task with
  | putConfig => exact replied_distinct putConfig_distinct
  | restoreConfigBackup backup => exact replied_distinct (restoreConfigBackup_distinct backup)
  | poll => exact ended_distinct poll_distinct
  | kafka cluster => exact ended_distinct (readLocked_distinct (kafkaClientLocked_distinct _))
  | kafkaClient cluster => exact ended_distinct (readLocked_distinct (kafkaClientLocked_distinct _))
  | deleteTopic | deleteConsumerGroup =>
      exact replied_distinct (guarded_distinct fun _ _ => service_distinct fun _ =>
        answer_distinct ..)
  | createTopic | addPartitions | alterTopicConfigs | resetConsumerGroup =>
      exact replied_distinct (guarded_distinct fun _ _ => decodeJSON_distinct fun _ =>
        service_distinct fun _ => answer_distinct ..)
  | produceMessage cluster => exact replied_distinct (produceMessage_distinct cluster)

end Programs

/-- Every thread is one of these. -/
def ThreadsDistinct (p : ServerPool) : Prop := ∀ prog ∈ p.threads, DistinctUpdates prog

theorem ThreadsDistinct.step {d : Setting} {p : ServerPool} (h : ThreadsDistinct p)
    (e : ServerEvent) : ThreadsDistinct ((server d).step p e) := by
  cases e with
  | spawn task =>
      intro prog hprog
      rcases List.mem_append.1 hprog with hold | hnew
      · exact h prog hold
      · obtain rfl := List.mem_singleton.1 hnew
        exact task_distinct task
  | env e => exact h
  | thread t o =>
      show ThreadsDistinct ((server d).advance p t o)
      rcases (server d).advance_cases p t o with heq | ⟨c, k, r, s, hc, -, heq⟩
      · rw [heq]
        exact h
      · rw [heq]
        intro prog hprog
        rcases List.mem_or_eq_of_mem_set hprog with hold | rfl
        · exact h prog hold
        · exact (h _ (List.mem_of_getElem? hc)).2 r trivial

/-! ## What the server does to the sampler -/

/-- Only one command of a thread touches the sampler. -/
theorem exec_monitor {d : Setting} {t : Nat} {c : Cmd} {o : Oracle Cmd Cmd.Answer} {s s' : State}
    {r : c.Answer} (hc : ∀ cfg, c ≠ .updateMonitor cfg) (he : c.exec d t o s = some (r, s')) :
    s'.monitor = s.monitor := by
  cases c with
  | updateMonitor cfg => exact absurd rfl (hc cfg)
  | writeConfig cfg =>
      obtain ⟨-, rfl⟩ := Prod.mk.inj (Option.some.inj he)
      rfl
  | _ => exact (exec_kept he (by simp) (by simp)).2

theorem updates_some {p : ServerPool} {e : ServerEvent} {cfg : Config}
    (h : updates p e = some cfg) : ∃ prog ∈ p.threads, ∃ k, prog = .cmd (.updateMonitor cfg) k := by
  unfold updates at h
  split at h
  · split at h
    · next t _ _ k hthread =>
        obtain rfl := Option.some.inj h
        exact ⟨_, List.mem_of_getElem? hthread, k, rfl⟩
    · cases h
  · cases h

/-- A step of the server leaves the sampler alone or updates it. -/
theorem server_monitor (d : Setting) (p : ServerPool) {e : ServerEvent} (he : ofSampler e = false) :
    ((server d).step p e).shared.monitor =
      match updates p e with
      | some cfg => p.shared.monitor.update cfg.clusters (dashboardOptions cfg)
      | none => p.shared.monitor := by
  cases e with
  | spawn task => rfl
  | env x =>
      cases x with
      | upsert cfg => cases he
      | sample x => cases he
      | write text => rfl
      | move o v =>
          show ((Outside.move o v).exec d p.shared).monitor = p.shared.monitor
          simp only [Outside.exec]
          split <;> rfl
  | thread t o =>
      show ((server d).advance p t o).shared.monitor = _
      cases hthread : p.threads[t]? with
      | none => simp only [Machine.advance, updates, hthread]
      | some prog =>
          cases prog with
          | ret a => simp only [Machine.advance, updates, hthread]
          | cmd c k =>
              by_cases hc : ∃ cfg, c = .updateMonitor cfg
              · obtain ⟨cfg, rfl⟩ := hc
                simp only [Machine.advance, updates, hthread]
                rfl
              · have hother : ∀ cfg, c ≠ .updateMonitor cfg := fun cfg h => hc ⟨cfg, h⟩
                have hnone : updates p (.thread t o) = none := by
                  simp only [updates, hthread]
                  cases c with
                  | updateMonitor cfg => exact absurd rfl (hother cfg)
                  | _ => rfl
                rw [hnone]
                rcases (server d).advance_cases p t o with heq | ⟨c', k', r, s, hc', hexec, heq⟩
                · rw [heq]
                · rw [hthread] at hc'
                  obtain ⟨rfl, -⟩ := Prog.cmd.inj (Option.some.inj hc')
                  rw [heq]
                  exact exec_monitor hother hexec

/-! ## A call of the source -/

/-- The client was created for the connection of this cluster. -/
def Own (cfg : ClusterConfig) (client : Client) : Prop :=
  Cluster.sameConnection client.createdFrom cfg = true

/-- A client that is found is the cluster's. -/
def FindsOwn (cfg : ClusterConfig) : (c : SourceCmd) → c.Answer → Prop
  | .kafka _, found => ∀ client : Client, found = some client → Own cfg client
  | _, _ => True

/-- What is looked up and asked is the cluster's. -/
def AsksOwn (cfg : ClusterConfig) : SourceCmd → Prop
  | .kafka id => id = cfg.id
  | .listBrokers client | .listTopics client | .listGroups client | .lag client _ => Own cfg client
  | .beginUpsert _ | .awaitUpsert _ | .errorText _ | .now => True

theorem AsksOwn.client {cfg : ClusterConfig} {c : SourceCmd} (h : AsksOwn cfg c) {client : Client}
    (hc : c.client = some client) : Own cfg client := by
  cases c with
  | listBrokers | listTopics | listGroups | lag =>
      obtain rfl := Option.some.inj hc
      exact h
  | _ => cases hc

/-- A program that reports nothing but offline unless it asks a client. -/
def Unasked : SourceProg Snapshot → Prop
  | .ret snapshot => snapshot.status = .offline
  | .cmd c k => c.client.isSome = true ∨ ∀ r, Unasked (k r)

theorem measure_within {cfg : ClusterConfig} {client : Client} (h : Own cfg client) :
    (KafkaSource.measure client).Within (FindsOwn cfg) (AsksOwn cfg) := by
  refine ⟨trivial, fun start _ => ⟨h, fun brokers _ => ?_⟩⟩
  cases brokers with
  | error e => trivial
  | ok brokers =>
      refine ⟨h, fun topics _ => ?_⟩
      cases topics with
      | error e => trivial
      | ok topics =>
          refine ⟨h, fun groups _ => ?_⟩
          cases groups with
          | error e => trivial
          | ok groups =>
              refine ⟨trivial, fun finish _ => ?_⟩
              show Prog.Within _ _ (if groups.isEmpty then _ else _)
              split
              · trivial
              · exact ⟨h, fun _ _ => trivial⟩

theorem snapshot_within (cfg : ClusterConfig) :
    (KafkaSource.snapshot cfg).Within (FindsOwn cfg) (AsksOwn cfg) := by
  refine ⟨rfl, fun found hfound => ?_⟩
  cases found with
  | some client => exact measure_within (hfound client rfl)
  | none =>
      refine ⟨trivial, fun o _ => ⟨trivial, fun err _ => ?_⟩⟩
      cases err with
      | some err => exact ⟨trivial, fun _ _ => trivial⟩
      | none =>
          refine ⟨rfl, fun found hfound => ?_⟩
          cases found with
          | none => trivial
          | some client => exact measure_within (hfound client rfl)

theorem measure_unasked (client : Client) : Unasked (KafkaSource.measure client) :=
  .inr fun _ => .inl rfl

theorem snapshot_unasked (cfg : ClusterConfig) : Unasked (KafkaSource.snapshot cfg) := by
  refine .inr fun found => ?_
  cases found with
  | some client => exact measure_unasked client
  | none =>
      refine .inr fun o => .inr fun err => ?_
      cases err with
      | some err => exact .inr fun _ => rfl
      | none =>
          refine .inr fun found => ?_
          cases found with
          | none => rfl
          | some client => exact measure_unasked client

/-- A call under way has asked its own cluster only, and goes on so. -/
structure OwnRun (source : SourceRun) : Prop where
  within : source.prog.Within (FindsOwn source.cfg) (AsksOwn source.cfg)
  via : ∀ client, source.via = some client → Own source.cfg client
  unasked : source.via = none → Unasked source.prog

/-- What was measured was measured on the cluster itself. -/
structure Measured (r : Result) : Prop where
  own : ∀ client, r.via = some client → Own r.cfg client
  online : r.snapshot.status = .online → r.via ≠ none

theorem OwnRun.new (cfg : ClusterConfig) : OwnRun ⟨cfg, KafkaSource.snapshot cfg, none⟩ :=
  ⟨snapshot_within cfg, fun _ h => (nomatch h), fun _ => snapshot_unasked cfg⟩

/-- A step of the call that is answered with its cluster's client, if with any. -/
theorem OwnRun.step {source : SourceRun} (h : OwnRun source) {c : SourceCmd}
    {cont : c.Answer → SourceProg Snapshot} (hprog : source.prog = .cmd c cont) {r : c.Answer}
    (hr : FindsOwn source.cfg c r) :
    OwnRun { source with prog := cont r, via := c.client.or source.via } := by
  have hwithin := h.within
  rw [hprog] at hwithin
  refine ⟨hwithin.2 r hr, fun client hclient => ?_, fun hnone => ?_⟩
  · cases hc : c.client with
    | some asked =>
        rw [hc] at hclient
        obtain rfl := Option.some.inj hclient
        exact hwithin.1.client hc
    | none =>
        rw [hc] at hclient
        exact h.via client hclient
  · obtain ⟨hc, hvia⟩ := Option.or_eq_none_iff.1 hnone
    have hunasked := h.unasked hvia
    rw [hprog] at hunasked
    rcases hunasked with hsome | hrest
    · rw [hc] at hsome
      cases hsome
    · exact hrest r

/-- The call returns. -/
theorem OwnRun.returned {source : SourceRun} (h : OwnRun source) {snapshot : Snapshot}
    (hprog : source.prog = .ret snapshot) (now : Int) :
    Measured ⟨source.cfg, normalizeSnapshot snapshot source.cfg now, source.via⟩ where
  own := h.via
  online hon hnone := by
    have hunasked := h.unasked hnone
    rw [hprog] at hunasked
    have hoffline : snapshot.status = .offline := hunasked
    simp [normalizeSnapshot, hoffline] at hon

/-! ## Two machines, one sampler -/

section Sampler

variable (m : Sampling)

theorem start_sampler (now : Int) : (m.start now).sampler = m.sampler := by
  unfold Sampling.start
  split
  · rfl
  · simp only
    split <;> rfl

theorem endContext_sampler : m.endContext.sampler = m.sampler := by
  unfold Sampling.endContext
  split <;> rfl

theorem call_sampler (k : Nat) : (m.call k).sampler = m.sampler := by
  unfold Sampling.call
  split
  · rfl
  · split
    · rfl
    · split <;> rfl

theorem giveUp_sampler (k : Nat) : (m.giveUp k).sampler = m.sampler := by
  unfold Sampling.giveUp
  split
  · rfl
  · split
    · rfl
    · split <;> rfl

theorem answer_sampler (k : Nat) (snapshot : Snapshot) (via : Option Client) (now : Int) :
    (m.answer k snapshot via now).sampler = m.sampler := by
  unfold Sampling.answer
  split
  · rfl
  · split
    · rfl
    · split <;> rfl

end Sampler

theorem withSampling_sampling {l : Live} {m : Sampling}
    (h : m.sampler = l.server.shared.monitor) : (l.withSampling m).sampling = m := by
  obtain ⟨sampler, refresh, log⟩ := m
  obtain rfl : sampler = l.server.shared.monitor := h
  rfl

/-! ## The invariant -/

/-- A call under way belongs to a goroutine of the `Refresh`. -/
def Serves (refresh : Option Refresh) (k : Nat) (cfg : ClusterConfig) : Prop :=
  ∃ r w, refresh = some r ∧ r.workers[k]? = some w ∧ w.progress = .calling ∧ w.cfg = cfg

structure LiveInv (d : Setting) (l : Live) : Prop where
  reachable : Reachable d l.server
  threads : ThreadsDistinct l.server
  known : Known l.sampling
  serves : ∀ (k : Nat) source, l.sources[k]? = some source → Serves l.refresh k source.cfg
  own : ∀ (k : Nat) source, l.sources[k]? = some source → OwnRun source
  pending : ∀ r, l.refresh = some r → ∀ x ∈ r.results, Measured x
  committed : ∀ c, Moment.committed c ∈ l.log → Measured c.result

/-- A goroutine goes on. Those that are calling keep their place. -/
theorem setProgress_get {r : Refresh} {k : Nat} {w : Worker} (hk : r.workers[k]? = some w)
    (progress : Progress) (j : Nat) : (r.setProgress k w progress).workers[j]? =
      if k = j then some { w with progress } else r.workers[j]? := by
  obtain ⟨hlt, -⟩ := List.getElem?_eq_some_iff.1 hk
  show (r.workers.set k { w with progress })[j]? = _
  rw [List.getElem?_set]
  simp only [hlt, if_true]

theorem Serves.ne {r : Refresh} {j : Nat} {cfg : ClusterConfig} (h : Serves (some r) j cfg)
    {k : Nat} {w : Worker} (hk : r.workers[k]? = some w) (hw : w.progress ≠ .calling) : k ≠ j := by
  obtain ⟨q, v, hq, hv, hcalling, -⟩ := h
  obtain rfl := Option.some.inj hq
  rintro rfl
  rw [hk] at hv
  obtain rfl := Option.some.inj hv
  exact hw hcalling

theorem Serves.setProgress {r : Refresh} {j : Nat} {cfg : ClusterConfig}
    (h : Serves (some r) j cfg) {k : Nat} {w : Worker} (hk : r.workers[k]? = some w)
    (hne : k ≠ j) (progress : Progress) (results : List Result) (ended : Bool) :
    Serves (some { r.setProgress k w progress with results, ended }) j cfg := by
  obtain ⟨q, v, hq, hv, hcalling, hcfg⟩ := h
  obtain rfl := Option.some.inj hq
  refine ⟨_, v, rfl, ?_, hcalling, hcfg⟩
  show (r.setProgress k w progress).workers[j]? = some v
  rw [setProgress_get hk, if_neg hne, hv]

theorem committed_of_cons {x : Moment} (hx : x.Quiet) {log : List Moment} {c : Commit}
    (h : Moment.committed c ∈ x :: log) : Moment.committed c ∈ log := by
  rcases List.mem_cons.1 h with rfl | hold
  · exact hx.elim
  · exact hold

theorem commitResult_committed {m : Sampling} {result : Result} {now : Int} {c : Commit}
    (h : Moment.committed c ∈ (m.commitResult result now).log) :
    Moment.committed c ∈ m.log ∨ c.result = result := by
  unfold Sampling.commitResult at h
  split at h
  · exact .inl h
  · rcases List.mem_cons.1 h with heq | hold
    · obtain rfl := Moment.committed.inj heq
      exact .inr rfl
    · exact .inl hold

theorem commitResults_committed {m : Sampling} {clock : Nat → Int} {xs : List (Result × Nat)}
    {c : Commit} (h : Moment.committed c ∈ (m.commitResults clock xs).log) :
    Moment.committed c ∈ m.log ∨ ∃ x ∈ xs, c.result = x.1 := by
  induction xs generalizing m with
  | nil => exact .inl h
  | cons x xs ih =>
      rcases ih h with hlog | ⟨y, hy, heq⟩
      · rcases commitResult_committed hlog with hold | heq
        · exact .inl hold
        · exact .inr ⟨x, List.mem_cons_self, heq⟩
      · exact .inr ⟨y, List.mem_cons_of_mem _ hy, heq⟩

section Steps

variable {d : Setting} {l : Live} (h : LiveInv d l)

include h

/-- Any step of the server. -/
theorem LiveInv.serverStep (e : ServerEvent) : LiveInv d (l.serverStep d e) := by
  unfold Live.serverStep
  split
  · exact h
  · next he =>
      rw [Bool.not_eq_true] at he
      have hmonitor := server_monitor d l.server he
      refine ⟨h.reachable.step e, h.threads.step e, ?_, h.serves, h.own, h.pending, ?_⟩
      · cases hupd : updates l.server e with
        | none =>
            rw [hupd] at hmonitor
            show Known ⟨((server d).step l.server e).shared.monitor, l.refresh, l.log⟩
            rw [hmonitor]
            exact h.known
        | some cfg =>
            rw [hupd] at hmonitor
            have hdistinct : DistinctIDs cfg.clusters := by
              obtain ⟨prog, hprog, k, rfl⟩ := updates_some hupd
              exact (h.threads _ hprog).1
            show Known ⟨((server d).step l.server e).shared.monitor, l.refresh, _ :: l.log⟩
            rw [hmonitor]
            exact h.known.update hdistinct (dashboardOptions cfg)
      · intro c hc
        cases hupd : updates l.server e with
        | none =>
            rw [hupd] at hc
            exact h.committed c hc
        | some cfg =>
            rw [hupd] at hc
            rcases List.mem_cons.1 hc with heq | hold
            · cases heq
            · exact h.committed c hold

/-- A step of the sampler that leaves its fields alone and stores nothing. -/
theorem LiveInv.withSampling {m : Sampling} (hsampler : m.sampler = l.sampling.sampler)
    (hknown : Known m) (hserves : ∀ k cfg, Serves l.refresh k cfg → Serves m.refresh k cfg)
    (hpending : ∀ r, m.refresh = some r → ∀ x ∈ r.results, Measured x)
    (hcommitted : ∀ c, Moment.committed c ∈ m.log → Moment.committed c ∈ l.log) :
    LiveInv d (l.withSampling m) where
  reachable := h.reachable
  threads := h.threads
  known := by
    rw [withSampling_sampling hsampler]
    exact hknown
  serves k source hk := hserves k source.cfg (h.serves k source hk)
  own := h.own
  pending := hpending
  committed c hc := h.committed c (hcommitted c hc)

theorem LiveInv.start (now : Int) : LiveInv d (l.withSampling (l.sampling.start now)) := by
  refine h.withSampling (start_sampler _ now) (h.known.start now) ?_ ?_ ?_
  · intro k cfg hk
    obtain ⟨r, -, hr, -⟩ := id hk
    have hrefresh : l.sampling.refresh = some r := hr
    simp only [Sampling.start, hrefresh]
    exact hr ▸ hk
  · intro r hr x hx
    unfold Sampling.start at hr
    split at hr
    · exact h.pending r hr x hx
    · next hnone =>
        simp only at hr
        split at hr
        · exact absurd (hnone.symm.trans hr) (by simp)
        · obtain rfl := Option.some.inj hr
          exact absurd hx List.not_mem_nil
  · intro c hc
    unfold Sampling.start at hc
    split at hc
    · exact hc
    · simp only at hc
      have hstarted : (Moment.started now).Quiet := trivial
      have hfinished : Moment.finished.Quiet := trivial
      split at hc
      · exact committed_of_cons hstarted (committed_of_cons hfinished hc)
      · exact committed_of_cons hstarted hc

theorem LiveInv.endContext : LiveInv d (l.withSampling l.sampling.endContext) := by
  refine h.withSampling (endContext_sampler _) h.known.endContext ?_ ?_ ?_
  · rintro k cfg ⟨r, w, hr, hw, hcalling, hcfg⟩
    have hrefresh : l.sampling.refresh = some r := hr
    simp only [Sampling.endContext, hrefresh]
    exact ⟨_, w, rfl, hw, hcalling, hcfg⟩
  · intro r hr x hx
    unfold Sampling.endContext at hr
    split at hr
    · exact h.pending r hr x hx
    · next q hq =>
        obtain rfl := Option.some.inj hr
        exact h.pending q hq x hx
  · intro c hc
    unfold Sampling.endContext at hc
    split at hc
    · exact hc
    · have hended : Moment.ended.Quiet := trivial
      exact committed_of_cons hended hc

theorem LiveInv.giveUp (k : Nat) : LiveInv d (l.withSampling (l.sampling.giveUp k)) := by
  refine h.withSampling (giveUp_sampler _ k) (h.known.giveUp k) ?_ ?_ ?_
  · intro j cfg hj
    unfold Sampling.giveUp
    split
    · exact hj
    · next r hr =>
        split
        · exact hj
        · next w hw =>
            split
            · next hp =>
                have hserves : Serves (some r) j cfg := by
                  rw [← show l.refresh = some r from hr]
                  exact hj
                exact hserves.setProgress hw (hserves.ne hw (by rw [hp.1]; decide)) _ r.results
                  r.ended
            · exact hj
  · intro q hq x hx
    unfold Sampling.giveUp at hq
    split at hq
    · exact h.pending q hq x hx
    · next r hr =>
        split at hq
        · exact h.pending q hq x hx
        · split at hq
          · obtain rfl := Option.some.inj hq
            exact h.pending r hr x hx
          · exact h.pending q hq x hx
  · intro c hc
    unfold Sampling.giveUp at hc
    split at hc
    · exact hc
    · split at hc
      · exact hc
      · split at hc <;> exact hc

theorem LiveInv.call (k : Nat) : LiveInv d (l.call k) := by
  unfold Live.call
  split
  · exact h
  · next r hr =>
      split
      · exact h
      · next w hw =>
          split
          · next hp =>
              have hrefresh : l.sampling.refresh = some r := hr
              have hcall : l.sampling.call k =
                  { l.sampling.note (.called w.cfg) with
                    refresh := some (r.setProgress k w .calling) } := by
                simp only [Sampling.call, hrefresh, hw, hp, and_self, if_true]
              have hsampling : LiveInv d (l.withSampling (l.sampling.call k)) := by
                refine h.withSampling (call_sampler _ k) (h.known.call k) ?_ ?_ ?_
                · intro j cfg hj
                  rw [hr] at hj
                  rw [hcall]
                  exact hj.setProgress hw (hj.ne hw (by rw [hp.1]; decide)) _ r.results r.ended
                · intro q hq x hx
                  rw [hcall] at hq
                  obtain rfl := Option.some.inj hq
                  exact h.pending r hr x hx
                · intro c hc
                  rw [hcall] at hc
                  have hcalled : (Moment.called w.cfg).Quiet := trivial
                  exact committed_of_cons hcalled hc
              refine ⟨hsampling.reachable, hsampling.threads, hsampling.known, ?_, ?_,
                hsampling.pending, hsampling.committed⟩
              · intro j source hj
                have hget : (l.sources.insert k _)[j]? = some source := hj
                rw [GoMap.get_insert] at hget
                split at hget
                · next heq =>
                    obtain rfl := Option.some.inj hget
                    subst heq
                    show Serves (l.sampling.call k).refresh k w.cfg
                    rw [hcall]
                    refine ⟨_, { w with progress := .calling }, rfl, ?_, rfl, rfl⟩
                    rw [setProgress_get hw, if_pos rfl]
                · exact hsampling.serves j source hget
              · intro j source hj
                have hget : (l.sources.insert k _)[j]? = some source := hj
                rw [GoMap.get_insert] at hget
                split at hget
                · obtain rfl := Option.some.inj hget
                  exact OwnRun.new w.cfg
                · exact h.own j source hget
          · exact h

/-- The call of a goroutine returns. -/
theorem LiveInv.returned {k : Nat} {source : SourceRun} (hk : l.sources[k]? = some source)
    {snapshot : Snapshot} (hprog : source.prog = .ret snapshot) (now : Int) :
    LiveInv d { l.withSampling (l.sampling.answer k snapshot source.via now) with
      sources := l.sources.erase k } := by
  obtain ⟨r, w, hr, hw, hcalling, hcfg⟩ := h.serves k source hk
  have hrefresh : l.sampling.refresh = some r := hr
  have hanswer : l.sampling.answer k snapshot source.via now =
      { l.sampling.note (.answered w.cfg snapshot now) with
        refresh := some { r.setProgress k w .returned with
          results := r.results ++
            [⟨w.cfg, normalizeSnapshot snapshot w.cfg now, source.via⟩] } } := by
    simp only [Sampling.answer, hrefresh, hw, hcalling, if_true]
  have hknown : Known (l.withSampling (l.sampling.answer k snapshot source.via now)).sampling := by
    rw [withSampling_sampling (answer_sampler ..)]
    exact h.known.answer k snapshot source.via now
  have hothers : ∀ (j : Nat) source', (l.sources.erase k)[j]? = some source' →
      k ≠ j ∧ l.sources[j]? = some source' := by
    intro j source' hj
    rw [GoMap.get_erase] at hj
    split at hj
    · cases hj
    · next hne => exact ⟨hne, hj⟩
  refine ⟨h.reachable, h.threads, hknown, ?_, ?_, ?_, ?_⟩
  · intro j source' hj
    obtain ⟨hne, hget⟩ := hothers j source' hj
    show Serves (l.sampling.answer k snapshot source.via now).refresh j source'.cfg
    rw [hanswer]
    have hserves := h.serves j source' hget
    rw [hr] at hserves
    exact hserves.setProgress hw hne _ _ r.ended
  · intro j source' hj
    exact h.own j source' (hothers j source' hj).2
  · intro q hq x hx
    have hq' : (l.sampling.answer k snapshot source.via now).refresh = some q := hq
    rw [hanswer] at hq'
    obtain rfl := Option.some.inj hq'
    rcases List.mem_append.1 hx with hold | hnew
    · exact h.pending r hr x hold
    · obtain rfl := List.mem_singleton.1 hnew
      rw [hcfg]
      exact (h.own k source hk).returned hprog now
  · intro c hc
    have hc' : Moment.committed c ∈ (l.sampling.answer k snapshot source.via now).log := hc
    rw [hanswer] at hc'
    have hquiet : (Moment.answered w.cfg snapshot now).Quiet := trivial
    exact h.committed c (committed_of_cons hquiet hc')

/-- A call takes a step that is answered with its cluster's client, if with any. -/
theorem LiveInv.turned {k : Nat} {source : SourceRun} (hk : l.sources[k]? = some source)
    {c : SourceCmd} {cont : c.Answer → SourceProg Snapshot} (hprog : source.prog = .cmd c cont)
    {r : c.Answer} (hr : FindsOwn source.cfg c r) {p : ServerPool}
    (hp : p = l.server ∨ ∃ cfg, p = (server d).step l.server (.env (.upsert cfg))) :
    LiveInv d { l with
      server := p
      sources := l.sources.insert k
        { source with prog := cont r, via := c.client.or source.via } } := by
  have hserver : Reachable d p ∧ ThreadsDistinct p ∧ p.shared.monitor = l.server.shared.monitor := by
    rcases hp with rfl | ⟨cfg, rfl⟩
    · exact ⟨h.reachable, h.threads, rfl⟩
    · exact ⟨h.reachable.step _, h.threads.step _, rfl⟩
  obtain ⟨hreachable, hthreads, hmonitor⟩ := hserver
  refine ⟨hreachable, hthreads, ?_, ?_, ?_, h.pending, h.committed⟩
  · show Known ⟨p.shared.monitor, l.refresh, l.log⟩
    rw [hmonitor]
    exact h.known
  · intro j source' hj
    have hget : (l.sources.insert k _)[j]? = some source' := hj
    rw [GoMap.get_insert] at hget
    split at hget
    · next heq =>
        subst heq
        obtain rfl := Option.some.inj hget
        exact h.serves k source hk
    · exact h.serves j source' hget
  · intro j source' hj
    have hget : (l.sources.insert k _)[j]? = some source' := hj
    rw [GoMap.get_insert] at hget
    split at hget
    · obtain rfl := Option.some.inj hget
      exact (h.own k source hk).step hprog hr
    · exact h.own j source' hget

theorem LiveInv.commit (clock : Nat → Int) : LiveInv d (l.commit d clock) := by
  have hmonitor : ((server d).step l.server
      (.env (.sample (l.sampling.commit clock).sampler.samples))).shared.monitor =
        (l.sampling.commit clock).sampler :=
    (l.sampling.commit_sampled clock).symm
  have hknown : Known (l.commit d clock).sampling := by
    show Known ⟨((server d).step l.server
      (.env (.sample (l.sampling.commit clock).sampler.samples))).shared.monitor,
        (l.sampling.commit clock).refresh, (l.sampling.commit clock).log⟩
    rw [hmonitor]
    exact h.known.commit clock
  have hcases : (l.sampling.commit clock = l.sampling) ∨
      ∃ r, l.refresh = some r ∧ r.complete = true ∧ (l.sampling.commit clock).refresh = none ∧
        ∀ c, Moment.committed c ∈ (l.sampling.commit clock).log →
          Moment.committed c ∈ l.log ∨ ∃ x ∈ r.results, c.result = x := by
    unfold Sampling.commit
    split
    · exact .inl rfl
    · next r hr =>
        split
        · next hcomplete =>
            refine .inr ⟨r, hr, hcomplete, rfl, fun c hc => ?_⟩
            have hfinished : Moment.finished.Quiet := trivial
            rcases commitResults_committed (committed_of_cons hfinished hc) with hold | ⟨x, hx, heq⟩
            · exact .inl hold
            · exact .inr ⟨x.1, List.fst_mem_of_mem_zipIdx hx, heq⟩
        · exact .inl rfl
  have hreachable : Reachable d (l.commit d clock).server :=
    h.reachable.step (.env (.sample (l.sampling.commit clock).sampler.samples))
  have hthreads : ThreadsDistinct (l.commit d clock).server :=
    h.threads.step (d := d) (.env (.sample (l.sampling.commit clock).sampler.samples))
  refine ⟨hreachable, hthreads, hknown, ?_, h.own, ?_, ?_⟩
  · intro k source hk
    show Serves (l.sampling.commit clock).refresh k source.cfg
    rcases hcases with hsame | ⟨r, hr, hcomplete, -, -⟩
    · rw [hsame]
      exact h.serves k source hk
    · -- all goroutines have ended, so that none is in the source
      obtain ⟨q, w, hq, hw, hcalling, -⟩ := h.serves k source hk
      rw [hr] at hq
      obtain rfl := Option.some.inj hq
      have hended := List.all_eq_true.1 hcomplete w (List.mem_of_getElem? hw)
      simp [hcalling] at hended
  · intro q hq x hx
    have hq' : (l.sampling.commit clock).refresh = some q := hq
    rcases hcases with hsame | ⟨r, -, -, hnone, -⟩
    · rw [hsame] at hq'
      exact h.pending q hq' x hx
    · rw [hnone] at hq'
      cases hq'
  · intro c hc
    have hc' : Moment.committed c ∈ (l.sampling.commit clock).log := hc
    rcases hcases with hsame | ⟨r, hr, -, -, hlog⟩
    · rw [hsame] at hc'
      exact h.committed c hc'
    · rcases hlog c hc' with hold | ⟨x, hx, heq⟩
      · exact h.committed c hold
      · rw [heq]
        exact h.pending r hr x hx

end Steps

/-! ## Runs -/

/-- When a call of the source looks its client up, the pool is to have the
connection the call was made for under that id, or nothing. -/
def Live.inTime (l : Live) : LiveEvent → Bool
  | .turn k _ _ =>
      match l.sources[k]? with
      | some ⟨cfg, .cmd (.kafka id) _, _⟩ =>
          match l.server.shared.pool.mgr.desired[id]? with
          | some wanted => Cluster.sameConnection wanted cfg
          | none => true
      | _ => true
  | .server _ | .start _ | .endContext | .call _ | .giveUp _ | .commit _ => true

/-- What a server with its sampler can come to, by steps that meet a
condition. -/
inductive LiveRun (d : Setting) (P : Live → LiveEvent → Bool) : Live → Prop
  | new {cfg : Config} {as : List Action} (file : List Char) :
      DistinctIDs cfg.clusters → BeforeServer as →
        LiveRun d P (Live.new d cfg (run Sys.step (Sys.initWith cfg.clusters) as) file)
  | step {l : Live} {e : LiveEvent} : LiveRun d P l → P l e = true → LiveRun d P (l.step d e)

section

variable {d : Setting} {l : Live}

/-- A client of the pool has the connection that is desired. -/
theorem kafka_desired {p : ServerPool} (hp : Reachable d p) {id : String} {client : Client}
    (h : p.shared.pool.mgr.kafka id = some client) : ∃ wanted,
      p.shared.pool.mgr.desired[id]? = some wanted ∧ client.connection = wanted.connection := by
  have hclient : p.shared.pool.mgr.clients[id]? = some (some client) := by
    unfold Manager.kafka Manager.get at h
    split at h
    · next found hfound =>
        split at h
        · obtain rfl := Option.some.inj h
          exact hfound
        · cases h
    · cases h
  rcases hp.ok.inv.pool.mgr.agree id with ⟨hnone, -⟩ | ⟨c, hc, -, hdesired⟩
  · rw [hclient] at hnone
    cases hnone
  · rw [hclient] at hc
    obtain rfl := Option.some.inj (Option.some.inj hc)
    obtain ⟨wanted, hwanted, hconn⟩ := Option.map_eq_some_iff.1 hdesired
    exact ⟨wanted, hwanted, hconn.symm⟩

theorem LiveInv.turn (h : LiveInv d l) {k : Nat} {answers : Oracle SourceCmd SourceCmd.Answer}
    {now : Int} (hin : l.inTime (.turn k answers now) = true) : LiveInv d (l.turn d k answers now) := by
  unfold Live.turn
  split
  · exact h
  · next source hk =>
      split
      · next snapshot hprog => exact h.returned hk hprog now
      · next c cont hprog =>
          split
          · exact h
          · next r p hexec =>
              have hparts : FindsOwn source.cfg c r ∧
                  (p = l.server ∨ ∃ cfg, p = (server d).step l.server (.env (.upsert cfg))) := by
                cases c with
                | kafka id =>
                    obtain ⟨hr, rfl⟩ := Prod.mk.inj (Option.some.inj hexec)
                    refine ⟨fun client hclient => ?_, .inl rfl⟩
                    obtain ⟨wanted, hwanted, hconn⟩ := kafka_desired h.reachable (hr.trans hclient)
                    have hsame : Cluster.sameConnection wanted source.cfg = true := by
                      obtain ⟨cfg, prog, via⟩ := source
                      obtain rfl : prog = .cmd (.kafka id) cont := hprog
                      simpa only [Live.inTime, hk, hwanted] using hin
                    exact Cluster.sameConnection_iff.2
                      (hconn.trans (Cluster.sameConnection_iff.1 hsame))
                | beginUpsert cfg =>
                    obtain ⟨-, rfl⟩ := Prod.mk.inj (Option.some.inj hexec)
                    exact ⟨trivial, .inr ⟨cfg, rfl⟩⟩
                | awaitUpsert o =>
                    simp only [sourceExec] at hexec
                    split at hexec
                    · obtain ⟨-, rfl⟩ := Prod.mk.inj (Option.some.inj hexec)
                      exact ⟨trivial, .inl rfl⟩
                    · cases hexec
                | errorText | now | listBrokers | listTopics | listGroups | lag =>
                    simp only [sourceExec, Option.map_eq_some_iff, Prod.mk.injEq] at hexec
                    obtain ⟨-, -, -, rfl⟩ := hexec
                    exact ⟨trivial, .inl rfl⟩
              exact h.turned hk hprog hparts.1 hparts.2

theorem LiveInv.new {cfg : Config} {as : List Action} (hd : DistinctIDs cfg.clusters)
    (has : BeforeServer as) (file : List Char) :
    LiveInv d (Live.new d cfg (run Sys.step (Sys.initWith cfg.clusters) as) file) where
  reachable := ⟨cfg, as, file, [], hd, has, rfl⟩
  threads prog hprog := absurd hprog List.not_mem_nil
  known := Known.new hd (dashboardOptions cfg)
  serves k source hk := by
    have hnone : (∅ : GoMap Nat SourceRun)[k]? = some source := hk
    rw [Std.ExtTreeMap.getElem?_empty] at hnone
    cases hnone
  own k source hk := by
    have hnone : (∅ : GoMap Nat SourceRun)[k]? = some source := hk
    rw [Std.ExtTreeMap.getElem?_empty] at hnone
    cases hnone
  pending r hr := nomatch hr
  committed c hc := by
    cases List.mem_singleton.1 hc

theorem LiveRun.inv (h : LiveRun d Live.inTime l) : LiveInv d l := by
  induction h with
  | new file hd has => exact LiveInv.new hd has file
  | @step l e _ hin ih =>
      cases e with
      | server e => exact ih.serverStep e
      | start now => exact ih.start now
      | endContext => exact ih.endContext
      | call k => exact ih.call k
      | giveUp k => exact ih.giveUp k
      | turn k answers now => exact ih.turn hin
      | commit clock => exact ih.commit clock

end

/-- The condition along a list of steps. -/
def Live.meets (d : Setting) (P : Live → LiveEvent → Bool) : Live → List LiveEvent → Bool
  | _, [] => true
  | l, e :: es => P l e && (l.step d e).meets d P es

theorem LiveRun.run {d : Setting} {P : Live → LiveEvent → Bool} {l : Live} (h : LiveRun d P l)
    {es : List LiveEvent} (hes : l.meets d P es = true) :
    LiveRun d P (Lib.run (Live.step d) l es) := by
  induction es generalizing l with
  | nil => exact h
  | cons e es ih =>
      have hparts : P l e = true ∧ (l.step d e).meets d P es = true := by
        simpa [Live.meets] using hes
      exact ih (h.step hparts.1) hparts.2

theorem LiveRun.any {d : Setting} {l : Live} (h : LiveRun d (fun _ _ => true) l)
    (es : List LiveEvent) : LiveRun d (fun _ _ => true) (Lib.run (Live.step d) l es) := by
  induction es generalizing l with
  | nil => exact h
  | cons e es ih => exact ih (h.step rfl)

end KafkaManager.Api
