import KafkaManager.Lib.Emits
import KafkaManager.Proofs.Transactions

/-!
# What the audit log accounts for

A `Deed` is something a request does that lasts: a call that changes a
cluster, a `Save`, a configuration put in force, an entry handed to
`recordAudit`. `Accounted` says how the deeds of one request look when it has
replied: it has done nothing and failed; or its only deed is a `Save` that
failed; or it has made one change, or was kept from it, and then handed over
one entry, that names the change and carries the problem of the reply. A reload
puts a configuration in force and leaves no entry.

What `recordAudit` makes of an entry is not part of this: without a writer it
keeps none, and an error of the writer is dropped.

The services come first, then the two guards, then the handlers that share
their text, and in the end every interleaving of requests (`deeds_accounted`).
-/

namespace KafkaManager

open Lib

namespace Kafka

/-- The action the audit log has for a call that changes the cluster. -/
def Call.action : Call → Option String
  | .createTopic .. => some "topic.create"
  | .deleteTopic _ => some "topic.delete"
  | .createPartitions .. => some "topic.partitions.add"
  | .alterTopicConfigs .. => some "topic.config.alter"
  | .commitAllOffsets .. => some "consumer.offset.reset"
  | .deleteGroup _ => some "consumer.group.delete"
  | .produceSync .. => some "message.produce"
  | .listTopics _ | .lag _ | .listStartOffsets _ | .listEndOffsets _ | .listOffsetsAfterMilli ..
  | .newClient _ | .closeClient => none

/-- The topic or the group a call is about. -/
def Call.subject : Call → Option String
  | .createTopic _ _ _ topic | .deleteTopic topic | .createPartitions _ topic
  | .alterTopicConfigs _ topic | .listTopics topic => some topic
  | .commitAllOffsets group _ | .deleteGroup group | .lag group => some group
  | .produceSync _ record => some record.topic
  | .listStartOffsets _ | .listEndOffsets _ | .listOffsetsAfterMilli .. | .newClient _
  | .closeClient => none

theorem Call.mutates_iff (call : Call) : call.mutates = true ↔ ∃ action, call.action = some action := by
  cases call <;> simp [Call.mutates, Call.action]

end Kafka

namespace Api

open Cluster

/-! ## Deeds -/

/-- A `Save` that fails counts too: over a file that is mounted on its own it may
have left the beginning of the text, or nothing, in the file. -/
inductive Deed
  | sent (id : String) (call : Kafka.Call)
  | saved (text : List Char) (err : Option SaveError)
  | configured (cfg : Config)
  | audited (action resource : String) (problem : Option Problem)

/-- The deed of a call. -/
def callDeeds (id : String) (call : Kafka.Call) (_ : call.Answer) : List Deed :=
  if call.mutates then [.sent id call] else []

/-- The deed of a command. -/
def Cmd.deeds : (c : Cmd) → c.Answer → List Deed
  | .kafka id _ call, r => callDeeds id call r
  | .save text, err => [.saved text err]
  | .writeConfig cfg, _ => [.configured cfg]
  | .audit action resource problem, _ => [.audited action resource problem]
  | _, _ => []

/-- The message a reply carries. -/
def Reply.problem : Reply → Option Problem
  | .done .. => none
  | .error _ _ problem => some problem

/-- The name a task has in the audit log. -/
def Task.action : Task → Option String
  | .putConfig => some "config.update"
  | .restoreConfigBackup _ => some "config.restore"
  | .createTopic _ => some "topic.create"
  | .deleteTopic .. => some "topic.delete"
  | .addPartitions .. => some "topic.partitions.add"
  | .alterTopicConfigs .. => some "topic.config.alter"
  | .produceMessage _ => some "message.produce"
  | .resetConsumerGroup .. => some "consumer.offset.reset"
  | .deleteConsumerGroup .. => some "consumer.group.delete"
  | .poll | .kafka _ | .kafkaClient _ => none

/-- The resource, where the path of the request names it. -/
def Task.resource : Task → Option String
  | .putConfig => some "config.yaml"
  | .restoreConfigBackup backup => some backup
  | .deleteTopic _ topic | .addPartitions _ topic | .alterTopicConfigs _ topic => some topic
  | .resetConsumerGroup _ group | .deleteConsumerGroup _ group => some group
  | .poll | .kafka _ | .kafkaClient _ | .createTopic _ | .produceMessage _ => none

/-- The cluster of a request. -/
def Task.cluster : Task → Option String
  | .kafka cluster | .kafkaClient cluster | .createTopic cluster | .deleteTopic cluster _
  | .addPartitions cluster _ | .alterTopicConfigs cluster _ | .produceMessage cluster
  | .resetConsumerGroup cluster _ | .deleteConsumerGroup cluster _ => some cluster
  | .putConfig | .restoreConfigBackup _ | .poll => none

/-- What a request that is entered under this resource and with this problem
has changed: one call to its own cluster, about what the entry names; the file
and what is in force; nothing, if it has a problem. -/
inductive Changed (task : Task) (resource : String) : Option Problem → List Deed → Prop
  | refused (e : Problem) : Changed task resource (some e) []
  | called {id : String} {call : Kafka.Call} (problem : Option Problem)
      (hcluster : task.cluster = some id) (haction : call.action = task.action)
      (hsubject : call.subject = some resource) (hmut : call.mutates = true) :
      Changed task resource problem [.sent id call]
  | installed (text : List Char) (cfg : Config) (hcluster : task.cluster = none) :
      Changed task resource none [.saved text none, .configured cfg]

/-- What a task has done once it has returned. -/
inductive Accounted (task : Task) : Option Reply → List Deed → Prop
  | nothing {reply : Option Reply} (h : ∀ r, reply = some r → r.failed = true) :
      Accounted task reply []
  | reloaded (cfg : Config) (htask : task = .poll) : Accounted task none [.configured cfg]
  | unsaved {reply : Reply} (text : List Char) (e : SaveError) (hcluster : task.cluster = none)
      (hfailed : reply.failed = true) : Accounted task (some reply) [.saved text (some e)]
  | entered {reply : Reply} {action resource : String} {changes : List Deed}
      (haction : task.action = some action) (hresource : ∀ x, task.resource = some x → resource = x)
      (hchanged : Changed task resource reply.problem changes) :
      Accounted task (some reply) (changes ++ [.audited action resource reply.problem])

/-! ## The services -/

/-- The calls of a service under an action: none and an error, or one that
changes the cluster. -/
def Served (id action resource : String) (failed : Bool) (ds : List Deed) : Prop :=
  (ds = [] ∧ failed = true) ∨ ∃ call : Kafka.Call, ds = [.sent id call] ∧
    call.action = some action ∧ call.subject = some resource ∧ call.mutates = true

section

variable {id : String}

theorem served_refused {action resource : String} : Served id action resource true [] :=
  Or.inl ⟨rfl, rfl⟩

theorem served_called {action resource : String} {call : Kafka.Call} (failed : Bool)
    (haction : call.action = some action) (hsubject : call.subject = some resource) :
    Served id action resource failed [.sent id call] :=
  Or.inr ⟨call, rfl, haction, hsubject, call.mutates_iff.2 ⟨action, haction⟩⟩

theorem create_served (request : Topic.CreateRequest) :
    (Topic.create request).Emits (callDeeds id) fun err ds =>
      Served id "topic.create" request.name err.isSome ds := by
  unfold Topic.create
  split
  · exact served_refused
  · split
    · exact served_refused
    · split
      · exact served_refused
      · exact fun err => served_called _ rfl rfl

theorem deleteTopic_served (name : String) :
    (Topic.delete name).Emits (callDeeds id) fun err ds =>
      Served id "topic.delete" name err.isSome ds := by
  unfold Topic.delete
  split
  · exact served_refused
  · exact fun err => served_called _ rfl rfl

theorem addPartitions_served (name : String) (count : Int) :
    (Topic.addPartitions name count).Emits (callDeeds id) fun err ds =>
      Served id "topic.partitions.add" name err.isSome ds := by
  unfold Topic.addPartitions
  split
  · exact served_refused
  · intro listed
    cases listed with
    | error e => exact served_refused
    | ok current =>
        cases current with
        | none => exact served_refused
        | some current =>
            intro created
            cases created with
            | error e => exact served_called _ rfl rfl
            | ok err => exact served_called _ rfl rfl

theorem alterConfigs_served (name : String) (changes : GoMap String (Option String)) :
    (Topic.alterConfigs name changes).Emits (callDeeds id) fun err ds =>
      Served id "topic.config.alter" name err.isSome ds := by
  unfold Topic.alterConfigs
  split
  · exact served_refused
  · split
    · exact served_refused
    · split
      · exact served_refused
      · intro altered
        cases altered with
        | error e => exact served_called _ rfl rfl
        | ok response =>
            cases response with
            | error e => exact served_called _ rfl rfl
            | ok err => exact served_called _ rfl rfl

theorem produce_served (cfg : ClusterConfig) (r : Message.ProduceRequest) :
    (Message.produce cfg r).Emits (callDeeds id) fun result ds =>
      Served id "message.produce" r.topic (!result.isOk) ds := by
  unfold Message.produce
  split
  · exact served_refused
  · split
    · exact served_refused
    · unfold Message.backendProduce
      split
      · intro failed
        cases failed with
        | some e => exact served_refused
        | none => exact fun result _ => served_called _ rfl rfl
      · exact fun result => served_called _ rfl rfl

theorem resetOffsets_silent (r : Consumer.ResetRequest) (lag : Kafka.GroupLag)
    (topics : List String) :
    (Consumer.resetOffsets r lag topics).Emits (callDeeds id) fun _ ds => ds = [] := by
  unfold Consumer.resetOffsets
  split
  · exact fun offsets => rfl
  · split
    · exact fun offsets => rfl
    · split
      · exact fun offsets => rfl
      · split
        · exact rfl
        · exact rfl

theorem reset_served (r : Consumer.ResetRequest) :
    (Consumer.reset r).Emits (callDeeds id) fun err ds =>
      Served id "consumer.offset.reset" r.group err.isSome ds := by
  unfold Consumer.reset
  cases r.validate with
  | some e => exact served_refused
  | none =>
      intro lag
      cases lag with
      | error e => exact served_refused
      | ok lag =>
          cases lag with
          | none => exact served_refused
          | some lag =>
              show Prog.Emits _ _ (ite _ _ _)
              split
              · exact served_refused
              · refine (resetOffsets_silent r lag _).bind fun offsets ds hds => ?_
                subst hds
                cases offsets with
                | error e => exact served_refused
                | ok offsets =>
                    intro committed
                    cases committed with
                    | some e => exact served_called _ rfl rfl
                    | none => exact served_called _ rfl rfl

theorem deleteGroup_served (group : String) :
    (Consumer.delete group).Emits (callDeeds id) fun err ds =>
      Served id "consumer.group.delete" group err.isSome ds := by
  unfold Consumer.delete
  split
  · exact served_refused
  · intro deleted
    cases deleted with
    | some e => exact served_called _ rfl rfl
    | none => exact served_called _ rfl rfl

theorem through_emits {α : Type} {client : Client} {p : Kafka.KafkaProg α}
    {Q : α → List Deed → Prop} (h : p.Emits (callDeeds id) Q) :
    (through id client p).Emits Cmd.deeds Q :=
  h.interp fun _ r => List.append_nil (callDeeds id _ r)

end

/-! ## The guards -/

/-- What a section under the lock does, the request does. -/
theorem readLocked_emits {ε : Type} {id : String}
    {body : ServerProg (Except ε (Client × ClusterConfig))}
    {Q : Except ε (Client × ClusterConfig) → List Deed → Prop} (h : body.Emits Cmd.deeds Q) :
    (readLocked id body).Emits Cmd.deeds Q := by
  refine Prog.emits_silent (fun _ => rfl) fun _ => ?_
  refine h.bind fun r ds hq => ?_
  refine Prog.emits_silent (fun _ => rfl) fun _ => ?_
  show Q r (ds ++ [])
  rw [List.append_nil]
  exact hq

theorem kafkaClientLocked_silent (id : String) :
    (kafkaClientLocked id).Emits Cmd.deeds fun _ ds => ds = [] := by
  unfold kafkaClientLocked
  intro cfg
  cases cfg with
  | none => exact rfl
  | some cfg =>
      intro client
      cases client with
      | none => exact rfl
      | some client => exact rfl

/-- A guard does nothing if it lets the request pass. It enters a request only
to refuse it. -/
def GuardDeeds (action resource : String) : Except Reply (Client × ClusterConfig) → List Deed → Prop
  | .ok _, ds => ds = []
  | .error reply, ds => reply.failed = true ∧
      (ds = [] ∨ ∃ e, reply.problem = some e ∧ ds = [.audited action resource (some e)])

theorem writable_guarded (id action resource : String) :
    (writable id action resource (kafkaClientLocked id)).Emits Cmd.deeds
      (GuardDeeds action resource) := by
  refine readLocked_emits (Prog.emits_silent (fun _ => rfl) fun cluster => ?_)
  cases cluster with
  | none => exact ⟨rfl, Or.inl rfl⟩
  | some cfg =>
      show Prog.Emits _ _ (ite _ _ _)
      split
      · exact fun _ => ⟨rfl, Or.inr ⟨_, rfl, rfl⟩⟩
      · refine (kafkaClientLocked_silent id).bind fun found ds hds => ?_
        subst hds
        cases found with
        | error e => exact ⟨rfl, Or.inl rfl⟩
        | ok found => exact rfl

/-! ## The handlers -/

/-- What the end of a handler makes of what its service has done. -/
theorem answer_accounted {task : Task} {id action resource : String} {problem : Option Problem}
    {ds : List Deed} {status : Nat} {record : Option Message.Record}
    (hcluster : task.cluster = some id) (haction : task.action = some action)
    (hresource : ∀ x, task.resource = some x → resource = x)
    (hserved : Served id action resource problem.isSome ds) :
    (answer action resource problem (.done status record)).Emits Cmd.deeds fun reply ds' =>
      Accounted task (some reply) (ds ++ ds') := by
  have hchanged : Changed task resource problem ds := by
    rcases hserved with ⟨rfl, hfailed⟩ | ⟨call, rfl, hcall, hsubject, hmut⟩
    · obtain ⟨e, rfl⟩ := Option.isSome_iff_exists.1 hfailed
      exact .refused e
    · exact .called problem hcluster (hcall.trans haction.symm) hsubject hmut
  intro _
  cases problem with
  | none => exact .entered haction hresource hchanged
  | some e => exact .entered haction hresource hchanged

section

variable {task : Task} {id action resource : String}

/-- A handler behind a guard that the request has passed. -/
theorem guarded_accounted {next : Client → ClusterConfig → ServerProg Reply}
    (haction : task.action = some action) (hresource : ∀ x, task.resource = some x → resource = x)
    (hnext : ∀ client cfg, (next client cfg).Emits Cmd.deeds fun reply ds =>
      Accounted task (some reply) ds) :
    (guarded (writable id action resource (kafkaClientLocked id)) next).Emits Cmd.deeds
      fun reply ds => Accounted task (some reply) ds := by
  refine (writable_guarded id action resource).bind fun passed ds hguard => ?_
  cases passed with
  | ok found =>
      obtain rfl : ds = [] := hguard
      exact hnext found.1 found.2
  | error reply =>
      obtain ⟨hfailed, rfl | ⟨e, hproblem, rfl⟩⟩ := hguard
      · exact .nothing fun r hr => Option.some.inj hr ▸ hfailed
      · show Accounted task (some reply) ([] ++ [.audited action resource (some e)])
        rw [← hproblem]
        exact .entered haction hresource (hproblem ▸ .refused e)

theorem decodeJSON_accounted {b : Body} {next : b.Value → ServerProg Reply}
    (hnext : ∀ v, (next v).Emits Cmd.deeds fun reply ds => Accounted task (some reply) ds) :
    (decodeJSON b next).Emits Cmd.deeds fun reply ds => Accounted task (some reply) ds := by
  refine Prog.emits_silent (fun _ => rfl) fun v => ?_
  cases v with
  | none => exact .nothing fun r hr => Option.some.inj hr ▸ rfl
  | some v => exact hnext v

/-- A service and the end of its handler. -/
theorem service_accounted {ε : Type} {client : Client} {p : Kafka.KafkaProg (Option ε)}
    {wrap : ε → Problem} {status : Nat} (hcluster : task.cluster = some id)
    (haction : task.action = some action) (hresource : ∀ x, task.resource = some x → resource = x)
    (hp : p.Emits (callDeeds id) fun err ds => Served id action resource err.isSome ds) :
    (through id client p >>= fun err =>
      answer action resource (err.map wrap) (.done status none)).Emits Cmd.deeds
        fun reply ds => Accounted task (some reply) ds := by
  refine (through_emits hp).bind fun err ds hserved => ?_
  refine answer_accounted hcluster haction hresource ?_
  rw [Option.isSome_map]
  exact hserved

end

theorem createTopic_accounted (cluster : String) :
    (createTopic cluster).Emits Cmd.deeds fun reply ds =>
      Accounted (.createTopic cluster) (some reply) ds :=
  guarded_accounted rfl (fun _ h => by cases h) fun _ _ => decodeJSON_accounted fun request =>
    service_accounted rfl rfl (fun _ h => by cases h) (create_served request)

theorem deleteTopic_accounted (cluster name : String) :
    (deleteTopic cluster name).Emits Cmd.deeds fun reply ds =>
      Accounted (.deleteTopic cluster name) (some reply) ds :=
  guarded_accounted rfl (fun _ h => Option.some.inj h) fun _ _ =>
    service_accounted rfl rfl (fun _ h => Option.some.inj h) (deleteTopic_served name)

theorem addPartitions_accounted (cluster topic : String) :
    (addPartitions cluster topic).Emits Cmd.deeds fun reply ds =>
      Accounted (.addPartitions cluster topic) (some reply) ds :=
  guarded_accounted rfl (fun _ h => Option.some.inj h) fun _ _ => decodeJSON_accounted fun count =>
    service_accounted rfl rfl (fun _ h => Option.some.inj h) (addPartitions_served topic count)

theorem alterTopicConfigs_accounted (cluster topic : String) :
    (alterTopicConfigs cluster topic).Emits Cmd.deeds fun reply ds =>
      Accounted (.alterTopicConfigs cluster topic) (some reply) ds :=
  guarded_accounted rfl (fun _ h => Option.some.inj h) fun _ _ => decodeJSON_accounted fun configs =>
    service_accounted rfl rfl (fun _ h => Option.some.inj h) (alterConfigs_served topic configs)

theorem produceMessage_accounted (cluster : String) :
    (produceMessage cluster).Emits Cmd.deeds fun reply ds =>
      Accounted (.produceMessage cluster) (some reply) ds := by
  refine guarded_accounted rfl (fun _ h => by cases h) fun client cfg =>
    decodeJSON_accounted fun request => ?_
  refine (through_emits (produce_served cfg request)).bind fun result ds hserved => ?_
  cases result with
  | error e => exact answer_accounted rfl rfl (fun _ h => by cases h) hserved
  | ok record => exact answer_accounted rfl rfl (fun _ h => by cases h) hserved

theorem resetConsumerGroup_accounted (cluster group : String) :
    (resetConsumerGroup cluster group).Emits Cmd.deeds fun reply ds =>
      Accounted (.resetConsumerGroup cluster group) (some reply) ds :=
  guarded_accounted rfl (fun _ h => Option.some.inj h) fun _ _ => decodeJSON_accounted fun request =>
    service_accounted rfl rfl (fun _ h => Option.some.inj h)
      (reset_served { request with group := group })

theorem deleteConsumerGroup_accounted (cluster group : String) :
    (deleteConsumerGroup cluster group).Emits Cmd.deeds fun reply ds =>
      Accounted (.deleteConsumerGroup cluster group) (some reply) ds :=
  guarded_accounted rfl (fun _ h => Option.some.inj h) fun _ _ =>
    service_accounted rfl rfl (fun _ h => Option.some.inj h) (deleteGroup_served group)

/-! ## Transactions -/

theorem poolCall_silent (r : Request) : (poolCall r).Emits Cmd.deeds fun _ ds => ds = [] :=
  fun _ _ => rfl

theorem applyClustersIfChanged_silent (clusters : List ClusterConfig) :
    (applyClustersIfChanged clusters).Emits Cmd.deeds fun _ ds => ds = [] := by
  refine Prog.emits_silent (fun _ => rfl) fun same => ?_
  cases same with
  | true => exact rfl
  | false =>
      refine (poolCall_silent _).bind fun err ds hds => ?_
      subst hds
      cases err with
      | none => exact rfl
      | some e => exact rfl

theorem rollbackClusters_silent (clusters : List ClusterConfig) :
    (rollbackClusters clusters).Emits Cmd.deeds fun _ ds => ds = [] := by
  refine (poolCall_silent _).bind fun err ds hds => ?_
  subst hds
  cases err with
  | none => exact rfl
  | some e => exact fun _ _ => rfl

theorem saveFailed_emits (current : Config) (changed : Bool) (code : String) (e : SaveError) :
    (saveFailed current changed code e).Emits Cmd.deeds fun reply ds =>
      reply.failed = true ∧ ds = [] := by
  unfold saveFailed
  cases changed with
  | false => exact ⟨rfl, rfl⟩
  | true =>
      refine (rollbackClusters_silent _).bind fun err ds hds => ?_
      subst hds
      cases err with
      | none => exact ⟨rfl, rfl⟩
      | some e' => exact ⟨rfl, rfl⟩

/-- A transaction that stores the file puts its configuration in force and
enters it, and one that does not leaves a failed `Save` behind or nothing. -/
theorem install_accounted {task : Task} (current cfg : Config) (text : List Char)
    (code action resource : String) (hcluster : task.cluster = none)
    (haction : task.action = some action) (hresource : ∀ x, task.resource = some x → resource = x) :
    (install current cfg text code action resource).Emits Cmd.deeds fun reply ds =>
      Accounted task (some reply) ds := by
  refine (applyClustersIfChanged_silent _).bind fun applied ds hds => ?_
  subst hds
  cases applied with
  | error e => exact .nothing fun r hr => Option.some.inj hr ▸ rfl
  | ok changed =>
      intro saved
      cases saved with
      | some e =>
          refine (saveFailed_emits current changed code e).mono fun reply ds h => ?_
          obtain ⟨hfailed, rfl⟩ := h
          exact .unsaved text e hcluster hfailed
      | none =>
          intro _ _ _
          show Accounted task (some (.done 204 none))
            ([.saved text none, .configured cfg] ++ [.audited action resource none])
          have hproblem : (Reply.done 204 none).problem = none := rfl
          rw [← hproblem]
          exact .entered haction hresource (.installed text cfg hcluster)

theorem transaction_emits {α : Type} {txn : Txn} {failed : α → Bool} {body : ServerProg α}
    {Q : α → List Deed → Prop} (h : body.Emits Cmd.deeds Q) :
    (transaction txn failed body).Emits Cmd.deeds Q := by
  refine Prog.emits_silent (fun _ => rfl) fun _ => ?_
  refine h.bind fun r ds hq => ?_
  refine Prog.emits_silent (fun _ => rfl) fun _ => ?_
  show Q r (ds ++ [])
  rw [List.append_nil]
  exact hq

variable {d : Setting}

theorem putConfig_accounted :
    (putConfig d).Emits Cmd.deeds fun reply ds => Accounted .putConfig (some reply) ds := by
  unfold putConfig
  split
  · exact .nothing fun r hr => Option.some.inj hr ▸ rfl
  · refine Prog.emits_silent (fun _ => rfl) fun body => ?_
    cases body with
    | none => exact .nothing fun r hr => Option.some.inj hr ▸ rfl
    | some candidate =>
        refine transaction_emits (Prog.emits_silent (fun _ => rfl) fun current => ?_)
        show (putCandidate d current candidate).Emits _ _
        simp only [putCandidate]
        cases (fillSecrets current candidate).validate with
        | some e => exact .nothing fun r hr => Option.some.inj hr ▸ rfl
        | none =>
            simp only
            cases marshal d.yaml (fillSecrets current candidate) with
            | none => exact .nothing fun r hr => Option.some.inj hr ▸ rfl
            | some data =>
                exact install_accounted _ _ _ _ _ _ rfl rfl fun _ h => Option.some.inj h

theorem restoreConfigBackup_accounted (backup : String) :
    (restoreConfigBackup d backup).Emits Cmd.deeds fun reply ds =>
      Accounted (.restoreConfigBackup backup) (some reply) ds := by
  unfold restoreConfigBackup
  split
  · exact .nothing fun r hr => Option.some.inj hr ▸ rfl
  · refine Prog.emits_silent (fun _ => rfl) fun read => ?_
    cases read with
    | error e => exact .nothing fun r hr => Option.some.inj hr ▸ rfl
    | ok data =>
        dsimp only [Prog.bind]
        cases load d.yaml d.env data with
        | error e => exact .nothing fun r hr => Option.some.inj hr ▸ rfl
        | ok persisted =>
            dsimp only
            cases runtime d.gcm persisted d.secret with
            | error e => exact .nothing fun r hr => Option.some.inj hr ▸ rfl
            | ok runtimeCfg =>
                refine transaction_emits (Prog.emits_silent (fun _ => rfl) fun current => ?_)
                exact install_accounted _ _ _ _ _ _ rfl rfl fun _ h => Option.some.inj h

/-- A reload leaves no entry. -/
def OnlyConfigured (ds : List Deed) : Prop := ds = [] ∨ ∃ cfg, ds = [.configured cfg]

theorem reconcileConfig_reloaded (cfg : Config) :
    (reconcileConfig cfg).Emits Cmd.deeds fun _ ds => OnlyConfigured ds := by
  refine transaction_emits ((applyClustersIfChanged_silent _).bind fun applied ds hds => ?_)
  subst hds
  cases applied with
  | error e => exact Or.inl rfl
  | ok changed => exact fun _ _ => Or.inr ⟨cfg, rfl⟩

theorem onChange_reloaded (cfg : Config) :
    (onChange d cfg).Emits Cmd.deeds fun _ ds => OnlyConfigured ds := by
  unfold onChange
  cases runtime d.gcm cfg d.secret with
  | error e => exact fun _ => Or.inl rfl
  | ok runtimeCfg =>
      refine (reconcileConfig_reloaded runtimeCfg).bind fun err ds h => ?_
      cases err with
      | none =>
          show OnlyConfigured (ds ++ [])
          rw [List.append_nil]
          exact h
      | some e =>
          intro _
          show OnlyConfigured (ds ++ [])
          rw [List.append_nil]
          exact h

theorem pollText_reloaded (data : List Char) (known : List UInt8) :
    (pollText d data known).Emits Cmd.deeds fun _ ds => OnlyConfigured ds := by
  unfold pollText
  split
  · exact Or.inl rfl
  · cases load d.yaml d.env data with
    | error e => exact Or.inl rfl
    | ok cfg => exact Prog.emits_silent (fun _ => rfl) fun _ => onChange_reloaded cfg

theorem poll_reloaded : (poll d).Emits Cmd.deeds fun _ ds => OnlyConfigured ds := by
  refine Prog.emits_silent (fun _ => rfl) fun _ => Prog.emits_silent (fun _ => rfl) fun read => ?_
  cases read with
  | error e => exact fun _ => Or.inl rfl
  | ok data =>
      refine Prog.emits_silent (fun _ => rfl) fun known => ?_
      refine (pollText_reloaded data known).bind fun _ ds h => ?_
      intro _
      show OnlyConfigured (ds ++ [])
      rw [List.append_nil]
      exact h

/-! ## Every task -/

theorem ended_emits {α : Type} {p : ServerProg α} {Q : α → List Deed → Prop}
    {Q' : Option Reply → List Deed → Prop} (h : p.Emits Cmd.deeds Q)
    (hq : ∀ a ds, Q a ds → Q' none ds) : (ended p).Emits Cmd.deeds Q' := by
  refine h.bind fun a ds ha => ?_
  show Q' none (ds ++ [])
  rw [List.append_nil]
  exact hq a ds ha

theorem replied_emits {p : ServerProg Reply} {Q : Option Reply → List Deed → Prop}
    (h : p.Emits Cmd.deeds fun reply ds => Q (some reply) ds) :
    (replied p).Emits Cmd.deeds Q := by
  refine h.bind fun reply ds hq => ?_
  show Q (some reply) (ds ++ [])
  rw [List.append_nil]
  exact hq

theorem kafkaClient_silent (id : String) :
    (kafkaClient id).Emits Cmd.deeds fun _ ds => ds = [] :=
  readLocked_emits (kafkaClientLocked_silent id)

/-- What a task does, whatever it is answered. -/
theorem prog_accounted (task : Task) :
    (task.prog d).Emits Cmd.deeds fun reply ds => Accounted task reply ds := by
  cases task with
  | putConfig => exact replied_emits putConfig_accounted
  | restoreConfigBackup backup => exact replied_emits (restoreConfigBackup_accounted backup)
  | poll =>
      refine ended_emits poll_reloaded fun _ ds h => ?_
      rcases h with rfl | ⟨cfg, rfl⟩
      · exact .nothing fun r hr => by cases hr
      · exact .reloaded cfg rfl
  | kafka cluster | kafkaClient cluster =>
      refine ended_emits (kafkaClient_silent cluster) fun _ ds hds => ?_
      subst hds
      exact .nothing fun r hr => by cases hr
  | createTopic cluster => exact replied_emits (createTopic_accounted cluster)
  | deleteTopic cluster topic => exact replied_emits (deleteTopic_accounted cluster topic)
  | addPartitions cluster topic => exact replied_emits (addPartitions_accounted cluster topic)
  | alterTopicConfigs cluster topic =>
      exact replied_emits (alterTopicConfigs_accounted cluster topic)
  | produceMessage cluster => exact replied_emits (produceMessage_accounted cluster)
  | resetConsumerGroup cluster group =>
      exact replied_emits (resetConsumerGroup_accounted cluster group)
  | deleteConsumerGroup cluster group =>
      exact replied_emits (deleteConsumerGroup_accounted cluster group)

theorem answerable (c : Cmd) : Nonempty c.Answer := by
  cases c with
  | readBody b => exact ⟨none⟩
  | readConfig => exact ⟨defaultConfig⟩
  | readBackup id => exact ⟨.error .invalidID⟩
  | readFile => exact ⟨.ok []⟩
  | matchesClusters clusters => exact ⟨true⟩
  | begin r => exact ⟨0⟩
  | readHash => exact ⟨[]⟩
  | clusterConfig id => exact ⟨none⟩
  | await o => exact ⟨none⟩
  | kafkaClient id => exact ⟨none⟩
  | save text => exact ⟨none⟩
  | kafka id client call => cases call <;> exact ⟨default⟩
  | _ => exact ⟨()⟩

/-- However requests, reloads, the pool and the sampler interleave: what a
request has done when it has replied is accounted for, and what one that is
under way has done so far is the beginning of what will be. -/
theorem deeds_accounted (d : Setting) (cfg : Config) (pool : Sys) (file : List Char)
    (es : List ServerEvent) (t : Nat) (task : Task) (ht : (spawned es)[t]? = some task) :
    ∃ prog, (run (server d).step (started d cfg pool file) es).threads[t]? = some prog ∧
      (∀ reply, prog = .ret reply →
        Accounted task reply ((server d).record Cmd.deeds t (started d cfg pool file) es)) ∧
      ∃ reply rest, Accounted task reply
        ((server d).record Cmd.deeds t (started d cfg pool file) es ++ rest) := by
  obtain ⟨prog, hprog, hemits⟩ := Machine.record_spawned (M := server d)
    (p := started d cfg pool file) es ht (prog_accounted task)
  rw [show (started d cfg pool file).threads.length + t = t from Nat.zero_add t] at hprog hemits
  refine ⟨prog, hprog, fun reply hreply => ?_, hemits.ends answerable⟩
  subst hreply
  have h := hemits
  rw [Prog.emits_ret, List.append_nil] at h
  exact h

/-- Two requests at once. There is no cluster `b`. -/
def deletions : List ServerEvent :=
  [.spawn (.deleteTopic "b" "orders"), .spawn (.deleteTopic "a" "orders")] ++
    (List.replicate 7 [.thread 1 answers, .thread 0 answers]).flatten

theorem deletions_replied :
    (run (server plainSetting).step plainStarted deletions).threads[1]? =
      some (.ret (some (.done 204 none))) := by
  -- `isBlank` runs the decoder of a literal
  with_unfolding_all rfl

theorem deletions_record :
    (server plainSetting).record Cmd.deeds 1 plainStarted deletions =
      [.sent "a" (.deleteTopic "orders"), .audited "topic.delete" "orders" none] := by
  with_unfolding_all rfl

/-- The second has replied. -/
theorem deeds_accounted_delete :
    Accounted (.deleteTopic "a" "orders") (some (.done 204 none))
      [.sent "a" (.deleteTopic "orders"), .audited "topic.delete" "orders" none] := by
  obtain ⟨prog, hprog, hreplied, -⟩ := deeds_accounted plainSetting writableConfig plainPool
    writableText deletions 1 (.deleteTopic "a" "orders") rfl
  rw [← deletions_record]
  exact hreplied _ (Option.some.inj (hprog.symm.trans deletions_replied))

end Api

end KafkaManager
