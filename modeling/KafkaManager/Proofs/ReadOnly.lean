import KafkaManager.Proofs.Transactions

/-!
# What a read-only cluster is protected from

A guard looks up the cluster in the configuration in force and lets the
request pass if it is writable; what the request sends afterwards rests on
that lookup, not on the configuration it is sent under. The log of a reachable
server says so (`Logged`), and the results are read off it: from the moment a
configuration is in force that has a cluster read-only, no guard lets a
request to that cluster pass, but one that passed before is not held back.

`earlier` is the log up to that moment and `later` what has happened since.
-/

namespace KafkaManager

/-- The configuration has the cluster and has it read-only. -/
def Config.ReadOnly (cfg : Config) (id : String) : Prop :=
  ∃ entry : ClusterConfig, cfg.cluster id = some entry ∧ entry.readOnly = true

namespace Api

open Lib Cluster Dashboard

/-! ## The log while a cluster is read-only -/

/-- No configuration that came into force cleared the flag. -/
def KeepsReadOnly (id : String) (later : List Mark) : Prop :=
  ∀ cfg, Mark.config cfg ∈ later → cfg.ReadOnly id

section

variable {id : String} {cfg : Config} {later earlier : List Mark}

theorem KeepsReadOnly.tail {m : Mark} (h : KeepsReadOnly id (m :: later)) :
    KeepsReadOnly id later :=
  fun cfg hmem => h cfg (List.mem_cons_of_mem m hmem)

theorem Logged.tail {m : Mark} {log : List Mark} (h : Logged (m :: log)) : Logged log := by
  cases m with
  | config cfg => exact h
  | lookup t id entry => exact h.2
  | sent t id call => exact h.2

theorem inForce_readOnly (hro : cfg.ReadOnly id) (hkeep : KeepsReadOnly id later) :
    ∃ c, inForce (later ++ .config cfg :: earlier) = some c ∧ c.ReadOnly id := by
  induction later with
  | nil => exact ⟨cfg, rfl, hro⟩
  | cons m later ih =>
      cases m with
      | config c => exact ⟨c, rfl, hkeep c List.mem_cons_self⟩
      | lookup t id' entry => exact ih hkeep.tail
      | sent t id' call => exact ih hkeep.tail

/-- Whoever looks finds the cluster read-only. -/
theorem lookup_readOnly (hlogged : Logged (later ++ .config cfg :: earlier))
    (hro : cfg.ReadOnly id) (hkeep : KeepsReadOnly id later) {t : Nat}
    {entry : Option ClusterConfig} (hmem : Mark.lookup t id entry ∈ later) :
    ∃ e, entry = some e ∧ e.readOnly = true := by
  induction later with
  | nil => exact absurd hmem List.not_mem_nil
  | cons m later ih =>
      rcases List.mem_cons.1 hmem with hnow | hbefore
      · subst hnow
        obtain ⟨c, hforce, e, hentry, hread⟩ :=
          inForce_readOnly hro hkeep.tail
        have hanswer : (inForce (later ++ .config cfg :: earlier)).bind (fun c => c.cluster id) =
            entry := hlogged.1
        rw [hforce, Option.bind_some, hentry] at hanswer
        exact ⟨e, hanswer.symm, hread⟩
      · exact ih hlogged.tail hkeep.tail hbefore

/-- So what lets a call through is older than the flag. -/
theorem allowed_earlier {t : Nat} (h : Allowed t id (later ++ .config cfg :: earlier))
    (hlogged : Logged (later ++ .config cfg :: earlier)) (hro : cfg.ReadOnly id)
    (hkeep : KeepsReadOnly id later) : Allowed t id earlier := by
  obtain ⟨entry, hmem, hwritable⟩ := h
  rcases List.mem_append.1 hmem with hlater | hrest
  · obtain ⟨e, heq, hread⟩ := lookup_readOnly hlogged hro hkeep hlater
    obtain rfl := Option.some.inj heq
    rw [hread] at hwritable
    exact absurd hwritable (by simp)
  · rcases List.mem_cons.1 hrest with hconfig | hearlier
    · exact absurd hconfig (by simp)
    · exact ⟨entry, hearlier, hwritable⟩

theorem sent_allowed (hlogged : Logged (later ++ .config cfg :: earlier))
    (hro : cfg.ReadOnly id) (hkeep : KeepsReadOnly id later) {t : Nat} {call : Kafka.Call}
    (hmem : Mark.sent t id call ∈ later) (hmut : call.mutates = true) :
    Allowed t id earlier := by
  induction later with
  | nil => exact absurd hmem List.not_mem_nil
  | cons m later ih =>
      rcases List.mem_cons.1 hmem with hnow | hbefore
      · subst hnow
        have hallowed : Allowed t id (later ++ .config cfg :: earlier) := hlogged.1 hmut
        exact allowed_earlier hallowed hlogged.tail hro hkeep.tail
      · exact ih hlogged.tail hkeep.tail hbefore

end

/-! ## A request that has passed

The guard of `deleteTopic` lets the request pass, then a save turns on
`readOnly` and completes, and the call is yet to be sent. -/

/-- The server after the guard, the lock free again. -/
def leftState : State := (guardState plainStarted.shared 0).leave 0

def completedPool : ServerPool where
  shared := (putState plainSetting leftState 1 storedText).release
  threads := [deleteOrders, .ret (some (.done 204 none))]

theorem run_leave :
    run (server plainSetting).step plainStarted
        (.spawn (.deleteTopic "a" "orders") ::
          (List.replicate 4 (.thread 0 answers) ++ [.thread 0 answers])) =
      { shared := leftState, threads := [deleteOrders] } := by
  refine Eq.trans (run_guard [] rfl plainStarted_entry kafka_plainPool [.thread 0 answers]) ?_
  exact run_newest rfl rfl []

theorem completedPool_reachable : Reachable plainSetting completedPool := by
  refine reachable_of_run
    (.spawn (.deleteTopic "a" "orders") ::
        (List.replicate 4 (.thread 0 answers) ++ [.thread 0 answers]) ++
      .spawn .putConfig :: (List.replicate 8 (.thread 1 answers) ++ [.thread 1 answers])) ?_
  rw [run_append, run_leave]
  refine Eq.trans (run_put [deleteOrders] rfl marshal_readOnly load_readOnly rfl rfl rfl
    matches_plainPool [.thread 1 answers]) ?_
  have hunlock : (Cmd.unlock false).exec plainSetting [deleteOrders].length answers
      (putState plainSetting leftState 1 storedText) = some ((), completedPool.shared) := rfl
  exact run_newest rfl hunlock []

theorem deleteOrders_sends :
    ∃ k, deleteOrders = .cmd (.kafka "a" ordersClient (.deleteTopic "orders")) k := by
  have horders : isBlank "orders" = false := not_blank rfl (by decide)
  unfold deleteOrders Topic.delete
  rw [if_neg (by rw [horders]; simp)]
  exact ⟨_, rfl⟩

/-- Its next step sends it. -/
theorem completedPool_step :
    ((server plainSetting).step completedPool (.thread 0 answers)).shared =
      completedPool.shared.note (.sent 0 "a" (.deleteTopic "orders")) := by
  obtain ⟨k, hk⟩ := deleteOrders_sends
  have hnext : completedPool.threads[0]? =
      some (.cmd (.kafka "a" ordersClient (.deleteTopic "orders")) k) := congrArg some hk
  have hsend : (server plainSetting).exec 0 (.kafka "a" ordersClient (.deleteTopic "orders")) answers
      completedPool.shared =
        some (none, completedPool.shared.note (.sent 0 "a" (.deleteTopic "orders"))) := rfl
  exact congrArg Pool.shared ((server plainSetting).run_thread hnext hsend [])

theorem readOnlyConfig_readOnly : readOnlyConfig.ReadOnly "a" := ⟨secretCluster true, by decide, rfl⟩

/-! ## The results -/

/-- The save is over, the cluster is read-only, and a topic of it is deleted. -/
theorem sent_to_read_only :
    Reachable plainSetting completedPool ∧ completedPool.shared.writer = none ∧
      completedPool.threads[1]? = some (.ret (some (.done 204 none))) ∧
      completedPool.shared.cfg.ReadOnly "a" ∧
      ((server plainSetting).step completedPool (.thread 0 answers)).shared =
        completedPool.shared.note (.sent 0 "a" (.deleteTopic "orders")) ∧
      (Kafka.Call.deleteTopic "orders").mutates = true :=
  ⟨completedPool_reachable, rfl, rfl, readOnlyConfig_readOnly, completedPool_step, rfl⟩

/-- While a cluster is read-only every lookup says so, and only a request that
found it writable before changes it. -/
theorem read_only_since {p : ServerPool} (d : Setting) (hp : Reachable d p) {id : String}
    {cfg : Config} {later earlier : List Mark}
    (hlog : p.shared.log = later ++ .config cfg :: earlier) (hro : cfg.ReadOnly id)
    (hkeep : ∀ c, Mark.config c ∈ later → c.ReadOnly id) :
    (∀ (t : Nat) (entry : Option ClusterConfig), Mark.lookup t id entry ∈ later →
      ∃ e, entry = some e ∧ e.readOnly = true) ∧
      ∀ (t : Nat) (call : Kafka.Call), Mark.sent t id call ∈ later → call.mutates = true →
        ∃ entry : ClusterConfig, Mark.lookup t id (some entry) ∈ earlier ∧
          entry.readOnly = false := by
  have hlogged : Logged (later ++ .config cfg :: earlier) := by
    rw [← hlog]
    exact hp.ok.inv.logged
  exact ⟨fun t entry hmem => lookup_readOnly hlogged hro hkeep hmem,
    fun t call hmem hmut => sent_allowed hlogged hro hkeep hmem hmut⟩

theorem read_only_since_orders :
    ∃ entry : ClusterConfig,
      Mark.lookup 0 "a" (some entry) ∈
        [.lookup 0 "a" (some (secretCluster false)), .lookup 0 "a" (some (secretCluster false)),
          .config writableConfig] ∧ entry.readOnly = false :=
  have hlog : ((server plainSetting).step completedPool (.thread 0 answers)).shared.log =
      [.sent 0 "a" (.deleteTopic "orders")] ++ .config readOnlyConfig ::
        [.lookup 0 "a" (some (secretCluster false)), .lookup 0 "a" (some (secretCluster false)),
          .config writableConfig] := congrArg State.log completedPool_step
  (read_only_since plainSetting (completedPool_reachable.step (.thread 0 answers)) hlog
    readOnlyConfig_readOnly (fun c hc => absurd hc (by simp))).2 0 (.deleteTopic "orders")
    List.mem_cons_self rfl

end Api

end KafkaManager
