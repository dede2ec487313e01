import KafkaManager.Api.Handlers
import KafkaManager.Proofs.PoolTransactions

/-!
# What the threads of the server agree on

While nobody holds `configTxn` exclusively, the pool is to have the connections
of the running configuration and the sampler has its enabled clusters: this is
what the lock protects, `Settled`. Whoever takes it exclusively may break it
and has to bring it back, with the new configuration or with the old one.

What the holder relies on in the meantime is `Kept`: the others leave its
fields alone, sampling changes the sampler and its shadow alike, and the
sampler's `Upsert` calls leave the pool `Idle` or `Busy`. A reader relies on
the configuration, the polling thread on what it has recorded, and every
thread on the log growing.

`serverProtocol` puts this together. Its conditions on commands are what is
proved of the system: of the unlock of a transaction, of the unlock of a
lookup and of the end of a poll.
-/

namespace KafkaManager.Api

open Lib Cluster Dashboard

/-! ## The log -/

/-- The configuration that came into force last. -/
def inForce : List Mark → Option Config
  | [] => none
  | .config cfg :: _ => some cfg
  | .lookup .. :: rest | .sent .. :: rest => inForce rest

/-- The guard of thread `t` has looked up cluster `id` and found it writable. -/
def Allowed (t : Nat) (id : String) (log : List Mark) : Prop :=
  ∃ entry : ClusterConfig, Mark.lookup t id (some entry) ∈ log ∧ entry.readOnly = false

/-- Lookups are answered from the configuration in force, and a call that
changes a cluster was allowed before. -/
def Logged : List Mark → Prop
  | [] => True
  | .config _ :: rest => Logged rest
  | .lookup _ id entry :: rest =>
      (inForce rest).bind (fun cfg => cfg.cluster id) = entry ∧ Logged rest
  | .sent t id call :: rest => (call.mutates = true → Allowed t id rest) ∧ Logged rest

theorem Allowed.later {t : Nat} {id : String} {log log' : List Mark} (h : Allowed t id log)
    (hlog : log <:+ log') : Allowed t id log' := by
  obtain ⟨entry, hmem, hro⟩ := h
  exact ⟨entry, hlog.subset hmem, hro⟩

/-! ## The invariant -/

/-- What the lock protects. -/
structure Settled (s : State) : Prop where
  idle : Idle (wanted s.cfg.clusters) s.pool
  configs : s.monitor.configs = enabledClusters s.cfg.clusters
  saved : s.saved = none

/-- No two of these texts have one hash. -/
def NoCollision (d : Setting) (texts : List (List Char)) : Prop :=
  ∀ x ∈ texts, ∀ y ∈ texts, d.sum256 x = d.sum256 y → x = y

/-- If the watcher will not look at the file again, the server runs what the
file says or is about to. -/
def InStep (d : Setting) (s : State) : Prop :=
  s.astray = false → NoCollision d s.contents → s.pending = false → d.sum256 s.file = s.hash →
    ∀ cfg, d.loadRuntime s.file = some cfg → cfg = s.coming

structure Inv (d : Setting) (s : State) : Prop where
  pool : Good s.pool
  distinct : DistinctIDs s.cfg.clusters
  exclusive : s.writer.isSome = true → s.readers = []
  settled : s.writer = none → Settled s
  logged : Logged s.log
  inForce : inForce s.log = some s.cfg
  polled : s.polling = none → s.pending = false
  file : s.file ∈ s.contents
  inStep : InStep d s

/-! ## What a thread relies on -/

/-- An `Apply` has failed only if it may: that of a reload loses the file. -/
def State.lost (s : State) : Prop := s.reloading = true → s.astray = true

/-- What the holder of the lock relies on. -/
structure Kept (s s' : State) : Prop where
  writer : s'.writer = s.writer
  cfg : s'.cfg = s.cfg
  saved : s'.saved = s.saved
  configs : s'.monitor.configs = s.monitor.configs
  options : s'.monitor.options = s.monitor.options
  shadow : s.monitor = s.shadow → s'.monitor = s'.shadow
  idle : ∀ D, Idle D s.pool → Idle D s'.pool
  busy : ∀ o clusters D, Busy o clusters D s.lost s.pool → Busy o clusters D s'.lost s'.pool

theorem Kept.refl (s : State) : Kept s s :=
  ⟨rfl, rfl, rfl, rfl, rfl, id, fun _ h => h, fun _ _ _ h => h⟩

theorem Kept.trans {s₁ s₂ s₃ : State} (h : Kept s₁ s₂) (h' : Kept s₂ s₃) : Kept s₁ s₃ where
  writer := h'.writer.trans h.writer
  cfg := h'.cfg.trans h.cfg
  saved := h'.saved.trans h.saved
  configs := h'.configs.trans h.configs
  options := h'.options.trans h.options
  shadow hm := h'.shadow (h.shadow hm)
  idle D hi := h'.idle D (h.idle D hi)
  busy o clusters D hb := h'.busy o clusters D (h.busy o clusters D hb)

/-- What the polling thread relies on. -/
structure Watching (s s' : State) : Prop where
  polling : s'.polling = s.polling
  hash : s'.hash = s.hash
  pending : s'.pending = s.pending

theorem Watching.refl (s : State) : Watching s s := ⟨rfl, rfl, rfl⟩

structure Rely (t : Nat) (s s' : State) : Prop where
  held : ∀ h, s.writer = some h → h.thread = t → Kept s s'
  reading : t ∈ s.readers → t ∈ s'.readers ∧ s'.cfg = s.cfg
  watching : s.polling = some t → Watching s s'
  log : s.log <:+ s'.log
  contents : s.contents ⊆ s'.contents
  astray : s.astray = true → s'.astray = true

theorem Rely.refl (t : Nat) (s : State) : Rely t s s where
  held _ _ _ := Kept.refl s
  reading h := ⟨h, rfl⟩
  watching _ := Watching.refl s
  log := List.suffix_refl _
  contents := List.Subset.refl _
  astray := id

theorem Rely.trans {t : Nat} {s₁ s₂ s₃ : State} (h : Rely t s₁ s₂) (h' : Rely t s₂ s₃) :
    Rely t s₁ s₃ where
  held w hw ht :=
    have hk := h.held w hw ht
    hk.trans (h'.held w (hk.writer.trans hw) ht)
  reading hr := by
    obtain ⟨hr', hcfg⟩ := h.reading hr
    obtain ⟨hr'', hcfg'⟩ := h'.reading hr'
    exact ⟨hr'', hcfg'.trans hcfg⟩
  watching hp := by
    have hw := h.watching hp
    have hw' := h'.watching (hw.polling.trans hp)
    exact ⟨hw'.polling.trans hw.polling, hw'.hash.trans hw.hash, hw'.pending.trans hw.pending⟩
  log := h.log.trans h'.log
  contents := List.Subset.trans h.contents h'.contents
  astray ha := h'.astray (h.astray ha)

/-- A step that concerns neither what a transaction changes nor the pool. -/
theorem Kept.of_same {s s' : State} (hwriter : s'.writer = s.writer) (hcfg : s'.cfg = s.cfg)
    (hsaved : s'.saved = s.saved) (hmonitor : s'.monitor = s.monitor)
    (hshadow : s'.shadow = s.shadow) (hpool : s'.pool = s.pool) (hastray : s'.astray = s.astray) :
    Kept s s' where
  writer := hwriter
  cfg := hcfg
  saved := hsaved
  configs := by rw [hmonitor]
  options := by rw [hmonitor]
  shadow h := by rw [hmonitor, hshadow, h]
  idle D hi := by
    rw [hpool]
    exact hi
  busy o clusters D hb := by
    have hlost : s'.lost = s.lost := by
      unfold State.lost State.reloading
      rw [hwriter, hastray]
    rw [hpool, hlost]
    exact hb

/-- Such a step, seen by a thread that neither polls nor loses its share of
the lock by it. -/
theorem Rely.of_same {t : Nat} {s : State} (s' : State) (hkept : Kept s s')
    (hreaders : t ∈ s.readers → t ∈ s'.readers) (hwatch : s.polling = some t → Watching s s')
    (hlog : s.log <:+ s'.log) (hcontents : s'.contents = s.contents)
    (hastray : s'.astray = s.astray) : Rely t s s' where
  held _ _ _ := hkept
  reading hr := ⟨hreaders hr, hkept.cfg⟩
  watching := hwatch
  log := hlog
  contents := by
    rw [hcontents]
    exact List.Subset.refl _
  astray ha := hastray.trans ha

/-! ## The conditions -/

/-- After a transaction that reports an error everything is as it was. -/
structure Undone (h : Holder) (s : State) : Prop where
  cfg : s.cfg = h.cfg
  monitor : s.monitor = s.shadow
  desired : connections s.pool.mgr.desired = connections h.desired
  installed : ∀ (id : String) (c : Client), s.pool.mgr.clients[id]? = some (some c) →
    ∃ cfg ∈ h.cfg.clusters, cfg.id = id ∧ cfg.disabled = false ∧
      Cluster.sameConnection c.createdFrom cfg = true

/-- After one that reports success the new configuration is in force. -/
structure Done (h : Holder) (s : State) : Prop where
  cfg : s.cfg = h.txn.target h.cfg
  options : s.monitor.options = normalizeOptions (dashboardOptions s.cfg)

/-- How a transaction ends: pool and sampler agree with the configuration, and
it is all or nothing. -/
structure AllOrNothing (failed : Bool) (h : Holder) (s : State) : Prop where
  pool : s.pool.mgr.matchesClusters s.cfg.clusters = true
  configs : s.monitor.configs = enabledClusters s.cfg.clusters
  undone : failed = true → Undone h s
  done : failed = false → Done h s

/-- A client of the entry's own connection, and the entry is the one in
force. -/
structure Paired (found : Found) (s : State) : Prop where
  entry : s.cfg.cluster found.id = some found.cfg
  client : Cluster.sameConnection found.client.createdFrom found.cfg = true

/-- A poll that ends while no transaction runs, on the text it has read, leaves
the server with the configuration of the file. -/
def CaughtUp (d : Setting) (text : List Char) (s : State) : Prop :=
  s.astray = false → NoCollision d s.contents → s.writer = none → s.file = text →
    ∀ cfg, d.loadRuntime s.file = some cfg → s.cfg = cfg

def Cmd.Meets (d : Setting) (t : Nat) : Cmd → State → Prop
  | .unlock failed, s => ∃ h, s.writer = some h ∧ h.thread = t ∧ AllOrNothing failed h s
  | .rUnlock (some found), s => Paired found s
  | .pollEnd (some text), s => CaughtUp d text s
  | _, _ => True

def serverProtocol (d : Setting) : Protocol Cmd State where
  inv := Inv d
  rely := Rely
  pre := Cmd.Meets d
  refl := Rely.refl
  trans _ _ _ _ := Rely.trans

/-! ## The surroundings -/

variable {d : Setting} {s : State}

/-- A text the watcher would not look at is the one that runs, or the server
has gone astray. -/
theorem edit_inStep (text : List Char) : InStep d (s.edit d text) := by
  intro hcalm _ hpending hhash cfg hcfg
  have hcalm' : (s.astray || (!s.pending && d.sum256 text == s.hash &&
      (d.loadRuntime text).any fun cfg => cfg != s.coming)) = false := hcalm
  have hp : s.pending = false := hpending
  have hh : d.sum256 text = s.hash := hhash
  have hc : d.loadRuntime text = some cfg := hcfg
  simp only [hp, hh, hc, Bool.or_eq_false_iff, Bool.not_false, beq_self_eq_true, Bool.true_and,
    Option.any_some, bne_eq_false_iff_eq] at hcalm'
  exact hcalm'.2

theorem Inv.sample (h : Inv d s) (x : Samples) : Inv d (s.sample x) where
  pool := h.pool
  distinct := h.distinct
  exclusive := h.exclusive
  settled hw := ⟨(h.settled hw).idle, (h.settled hw).configs, (h.settled hw).saved⟩
  logged := h.logged
  inForce := h.inForce
  polled := h.polled
  file := h.file
  inStep := h.inStep

theorem Inv.edit (h : Inv d s) (text : List Char) : Inv d (s.edit d text) where
  pool := h.pool
  distinct := h.distinct
  exclusive := h.exclusive
  settled hw := ⟨(h.settled hw).idle, (h.settled hw).configs, (h.settled hw).saved⟩
  logged := h.logged
  inForce := h.inForce
  polled := h.polled
  file := List.mem_cons_self
  inStep := edit_inStep text

/-- The pool changes by something that leaves it settled. -/
theorem Inv.setPool (h : Inv d s) {p : Sys} (hgood : Good p)
    (hidle : s.writer = none → Idle (wanted s.cfg.clusters) p) : Inv d (s.setPool p) where
  pool := hgood
  distinct := h.distinct
  exclusive := h.exclusive
  settled hw := ⟨hidle hw, (h.settled hw).configs, (h.settled hw).saved⟩
  logged := h.logged
  inForce := h.inForce
  polled := h.polled
  file := h.file
  inStep := h.inStep

theorem Inv.lose (h : Inv d s) : Inv d s.lose where
  pool := h.pool
  distinct := h.distinct
  exclusive := h.exclusive
  settled hw := ⟨(h.settled hw).idle, (h.settled hw).configs, (h.settled hw).saved⟩
  logged := h.logged
  inForce := h.inForce
  polled := h.polled
  file := h.file
  inStep hcalm := absurd hcalm (by simp [State.lose])

/-- A step of the pool that is not a transaction's. -/
theorem Rely.setPool {p : Sys} (hidle : ∀ D, Idle D s.pool → Idle D p)
    (hbusy : ∀ o clusters D, Busy o clusters D s.lost s.pool → Busy o clusters D s.lost p)
    (t : Nat) : Rely t s (s.setPool p) where
  held _ _ _ := ⟨rfl, rfl, rfl, rfl, rfl, id, hidle, hbusy⟩
  reading h := ⟨h, rfl⟩
  watching _ := ⟨rfl, rfl, rfl⟩
  log := List.suffix_refl _
  contents := List.Subset.refl _
  astray := id

theorem Rely.setPool_lose {p : Sys} (hidle : ∀ D, Idle D s.pool → Idle D p)
    (hbusy : ∀ o clusters D, Busy o clusters D s.lost s.pool → Busy o clusters D True p)
    (t : Nat) : Rely t s (s.setPool p).lose where
  held _ _ _ := ⟨rfl, rfl, rfl, rfl, rfl, id, hidle,
    fun o clusters D hb => (hbusy o clusters D hb).mono fun _ _ => rfl⟩
  reading h := ⟨h, rfl⟩
  watching _ := ⟨rfl, rfl, rfl⟩
  log := List.suffix_refl _
  contents := List.Subset.refl _
  astray _ := rfl

theorem Rely.sample (t : Nat) (x : Samples) : Rely t s (s.sample x) where
  held _ _ _ := ⟨rfl, rfl, rfl, rfl, rfl,
    fun h => congrArg (fun m : Sampler => m.sampled x) h, fun _ h => h, fun _ _ _ h => h⟩
  reading h := ⟨h, rfl⟩
  watching _ := ⟨rfl, rfl, rfl⟩
  log := List.suffix_refl _
  contents := List.Subset.refl _
  astray := id

theorem Rely.edit (t : Nat) (text : List Char) : Rely t s (s.edit d text) where
  held _ _ _ := ⟨rfl, rfl, rfl, rfl, rfl, id, fun _ h => h,
    fun _ _ _ h => h.mono fun hlost hre => by
      show (s.astray || _) = true
      rw [hlost hre, Bool.true_or]⟩
  reading h := ⟨h, rfl⟩
  watching _ := ⟨rfl, rfl, rfl⟩
  log := List.suffix_refl _
  contents := List.subset_cons_self ..
  astray h := by
    show (s.astray || _) = true
    rw [h, Bool.true_or]

theorem State.lost_of_not_failing {o : Nat} {v : Move} (h : s.failsReload o v = false)
    (happ : (s.pool.ops[o]?).any Op.applying = true) (hv : v.fails = true) : s.lost := by
  intro hre
  simp [State.failsReload, hre, happ, hv] at h

/-- The surroundings keep the invariant and what every thread relies on. -/
theorem outside_keeps (h : Inv d s) (e : Outside) :
    Inv d (e.exec d s) ∧ ∀ t, Rely t s (e.exec d s) := by
  cases e with
  | upsert cfg =>
      refine ⟨h.setPool (start_good h.pool _).1 fun hw => (h.settled hw).idle.upsert cfg,
        Rely.setPool (fun D hi => hi.upsert cfg) fun o clusters D hb => hb.upsert cfg⟩
  | move o v =>
      have hgood := (move_good h.pool o v).1
      have hidle : ∀ D, Idle D s.pool → Idle D (s.pool.move o v) := fun D hi => hi.move h.pool o v
      have hinv : Inv d (s.setPool (s.pool.move o v)) :=
        h.setPool hgood fun hw => hidle _ (h.settled hw).idle
      cases hfail : s.failsReload o v with
      | true =>
          have hexec : (Outside.move o v).exec d s = (s.setPool (s.pool.move o v)).lose :=
            if_pos hfail
          rw [hexec]
          exact ⟨hinv.lose, Rely.setPool_lose hidle fun o' clusters D hb =>
            (hb.mono fun _ => trivial).move h.pool o v fun _ _ => trivial⟩
      | false =>
          have hexec : (Outside.move o v).exec d s = s.setPool (s.pool.move o v) :=
            if_neg (by rw [hfail]; simp)
          rw [hexec]
          exact ⟨hinv, Rely.setPool hidle fun o' clusters D hb =>
            hb.move h.pool o v fun happ hv => State.lost_of_not_failing hfail happ hv⟩
  | sample x => exact ⟨h.sample x, fun t => Rely.sample t x⟩
  | write text => exact ⟨h.edit text, fun t => Rely.edit t text⟩

/-! ## A server that has just been built -/

theorem run_quiet {clusters : List ClusterConfig} {as : List Action}
    (has : ∀ a ∈ as, ∀ clusters, a ≠ .start (.apply clusters)) :
    Good (run Sys.step (Sys.initWith clusters) as) ∧
      ∀ op ∈ (run Sys.step (Sys.initWith clusters) as).ops, op.applying = false := by
  refine run_invariant_of (P := fun p => Good p ∧ ∀ op ∈ p.ops, op.applying = false)
    (A := fun a => ∀ clusters, a ≠ .start (.apply clusters)) ?_ ⟨initWith_good clusters, ?_⟩ has
  · intro p a ha ⟨hgood, hquiet⟩
    refine ⟨(step_good hgood a).1, ?_⟩
    cases a with
    | move o v => exact (Idle.move ⟨hquiet, rfl⟩ hgood o v).quiet
    | start r =>
        intro op hmem
        rcases List.mem_append.1 hmem with hold | hnew
        · exact hquiet op hold
        · rw [List.mem_singleton.1 hnew]
          cases r with
          | apply clusters => exact absurd rfl (ha clusters)
          | upsert cfg => exact begin_upsert_applying ..
          | setDesired clusters => rfl
          | retain active => rfl
          | close => rfl
  · intro op hmem
    rw [List.mem_singleton.1 hmem]
    rfl

theorem loadRuntime_distinct {text : List Char} {cfg : Config}
    (h : d.loadRuntime text = some cfg) : DistinctIDs cfg.clusters := by
  unfold Setting.loadRuntime at h
  split at h
  · simp at h
  · next persisted hload =>
      cases hrun : runtime d.gcm persisted d.secret with
      | error e =>
          rw [hrun] at h
          exact absurd h (by simp [Except.toOption])
      | ok cfg' =>
          rw [hrun] at h
          obtain rfl := Option.some.inj h
          exact runtime_ids hrun (Config.validate_ids (load_valid hload))

theorem newServer_inv {cfg : Config} (hdist : DistinctIDs cfg.clusters) {p : Sys}
    (hgood : Good p) (hquiet : ∀ op ∈ p.ops, op.applying = false) (file : List Char) :
    Inv d (newServer d cfg p file) where
  pool := (start_good hgood _).1
  distinct := hdist
  exclusive h := absurd h (by simp [newServer])
  settled _ := ⟨Idle.setDesired ⟨hquiet, rfl⟩ cfg.clusters, rfl, rfl⟩
  logged := trivial
  inForce := rfl
  polled _ := rfl
  file := List.mem_singleton_self _
  inStep hcalm _ _ _ cfg' hcfg' := by
    have hload : d.loadRuntime file = some cfg := by
      simpa [newServer, bne_eq_false_iff_eq] using hcalm
    have hload' : d.loadRuntime file = some cfg' := hcfg'
    rw [hload] at hload'
    exact (Option.some.inj hload').symm

end KafkaManager.Api
