import KafkaManager.Proofs.ServerInvariant

/-!
# The transactions keep the protocol

One lemma for each function of the source that runs under the exclusive lock,
from the calls of the pool up to the three handlers. `Untouched` is the server
before the transaction has changed anything but the pool, `Ended` the server
when it is about to unlock; what the pool is to have is carried beside them,
and the frame rule carries what a function does not look at.
-/

namespace KafkaManager.Api

open Lib Cluster Dashboard

variable {d : Setting} {t : Nat} {α : Type} {s : State}

abbrev Safe (d : Setting) (t : Nat) (Q : α → State → Prop) (p : ServerProg α) (s : State) : Prop :=
  (serverProtocol d).Safe (Cmd.exec d) t Q p s

/-- The others do not make it false. -/
def Stable (t : Nat) (A : State → Prop) : Prop := ∀ s s', A s → Rely t s s' → A s'

theorem Stable.and {A B : State → Prop} (hA : Stable t A) (hB : Stable t B) :
    Stable t fun s => A s ∧ B s :=
  fun s s' h hr => ⟨hA s s' h.1 hr, hB s s' h.2 hr⟩

theorem stable_const (p : Prop) : Stable t fun _ => p := fun _ _ h _ => h

section

variable {Q : α → State → Prop} {A : State → Prop}

theorem safe_ret {a : α} (hA : Stable t A) (h : A s) (hQ : ∀ s', Inv d s' → A s' → Q a s') :
    Safe d t Q (.ret a) s :=
  fun s' hr hi => hQ s' hi (hA s s' h hr)

theorem safe_cmd {c : Cmd} {k : c.Answer → ServerProg α} (hA : Stable t A) (h : A s)
    (hc : ∀ s', Inv d s' → A s' → c.Meets d t s' ∧ ∀ o r s'',
      c.exec d t o s' = some (r, s'') →
        Inv d s'' ∧ (∀ t', t' ≠ t → Rely t' s' s'') ∧ Safe d t Q (k r) s'') :
    Safe d t Q (.cmd c k) s :=
  Protocol.Safe.cmd fun s' hr hi => hc s' hi (hA s s' h hr)

/-- Commands that only look. -/
def Cmd.quiet : Cmd → Bool
  | .readBody _ | .readConfig | .matchesClusters _ | .await _ | .kafkaClient _ | .readBackup _
  | .audit .. | .readFile | .readHash => true
  | _ => false

theorem exec_quiet {c : Cmd} (hc : c.quiet = true) {o : Oracle Cmd Cmd.Answer} {r : c.Answer}
    {s' : State} (he : c.exec d t o s = some (r, s')) : s' = s := by
  cases c with
  | readBody b =>
      simp only [Cmd.exec, Option.map_eq_some_iff, Prod.mk.injEq] at he
      obtain ⟨-, -, -, rfl⟩ := he
      rfl
  | readBackup id =>
      simp only [Cmd.exec, Option.map_eq_some_iff, Prod.mk.injEq] at he
      obtain ⟨-, -, -, rfl⟩ := he
      rfl
  | readFile =>
      simp only [Cmd.exec, Option.map_eq_some_iff] at he
      obtain ⟨a, -, ha⟩ := he
      cases a with
      | error e => exact (Prod.mk.inj ha).2.symm
      | ok text => exact (Prod.mk.inj ha).2.symm
  | await o' =>
      simp only [Cmd.exec] at he
      split at he
      · exact (Prod.mk.inj (Option.some.inj he)).2.symm
      · simp at he
  | readConfig => exact (Prod.mk.inj (Option.some.inj he)).2.symm
  | matchesClusters clusters => exact (Prod.mk.inj (Option.some.inj he)).2.symm
  | kafkaClient id => exact (Prod.mk.inj (Option.some.inj he)).2.symm
  | audit action resource problem => exact (Prod.mk.inj (Option.some.inj he)).2.symm
  | readHash => exact (Prod.mk.inj (Option.some.inj he)).2.symm
  | _ => exact absurd hc (by simp [Cmd.quiet])

/-- Only two commands touch the configuration or the sampler. -/
theorem exec_kept {c : Cmd} {o : Oracle Cmd Cmd.Answer} {r : c.Answer} {s' : State}
    (he : c.exec d t o s = some (r, s')) (hw : ∀ cfg, c ≠ .writeConfig cfg)
    (hu : ∀ cfg, c ≠ .updateMonitor cfg) : s'.cfg = s.cfg ∧ s'.monitor = s.monitor := by
  cases c with
  | writeConfig cfg => exact absurd rfl (hw cfg)
  | updateMonitor cfg => exact absurd rfl (hu cfg)
  | lock | rLock | pollBegin =>
      simp only [Cmd.exec] at he
      split at he
      · obtain ⟨-, rfl⟩ := Prod.mk.inj (Option.some.inj he)
        exact ⟨rfl, rfl⟩
      · cases he
  | unlock | rUnlock | clusterConfig | begin | writeHash | rejected | pollEnd =>
      obtain ⟨-, rfl⟩ := Prod.mk.inj (Option.some.inj he)
      exact ⟨rfl, rfl⟩
  | save text =>
      simp only [Cmd.exec] at he
      split at he
      · obtain ⟨-, rfl⟩ := Prod.mk.inj (Option.some.inj he)
        exact ⟨rfl, rfl⟩
      · split at he
        · cases he
        · obtain ⟨-, rfl⟩ := Prod.mk.inj (Option.some.inj he)
          exact ⟨rfl, rfl⟩
        · obtain ⟨-, rfl⟩ := Prod.mk.inj (Option.some.inj he)
          exact ⟨rfl, rfl⟩
  | kafka id client call =>
      simp only [Cmd.exec, Option.map_eq_some_iff, Prod.mk.injEq] at he
      obtain ⟨-, -, -, rfl⟩ := he
      exact ⟨rfl, rfl⟩
  | readBody | readConfig | matchesClusters | await | kafkaClient | readBackup | audit | readFile
  | readHash =>
      obtain rfl := exec_quiet rfl he
      exact ⟨rfl, rfl⟩

theorem meets_quiet {c : Cmd} (hc : c.quiet = true) : c.Meets d t s := by
  cases c with
  | unlock failed => exact absurd hc (by simp [Cmd.quiet])
  | rUnlock returned => exact absurd hc (by simp [Cmd.quiet])
  | pollEnd text => exact absurd hc (by simp [Cmd.quiet])
  | _ => trivial

theorem safe_quiet {c : Cmd} {k : c.Answer → ServerProg α} (hc : c.quiet = true)
    (hA : Stable t A) (h : A s)
    (hk : ∀ o r s', Inv d s' → A s' → c.exec d t o s' = some (r, s') → Safe d t Q (k r) s') :
    Safe d t Q (.cmd c k) s := by
  refine safe_cmd hA h fun s' hi ha => ⟨meets_quiet hc, fun o r s'' he => ?_⟩
  obtain rfl := exec_quiet hc he
  exact ⟨hi, fun t' _ => Rely.refl t' s'', hk o r s'' hi ha he⟩

end

/-! ## The holder's steps, seen by the others -/

variable {h : Holder}

/-- While a thread holds the lock, a step of it that leaves the watcher alone
is no concern of the others. -/
theorem rely_of_held (hw : s.writer = some h) (ht : h.thread = t) (hi : Inv d s) {s' : State}
    {t' : Nat} (hne : t' ≠ t) (hwatch : s.polling = some t' → Watching s s')
    (hlog : s.log <:+ s'.log) (hcontents : s.contents ⊆ s'.contents)
    (hastray : s.astray = true → s'.astray = true) : Rely t' s s' where
  held h' hw' ht' := by
    rw [hw] at hw'
    obtain rfl := Option.some.inj hw'
    exact absurd (ht'.symm.trans ht) hne
  reading hr := by
    rw [hi.exclusive (by rw [hw]; rfl)] at hr
    exact absurd hr (by simp)
  watching := hwatch
  log := hlog
  contents := hcontents
  astray := hastray

theorem rely_setPool (hw : s.writer = some h) (ht : h.thread = t) (hi : Inv d s) (p : Sys)
    {t' : Nat} (hne : t' ≠ t) : Rely t' s (s.setPool p) :=
  rely_of_held hw ht hi hne (fun _ => ⟨rfl, rfl, rfl⟩) (List.suffix_refl _) (List.Subset.refl _) id

theorem inv_setPool (hw : s.writer = some h) (hi : Inv d s) {p : Sys} (hgood : Good p) :
    Inv d (s.setPool p) :=
  hi.setPool hgood fun hnone => by
    rw [hw] at hnone
    exact absurd hnone (by simp)

/-! ## The pool -/

variable {D : String → Option Connection} {clusters : List ClusterConfig}

/-- The lock is held and the pool is between two calls. -/
def Resting (h : Holder) (D : String → Option Connection) (s : State) : Prop :=
  s.writer = some h ∧ Idle D s.pool

theorem resting_stable (ht : h.thread = t) : Stable t (Resting h D) := by
  intro s s' ⟨hw, hidle⟩ hr
  have hk := hr.held h hw ht
  exact ⟨hk.writer.trans hw, hk.idle D hidle⟩

theorem lost_stable (ht : h.thread = t) : Stable t fun s => s.writer = some h ∧ s.lost := by
  intro s s' ⟨hw, hlost⟩ hr
  have hk := hr.held h hw ht
  refine ⟨hk.writer.trans hw, fun hre => hr.astray (hlost ?_)⟩
  unfold State.reloading at hre ⊢
  rwa [hk.writer] at hre

theorem poolCall_apply_safe (ht : h.thread = t) (hs : Resting h D s) :
    Safe d t (fun r s => (r = none ∧ Resting h (wanted clusters) s) ∨
      (r.isSome = true ∧ s.lost ∧ Resting h D s)) (poolCall (.apply clusters)) s := by
  refine safe_cmd (resting_stable ht) hs fun s₁ hi ⟨hw, hidle⟩ => ⟨trivial, fun o r s₂ he => ?_⟩
  obtain ⟨rfl, rfl⟩ := Prod.mk.inj (Option.some.inj he)
  refine ⟨inv_setPool hw hi (start_good hi.pool _).1, fun t' hne => rely_setPool hw ht hi _ hne, ?_⟩
  -- From here on the operation is the only `Apply`, whatever the sampler begins.
  have hbusy : Busy s₁.pool.ops.length clusters D s₁.lost (s₁.pool.start (.apply clusters)) :=
    hidle.apply clusters s₁.lost
  have hstable : Stable t fun s => s.writer = some h ∧
      Busy s₁.pool.ops.length clusters D s.lost s.pool := by
    intro s s' ⟨hw, hb⟩ hr
    have hk := hr.held h hw ht
    exact ⟨hk.writer.trans hw, hk.busy _ _ _ hb⟩
  refine safe_quiet rfl hstable ⟨hw, hbusy⟩ fun o r s₃ hi₃ ⟨hw₃, hb₃⟩ he₃ => ?_
  simp only [Cmd.exec] at he₃
  split at he₃
  · next hop =>
      obtain ⟨rfl, -⟩ := Prod.mk.inj (Option.some.inj he₃)
      rcases hb₃.returned hop with ⟨hnone, hidle₃⟩ | ⟨hsome, hlost, hidle₃⟩
      · exact safe_ret (resting_stable ht) ⟨hw₃, hidle₃⟩ fun s' _ hrest => Or.inl ⟨hnone, hrest⟩
      · exact safe_ret ((lost_stable ht).and (resting_stable ht)) ⟨⟨hw₃, hlost⟩, hw₃, hidle₃⟩
          fun s' _ hrest => Or.inr ⟨hsome, hrest.1.2, hrest.2⟩
  · simp at he₃

theorem poolCall_setDesired_safe (ht : h.thread = t) (hs : Resting h D s) :
    Safe d t (fun _ s => Resting h (wanted clusters) s) (poolCall (.setDesired clusters)) s := by
  refine safe_cmd (resting_stable ht) hs fun s₁ hi ⟨hw, hidle⟩ => ⟨trivial, fun o r s₂ he => ?_⟩
  obtain ⟨rfl, rfl⟩ := Prod.mk.inj (Option.some.inj he)
  refine ⟨inv_setPool hw hi (start_good hi.pool _).1, fun t' hne => rely_setPool hw ht hi _ hne, ?_⟩
  refine safe_quiet rfl (resting_stable ht) ⟨hw, hidle.setDesired clusters⟩
    fun o r s₃ _ hs₃ _ => ?_
  exact safe_ret (resting_stable ht) hs₃ fun s' _ hrest => hrest

/-- What `applyClustersIfChanged` returns says what the pool is to have. -/
def Applied (h : Holder) (clusters : List ClusterConfig) (D : String → Option Connection)
    (s : State) : Except OpError Bool → Prop
  | .ok changed => Resting h (wanted clusters) s ∧ (changed = false → D = wanted clusters)
  | .error _ => s.lost ∧ Resting h D s

theorem applyClustersIfChanged_safe (ht : h.thread = t) (hs : Resting h D s) :
    Safe d t (fun r s => Applied h clusters D s r) (applyClustersIfChanged clusters) s := by
  refine safe_quiet rfl (resting_stable ht) hs fun o r s₁ hi hs₁ he => ?_
  obtain ⟨hr, -⟩ := Prod.mk.inj (Option.some.inj he)
  cases r with
  | true =>
      have hD : D = wanted clusters := (hs₁.2.matchesClusters hi.pool clusters).1 hr
      exact safe_ret (resting_stable ht) (hD ▸ hs₁) fun s' _ hrest => ⟨hrest, fun _ => hD⟩
  | false =>
      refine (poolCall_apply_safe ht hs₁).bind fun r s₂ _ hr => ?_
      rcases hr with ⟨rfl, hrest⟩ | ⟨hsome, hlost, hrest⟩
      · exact safe_ret (resting_stable ht) hrest fun s' _ hrest =>
          ⟨hrest, fun hfalse => absurd hfalse (by simp)⟩
      · obtain ⟨e, rfl⟩ := Option.isSome_iff_exists.1 hsome
        exact safe_ret ((lost_stable ht).and (resting_stable ht)) ⟨⟨hrest.1, hlost⟩, hrest⟩
          fun s' _ hrest => ⟨hrest.1.2, hrest.2⟩

/-- Whatever fails, the pool is to have the connections it is rolled back to. -/
theorem rollbackClusters_safe (ht : h.thread = t) (hs : Resting h D s) :
    Safe d t (fun _ s => Resting h (wanted clusters) s) (rollbackClusters clusters) s := by
  refine (poolCall_apply_safe ht hs).bind fun r s₁ _ hr => ?_
  rcases hr with ⟨rfl, hrest⟩ | ⟨hsome, -, hrest⟩
  · exact safe_ret (resting_stable ht) hrest fun s' _ hrest => hrest
  · obtain ⟨e, rfl⟩ := Option.isSome_iff_exists.1 hsome
    refine (poolCall_setDesired_safe ht hrest).bind fun _ s₂ _ hrest₂ => ?_
    exact safe_ret (resting_stable ht) hrest₂ fun s' _ hrest => hrest

/-! ## What these calls leave alone -/

def Cmd.poolOnly : Cmd → Bool
  | .matchesClusters _ | .begin _ | .await _ => true
  | _ => false

theorem exec_poolOnly {c : Cmd} (hc : c.poolOnly = true) {o : Oracle Cmd Cmd.Answer}
    {r : c.Answer} {s' : State} (he : c.exec d t o s = some (r, s')) :
    ∃ p, s' = s.setPool p := by
  cases c with
  | begin req => exact ⟨_, (Prod.mk.inj (Option.some.inj he)).2.symm⟩
  | matchesClusters clusters => exact ⟨s.pool, exec_quiet rfl he⟩
  | await o' => exact ⟨s.pool, exec_quiet rfl he⟩
  | _ => exact absurd hc (by simp [Cmd.poolOnly])

theorem poolCall_within (r : Cluster.Request) :
    (poolCall r).Within (fun _ _ => True) fun c => c.poolOnly = true :=
  ⟨rfl, fun _ _ => ⟨rfl, fun _ _ => trivial⟩⟩

theorem applyClustersIfChanged_within :
    (applyClustersIfChanged clusters).Within (fun _ _ => True) fun c => c.poolOnly = true := by
  refine ⟨rfl, fun r _ => ?_⟩
  cases r with
  | true => trivial
  | false =>
      refine (poolCall_within _).bind fun e => ?_
      cases e <;> trivial

theorem rollbackClusters_within :
    (rollbackClusters clusters).Within (fun _ _ => True) fun c => c.poolOnly = true := by
  refine (poolCall_within _).bind fun e => ?_
  cases e with
  | none => trivial
  | some e => exact (poolCall_within _).bind fun _ => trivial

theorem Safe.frame_pool {Q : α → State → Prop} {F : State → Prop} {p : ServerProg α}
    (hp : p.Within (fun _ _ => True) fun c => c.poolOnly = true) (hF : Stable t F)
    (hset : ∀ s p, F s → F (s.setPool p)) (hs : Safe d t Q p s) (hf : F s) :
    Safe d t (fun a s => Q a s ∧ F s) p s := by
  refine Protocol.Safe.frame hs hf hF (fun c o s r s' hc he hf => ?_) hp
  obtain ⟨p, rfl⟩ := exec_poolOnly hc he
  exact hset s p hf

/-! ## Before and after -/

/-- The transaction has changed nothing but the pool. -/
structure Untouched (h : Holder) (s : State) : Prop where
  writer : s.writer = some h
  cfg : s.cfg = h.cfg
  saved : s.saved = none
  configs : s.monitor.configs = enabledClusters h.cfg.clusters
  monitor : s.monitor = s.shadow

/-- What a transaction that is about to unlock leaves. -/
structure Ended (h : Holder) (failed : Bool) (s : State) : Prop where
  writer : s.writer = some h
  saved : s.saved = none
  idle : Idle (wanted s.cfg.clusters) s.pool
  configs : s.monitor.configs = enabledClusters s.cfg.clusters
  undone : failed = true → s.cfg = h.cfg ∧ s.monitor = s.shadow
  done : failed = false → Done h s

theorem untouched_stable (ht : h.thread = t) : Stable t (Untouched h) := by
  intro s s' hu hr
  have hk := hr.held h hu.writer ht
  exact ⟨hk.writer.trans hu.writer, hk.cfg.trans hu.cfg, hk.saved.trans hu.saved,
    hk.configs.trans hu.configs, hk.shadow hu.monitor⟩

theorem ended_stable {failed : Bool} (ht : h.thread = t) : Stable t (Ended h failed) := by
  intro s s' he hr
  have hk := hr.held h he.writer ht
  refine ⟨hk.writer.trans he.writer, hk.saved.trans he.saved, ?_, ?_, fun hf => ?_, fun hf => ?_⟩
  · rw [hk.cfg]
    exact hk.idle _ he.idle
  · rw [hk.configs, hk.cfg]
    exact he.configs
  · exact ⟨hk.cfg.trans (he.undone hf).1, hk.shadow (he.undone hf).2⟩
  · refine ⟨hk.cfg.trans (he.done hf).cfg, ?_⟩
    rw [hk.options, hk.cfg]
    exact (he.done hf).options

theorem Untouched.ended (hu : Untouched h s) (hidle : Idle (wanted h.cfg.clusters) s.pool) :
    Ended h true s where
  writer := hu.writer
  saved := hu.saved
  idle := by
    rw [hu.cfg]
    exact hidle
  configs := by
    rw [hu.cfg]
    exact hu.configs
  undone _ := ⟨hu.cfg, hu.monitor⟩
  done hf := absurd hf (by simp)

theorem Ended.settled {failed : Bool} (he : Ended h failed s) : Settled s.release :=
  ⟨he.idle, he.configs, he.saved⟩

theorem Ended.allOrNothing {failed : Bool} (he : Ended h failed s) (hi : Inv d s)
    (hdesired : connections h.desired = wanted h.cfg.clusters) : AllOrNothing failed h s where
  pool := (he.idle.matchesClusters hi.pool _).2 rfl
  configs := he.configs
  done := he.done
  undone hf := by
    obtain ⟨hcfg, hmon⟩ := he.undone hf
    refine ⟨hcfg, hmon, ?_, fun id c hc => ?_⟩
    · rw [he.idle.desired, hdesired, hcfg]
    · obtain ⟨cfg, hfind, hconn, hen⟩ := wanted_find hi.distinct (he.idle.installed hi.pool hc)
      rw [hcfg] at hfind
      exact ⟨cfg, List.mem_of_find?_eq_some hfind, by simpa using List.find?_some hfind, hen,
        sameConnection_iff.2 hconn.symm⟩

/-! ## The new configuration comes into force -/

variable {cfg : Config}

/-- The writes of `s.cfg` that keep the server in step with the file: what was
saved, or, in a reload, what the watcher has recorded. -/
inductive MayRun (d : Setting) (t : Nat) (cfg : Config) (s : State) : Prop
  | saved (hre : s.reloading = false) (hsaved : s.saved = some cfg)
  | reload (text : List Char) (hpoll : s.polling = some t) (hhash : s.hash = d.sum256 text)
      (hmem : text ∈ s.contents) (hload : d.loadRuntime text = some cfg)

theorem mayRun_stable (ht : h.thread = t) :
    Stable t fun s => s.writer = some h ∧ MayRun d t cfg s := by
  intro s s' ⟨hw, hmay⟩ hr
  have hk := hr.held h hw ht
  refine ⟨hk.writer.trans hw, ?_⟩
  cases hmay with
  | saved hre hsaved =>
      refine .saved ?_ (hk.saved.trans hsaved)
      unfold State.reloading at hre ⊢
      rwa [hk.writer]
  | reload text hpoll hhash hmem hload =>
      have hwatch := hr.watching hpoll
      exact .reload text (hwatch.polling.trans hpoll) (hwatch.hash.trans hhash)
        (hr.contents hmem) hload

theorem MayRun.inStep (hmay : MayRun d t cfg s) (hi : Inv d s) : InStep d (s.setConfig cfg) := by
  intro hcalm hcol hpending hhash cfg' hcfg'
  show cfg' = cfg
  cases hmay with
  | saved hre hsaved =>
      have hp : (s.pending && !s.reloading) = false := hpending
      rw [hre, Bool.not_false, Bool.and_true] at hp
      have heq := hi.inStep hcalm hcol hp hhash cfg' hcfg'
      rw [heq, State.coming, hsaved, Option.getD_some]
  | reload text hpoll hhash' hmem hload =>
      -- The file and the text that was recorded have one hash, so they are one text.
      have hsame : s.file = text := hcol s.file hi.file text hmem (hhash.trans hhash')
      have hcfg : d.loadRuntime s.file = some cfg' := hcfg'
      rw [hsame, hload] at hcfg
      exact (Option.some.inj hcfg).symm

theorem MayRun.watching (hmay : MayRun d t cfg s) {t' : Nat} (hne : t' ≠ t)
    (hpoll : s.polling = some t') : Watching s (s.setConfig cfg) := by
  refine ⟨rfl, rfl, ?_⟩
  show (s.pending && !s.reloading) = s.pending
  cases hmay with
  | saved hre hsaved => rw [hre, Bool.not_false, Bool.and_true]
  | reload text hpoll' hhash hmem hload =>
      rw [hpoll'] at hpoll
      exact absurd (Option.some.inj hpoll).symm hne

theorem inv_setConfig (hw : s.writer = some h) (hi : Inv d s) (hdist : DistinctIDs cfg.clusters)
    (hmay : MayRun d t cfg s) : Inv d (s.setConfig cfg) where
  pool := hi.pool
  distinct := hdist
  exclusive := hi.exclusive
  settled hnone := by
    have hnone' : s.writer = none := hnone
    rw [hw] at hnone'
    exact absurd hnone' (by simp)
  logged := hi.logged
  inForce := rfl
  polled hp := by
    show (s.pending && _) = false
    rw [hi.polled hp, Bool.false_and]
  file := hi.file
  inStep := hmay.inStep hi

theorem inv_setMonitor (hw : s.writer = some h) (hi : Inv d s) (m : Sampler) :
    Inv d (s.setMonitor m) where
  pool := hi.pool
  distinct := hi.distinct
  exclusive := hi.exclusive
  settled hnone := by
    have hnone' : s.writer = none := hnone
    rw [hw] at hnone'
    exact absurd hnone' (by simp)
  logged := hi.logged
  inForce := hi.inForce
  polled := hi.polled
  file := hi.file
  inStep := hi.inStep

/-- `s.cfg` is new and the sampler is not. -/
structure Written (h : Holder) (new : Config) (s : State) : Prop where
  writer : s.writer = some h
  cfg : s.cfg = new
  saved : s.saved = none
  idle : Idle (wanted new.clusters) s.pool

theorem written_stable (ht : h.thread = t) : Stable t (Written h cfg) := by
  intro s s' hs hr
  have hk := hr.held h hs.writer ht
  exact ⟨hk.writer.trans hs.writer, hk.cfg.trans hs.cfg, hk.saved.trans hs.saved,
    hk.idle _ hs.idle⟩

/-- `F` is what the thread knows before the write, `G` what it knows after. -/
theorem updateConfig_safe {F G : State → Prop} (ht : h.thread = t) (hF : Stable t F)
    (hG : Stable t G) (hwrite : ∀ s, F s → s.writer = some h → G (s.setConfig cfg))
    (hset : ∀ s m, G s → G (s.setMonitor m)) (htarget : cfg = h.txn.target h.cfg)
    (hdist : DistinctIDs cfg.clusters) (hrest : Resting h (wanted cfg.clusters) s)
    (hmay : MayRun d t cfg s) (hf : F s) :
    Safe d t (fun _ s => Ended h false s ∧ G s) (updateConfig cfg) s := by
  refine safe_cmd (((resting_stable ht).and (mayRun_stable ht)).and hF)
    ⟨⟨hrest, hrest.1, hmay⟩, hf⟩
    fun s₁ hi ⟨⟨⟨hw, hidle⟩, _, hmay₁⟩, hf₁⟩ => ⟨trivial, fun o r s₂ he => ?_⟩
  obtain ⟨-, rfl⟩ := Prod.mk.inj (Option.some.inj he)
  refine ⟨inv_setConfig hw hi hdist hmay₁, fun t' hne => rely_of_held hw ht hi hne
    (hmay₁.watching hne) (List.suffix_cons ..) (List.Subset.refl _) id, ?_⟩
  have hstable : Stable t (Written h cfg) := written_stable ht
  refine safe_cmd (hstable.and hG) ⟨⟨hw, rfl, rfl, hidle⟩, hwrite s₁ hf₁ hw⟩
    fun s₃ hi₃ ⟨hwr, hg⟩ => ⟨trivial, fun o r s₄ he₄ => ?_⟩
  obtain ⟨-, rfl⟩ := Prod.mk.inj (Option.some.inj he₄)
  refine ⟨inv_setMonitor hwr.writer hi₃ _, fun t' hne => rely_of_held hwr.writer ht hi₃ hne
    (fun _ => ⟨rfl, rfl, rfl⟩) (List.suffix_refl _) (List.Subset.refl _) id, ?_⟩
  have hend : Ended h false
      (s₃.setMonitor (s₃.monitor.update cfg.clusters (dashboardOptions cfg))) := by
    refine ⟨hwr.writer, hwr.saved, ?_, ?_, fun hf => absurd hf (by simp), fun _ => ⟨?_, ?_⟩⟩
    · show Idle (wanted s₃.cfg.clusters) s₃.pool
      rw [hwr.cfg]
      exact hwr.idle
    · show enabledClusters cfg.clusters = enabledClusters s₃.cfg.clusters
      rw [hwr.cfg]
    · exact hwr.cfg.trans htarget
    · show normalizeOptions (dashboardOptions cfg) = normalizeOptions (dashboardOptions s₃.cfg)
      rw [hwr.cfg]
  exact safe_ret ((ended_stable ht).and hG) ⟨hend, hset _ _ hg⟩ fun s' _ hs' => hs'

/-! ## `Save` -/

theorem store_inStep (hw : s.writer = some h) (text : List Char) : InStep d (s.store d text) := by
  intro hcalm _ _ _ cfg' hcfg'
  have hcalm' : (s.astray || d.loadRuntime text != s.writer.map fun h => h.txn.target h.cfg) =
      false := hcalm
  have hload : d.loadRuntime text = some cfg' := hcfg'
  rw [hw, hload, Bool.or_eq_false_iff, bne_eq_false_iff_eq] at hcalm'
  show cfg' = (s.writer.map fun h => h.txn.target h.cfg).getD s.cfg
  rw [hw]
  exact Option.some.inj hcalm'.2

theorem inv_store (hw : s.writer = some h) (hi : Inv d s) (text : List Char) :
    Inv d (s.store d text) where
  pool := hi.pool
  distinct := hi.distinct
  exclusive := hi.exclusive
  settled hnone := by
    have hnone' : s.writer = none := hnone
    rw [hw] at hnone'
    exact absurd hnone' (by simp)
  logged := hi.logged
  inForce := hi.inForce
  polled := hi.polled
  file := List.mem_cons_self
  inStep := store_inStep hw text

theorem rely_store (hw : s.writer = some h) (ht : h.thread = t) (hi : Inv d s) (text : List Char)
    {t' : Nat} (hne : t' ≠ t) : Rely t' s (s.store d text) :=
  rely_of_held hw ht hi hne (fun _ => ⟨rfl, rfl, rfl⟩) (List.suffix_refl _)
    (List.subset_cons_self ..) fun ha => by
      show (s.astray || _) = true
      rw [ha, Bool.true_or]

/-- `Save` fails and changes nothing, or the file is the new text. -/
theorem exec_save {text : List Char} {o : Oracle Cmd Cmd.Answer} {r : Option SaveError}
    {s' : State} (he : (Cmd.save text).exec d t o s = some (r, s')) :
    (r.isSome = true ∧ s' = s) ∨ (r = none ∧ s' = s.store d text) := by
  simp only [Cmd.exec] at he
  split at he
  · obtain ⟨rfl, rfl⟩ := Prod.mk.inj (Option.some.inj he)
    exact Or.inl ⟨rfl, rfl⟩
  · split at he
    · simp at he
    · obtain ⟨rfl, rfl⟩ := Prod.mk.inj (Option.some.inj he)
      exact Or.inl ⟨rfl, rfl⟩
    · obtain ⟨rfl, rfl⟩ := Prod.mk.inj (Option.some.inj he)
      exact Or.inr ⟨rfl, rfl⟩

theorem saveFailed_safe {changed : Bool} {code : String} {e : SaveError} (ht : h.thread = t)
    (hu : Untouched h s) (hrest : Resting h D s)
    (hsame : changed = false → wanted h.cfg.clusters = D) :
    Safe d t (fun r s => Ended h r.failed s) (saveFailed h.cfg changed code e) s := by
  cases changed with
  | false =>
      refine safe_ret ((untouched_stable ht).and (resting_stable ht)) ⟨hu, hrest⟩
        fun s' _ ⟨hu', hrest'⟩ => hu'.ended ?_
      rw [hsame rfl]
      exact hrest'.2
  | true =>
      have hroll : Safe d t (fun _ s => Resting h (wanted h.cfg.clusters) s)
          (rollbackClusters h.cfg.clusters) s := rollbackClusters_safe ht hrest
      refine (hroll.frame_pool rollbackClusters_within (untouched_stable ht)
        (fun s p hu => ⟨hu.writer, hu.cfg, hu.saved, hu.configs, hu.monitor⟩) hu).bind
        fun r s₁ _ ⟨hrest₁, hu₁⟩ => ?_
      cases r with
      | none =>
          exact safe_ret ((untouched_stable ht).and (resting_stable ht)) ⟨hu₁, hrest₁⟩
            fun s' _ ⟨hu', hrest'⟩ => hu'.ended hrest'.2
      | some rollbackErr =>
          exact safe_ret ((untouched_stable ht).and (resting_stable ht)) ⟨hu₁, hrest₁⟩
            fun s' _ ⟨hu', hrest'⟩ => hu'.ended hrest'.2

/-- `applyClustersIfChanged` beside what it does not look at. -/
theorem apply_untouched_safe {F : State → Prop} (ht : h.thread = t) (hF : Stable t F)
    (hset : ∀ s p, F s → F (s.setPool p)) (hu : Untouched h s) (hf : F s)
    (hidle : Idle (wanted h.cfg.clusters) s.pool) :
    Safe d t (fun r s => Applied h clusters (wanted h.cfg.clusters) s r ∧ Untouched h s ∧ F s)
      (applyClustersIfChanged clusters) s :=
  (applyClustersIfChanged_safe ht ⟨hu.writer, hidle⟩).frame_pool applyClustersIfChanged_within
    ((untouched_stable ht).and hF)
    (fun s p hs => ⟨⟨hs.1.writer, hs.1.cfg, hs.1.saved, hs.1.configs, hs.1.monitor⟩,
      hset s p hs.2⟩) ⟨hu, hf⟩

theorem install_safe {text : List Char} {code action resource : String} (ht : h.thread = t)
    (hreload : h.txn.reload = false) (htarget : cfg = h.txn.target h.cfg)
    (hdist : DistinctIDs cfg.clusters) (hu : Untouched h s)
    (hidle : Idle (wanted h.cfg.clusters) s.pool) :
    Safe d t (fun r s => Ended h r.failed s) (install h.cfg cfg text code action resource) s := by
  refine (apply_untouched_safe ht (stable_const True) (fun _ _ _ => trivial) hu trivial
    hidle).bind fun r s₁ _ ⟨happ, hu₁, _⟩ => ?_
  cases r with
  | error e =>
      exact safe_ret ((untouched_stable ht).and (resting_stable ht)) ⟨hu₁, happ.2⟩
        fun s' _ ⟨hu', hrest'⟩ => hu'.ended hrest'.2
  | ok changed =>
      obtain ⟨hrest₁, hsame⟩ := happ
      refine safe_cmd ((untouched_stable ht).and (resting_stable ht)) ⟨hu₁, hrest₁⟩
        fun s₂ hi₂ ⟨hu₂, hrest₂⟩ => ⟨trivial, fun o r s₃ he => ?_⟩
      rcases exec_save he with ⟨hsome, rfl⟩ | ⟨rfl, rfl⟩
      · obtain ⟨e, rfl⟩ := Option.isSome_iff_exists.1 hsome
        exact ⟨hi₂, fun t' _ => Rely.refl t' s₃, saveFailed_safe ht hu₂ hrest₂ hsame⟩
      · refine ⟨inv_store hu₂.writer hi₂ text, fun t' hne => rely_store hu₂.writer ht hi₂ text hne,
          ?_⟩
        have hmay : MayRun d t cfg (s₂.store d text) := by
          refine .saved ?_ ?_
          · show s₂.writer.any (fun h => h.txn.reload) = false
            rw [hu₂.writer]
            exact hreload
          · show s₂.writer.map (fun h => h.txn.target h.cfg) = some cfg
            rw [hu₂.writer, htarget]
            rfl
        have hrest₃ : Resting h (wanted cfg.clusters) (s₂.store d text) := hrest₂
        refine (updateConfig_safe ht (stable_const True) (stable_const True)
          (fun _ _ _ => trivial) (fun _ _ _ => trivial) htarget hdist hrest₃ hmay trivial).bind
          fun _ s₄ _ ⟨hend, _⟩ => ?_
        refine safe_quiet rfl (ended_stable ht) hend fun o r s₅ _ hend₅ _ => ?_
        exact safe_ret (ended_stable ht) hend₅ fun s' _ hend' => hend'

/-! ## The section under the lock -/

theorem inv_acquire (hi : Inv d s) (hr : s.readers = []) (txn : Txn) :
    Inv d (s.acquire t txn) where
  pool := hi.pool
  distinct := hi.distinct
  exclusive _ := hr
  settled hnone := absurd hnone (by simp [State.acquire])
  logged := hi.logged
  inForce := hi.inForce
  polled := hi.polled
  file := hi.file
  inStep := hi.inStep

theorem rely_acquire (hw : s.writer = none) (hr : s.readers = []) (txn : Txn) (t' : Nat) :
    Rely t' s (s.acquire t txn) where
  held h hw' := by
    rw [hw] at hw'
    exact absurd hw' (by simp)
  reading ht' := by
    rw [hr] at ht'
    exact absurd ht' (by simp)
  watching _ := ⟨rfl, rfl, rfl⟩
  log := List.suffix_refl _
  contents := List.Subset.refl _
  astray := id

theorem inv_release {failed : Bool} (hi : Inv d s) (he : Ended h failed s) : Inv d s.release where
  pool := hi.pool
  distinct := hi.distinct
  exclusive hsome := absurd hsome (by simp [State.release])
  settled _ := he.settled
  logged := hi.logged
  inForce := hi.inForce
  polled := hi.polled
  file := hi.file
  inStep := hi.inStep

/-- A transaction, from the body it runs under the lock. `F` is what its thread
knows before it has the lock, `G` what it knows in the end. -/
theorem transaction_safe {txn : Txn} {failed : α → Bool} {body : ServerProg α} {F : State → Prop}
    {G : α → State → Prop} (hF : Stable t F) (hG : ∀ a, Stable t (G a))
    (hacquire : ∀ s, F s → F (s.acquire t txn)) (hrelease : ∀ a s, G a s → G a s.release)
    (hbody : ∀ h s, h.thread = t → h.txn = txn → Untouched h s →
      Idle (wanted h.cfg.clusters) s.pool → F s →
      Safe d t (fun r s => Ended h (failed r) s ∧ G r s) body s) (hs : F s) :
    Safe d t G (transaction txn failed body) s := by
  refine safe_cmd hF hs fun s₁ hi hf => ⟨trivial, fun o r s₂ he => ?_⟩
  simp only [Cmd.exec] at he
  split at he
  · next hfree =>
      obtain ⟨-, rfl⟩ := Prod.mk.inj (Option.some.inj he)
      rw [Bool.and_eq_true, Option.isNone_iff_eq_none, List.isEmpty_iff] at hfree
      obtain ⟨hw, hr⟩ := hfree
      have hset := hi.settled hw
      refine ⟨inv_acquire hi hr txn, fun t' _ => rely_acquire hw hr txn t', ?_⟩
      have ht : (⟨t, txn, s₁.cfg, s₁.pool.mgr.desired⟩ : Holder).thread = t := rfl
      refine (hbody _ (s₁.acquire t txn) ht rfl ⟨rfl, rfl, hset.saved, hset.configs, rfl⟩ hset.idle
        (hacquire _ hf)).bind fun a s₃ _ ⟨hend, hg⟩ => ?_
      refine safe_cmd ((ended_stable ht).and (hG a)) ⟨hend, hg⟩ fun s₄ hi₄ ⟨hend₄, hg₄⟩ =>
        ⟨⟨_, hend₄.writer, ht, hend₄.allOrNothing hi₄ hset.idle.desired⟩, fun o r s₅ he₅ => ?_⟩
      obtain ⟨-, rfl⟩ := Prod.mk.inj (Option.some.inj he₅)
      refine ⟨inv_release hi₄ hend₄, fun t' hne => rely_of_held hend₄.writer ht hi₄ hne
        (fun _ => ⟨rfl, rfl, rfl⟩) (List.suffix_refl _) (List.Subset.refl _) id, ?_⟩
      exact safe_ret (hG a) (hrelease a _ hg₄) fun s' _ hg' => hg'
  · simp at he

/-! ## The handlers -/

/-- A transaction of a request, which has nothing to know. -/
theorem request_safe {txn : Txn} {body : ServerProg Reply}
    (hbody : ∀ h s, h.thread = t → h.txn = txn → Untouched h s →
      Idle (wanted h.cfg.clusters) s.pool →
      Safe d t (fun r s => Ended h r.failed s) body s) :
    Safe d t (fun _ _ => True) (transaction txn Reply.failed body) s :=
  transaction_safe (stable_const True) (fun _ => stable_const True) (fun _ _ => trivial)
    (fun _ _ _ => trivial) (fun h s ht htxn hu hidle _ => (hbody h s ht htxn hu hidle).mono
      fun _ _ _ hend => ⟨hend, trivial⟩) trivial

/-- A handler that gives up early. -/
theorem safe_reply (reply : Reply) : Safe d t (fun _ _ => True) (.ret reply) s :=
  fun _ _ _ => trivial

theorem ended_ret {reply : Reply} (ht : h.thread = t) (hfail : reply.failed = true)
    (hu : Untouched h s) (hidle : Idle (wanted h.cfg.clusters) s.pool) :
    Safe d t (fun r s => Ended h r.failed s) (.ret reply) s := by
  have hs : Untouched h s ∧ Resting h (wanted h.cfg.clusters) s := ⟨hu, hu.writer, hidle⟩
  refine safe_ret ((untouched_stable ht).and (resting_stable ht)) hs fun s' _ hs' => ?_
  rw [hfail]
  exact hs'.1.ended hs'.2.2

theorem putCandidate_safe {candidate : Config} (ht : h.thread = t) (htxn : h.txn = .put candidate)
    (hu : Untouched h s) (hidle : Idle (wanted h.cfg.clusters) s.pool) :
    Safe d t (fun r s => Ended h r.failed s) (putCandidate d h.cfg candidate) s := by
  unfold putCandidate
  cases hvalid : (fillSecrets h.cfg candidate).validate with
  | some e =>
      simp only [hvalid]
      exact ended_ret ht rfl hu hidle
  | none =>
      simp only [hvalid]
      cases marshal d.yaml (fillSecrets h.cfg candidate) with
      | none => exact ended_ret ht rfl hu hidle
      | some data =>
          refine install_safe ht ?_ ?_ (Config.validate_ids hvalid) hu hidle
          · rw [htxn]
            rfl
          · rw [htxn]
            rfl

/-- Reading the configuration under the lock gives the one the transaction
began with. -/
theorem readConfig_safe {k : Config → ServerProg Reply} (ht : h.thread = t)
    (hk : ∀ s, Untouched h s → Idle (wanted h.cfg.clusters) s.pool →
      Safe d t (fun r s => Ended h r.failed s) (k h.cfg) s)
    (hu : Untouched h s) (hidle : Idle (wanted h.cfg.clusters) s.pool) :
    Safe d t (fun r s => Ended h r.failed s) (.cmd .readConfig k) s := by
  have hstable : Stable t fun s => Untouched h s ∧ Resting h (wanted h.cfg.clusters) s :=
    (untouched_stable ht).and (resting_stable ht)
  refine safe_quiet rfl hstable ⟨hu, hu.writer, hidle⟩ fun o current s₁ _ ⟨hu₁, hrest₁⟩ he => ?_
  obtain ⟨hcurrent, -⟩ := Prod.mk.inj (Option.some.inj he)
  obtain rfl : h.cfg = current := hu₁.cfg.symm.trans hcurrent
  exact hk s₁ hu₁ hrest₁.2

theorem putLocked_safe {candidate : Config} (ht : h.thread = t) (htxn : h.txn = .put candidate)
    (hu : Untouched h s) (hidle : Idle (wanted h.cfg.clusters) s.pool) :
    Safe d t (fun r s => Ended h r.failed s) (putLocked d candidate) s :=
  readConfig_safe ht (fun _ hu hidle => putCandidate_safe ht htxn hu hidle) hu hidle

theorem putConfig_safe : Safe d t (fun _ _ => True) (putConfig d) s := by
  unfold putConfig
  split
  · exact safe_reply _
  · refine safe_quiet rfl (stable_const True) trivial fun o r s₁ _ _ _ => ?_
    cases r with
    | none => exact safe_reply _
    | some candidate =>
        exact request_safe fun h s ht htxn hu hidle => putLocked_safe ht htxn hu hidle

theorem restoreLocked_safe {backup : String} {data : List Char} (ht : h.thread = t)
    (htxn : h.txn = .restore cfg) (hdist : DistinctIDs cfg.clusters) (hu : Untouched h s)
    (hidle : Idle (wanted h.cfg.clusters) s.pool) :
    Safe d t (fun r s => Ended h r.failed s) (restoreLocked backup data cfg) s := by
  refine readConfig_safe ht (fun s₁ hu₁ hidle₁ => install_safe ht ?_ ?_ hdist hu₁ hidle₁) hu hidle
  · rw [htxn]
    rfl
  · rw [htxn]
    rfl

theorem restoreConfigBackup_safe {backup : String} :
    Safe d t (fun _ _ => True) (restoreConfigBackup d backup) s := by
  unfold restoreConfigBackup
  split
  · exact safe_reply _
  · refine safe_quiet rfl (stable_const True) trivial fun o r s₁ _ _ _ => ?_
    cases r with
    | error e => exact safe_reply _
    | ok data =>
        simp only [Prog.bind]
        cases hload : load d.yaml d.env data with
        | error e => exact safe_reply _
        | ok persisted =>
            dsimp only
            cases hrun : runtime d.gcm persisted d.secret with
            | error e => exact safe_reply _
            | ok runtimeCfg =>
                have hdist := runtime_ids hrun (Config.validate_ids (load_valid hload))
                exact request_safe fun h s ht htxn hu hidle =>
                  restoreLocked_safe ht htxn hdist hu hidle

end KafkaManager.Api
