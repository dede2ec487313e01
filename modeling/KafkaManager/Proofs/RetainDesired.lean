import KafkaManager.Proofs.PoolInvariant

/-!
# What is desired after a `Retain`

`Retain` deletes from `configs`. As long as `desired` is another map nothing is
lost there. After an `Apply` both are one map, and with a client that is dropped
its configuration is no longer desired.

The invariant is weaker than what holds once a desired set is established, for
it is about every state: whoever installs a client records a configuration for
it.
-/

namespace KafkaManager.Cluster

open Lib

/-- `configs` and `desired` are one map. -/
def ConfigMaps.isShared : ConfigMaps → Bool
  | .shared _ => true
  | .separate .. => false

/-- What is desired is the same after the `Retain`. -/
def DesiredKept (m : Manager) (active : List String) : Prop :=
  (∀ clusters, (m.retain active).1.matchesClusters clusters = m.matchesClusters clusters) ∧
    ∀ cfg, (m.retain active).1.desiredAllowsLocked cfg = m.desiredAllowsLocked cfg

/-- A client that is installed has a configuration, and one map under both names
is a desired set. -/
structure Recorded (m : Manager) : Prop where
  configs : ∀ id : String, m.clients[id]?.isSome = true → m.configs[id]?.isSome = true
  set : m.maps.isShared = true → m.desiredSet = true

section

variable {m m' : Manager}

theorem deleteConfigs_get (maps : ConfigMaps) (keep : String → Bool) (id : String) :
    (maps.deleteConfigs keep).configs[id]? = if keep id then maps.configs[id]? else none := by
  cases maps with
  | shared m => exact GoMap.get_filter_key ..
  | separate configs desired => exact GoMap.get_filter_key ..

theorem setConfig_get (maps : ConfigMaps) (i : String) (cfg : ClusterConfig) (id : String) :
    (maps.setConfig i cfg).configs[id]? = if i = id then some cfg else maps.configs[id]? := by
  cases maps with
  | shared m => exact GoMap.get_insert ..
  | separate configs desired => exact GoMap.get_insert ..

@[simp] theorem isShared_deleteConfigs (maps : ConfigMaps) (keep : String → Bool) :
    (maps.deleteConfigs keep).isShared = maps.isShared := by
  cases maps with
  | shared m => rfl
  | separate configs desired => rfl

@[simp] theorem isShared_setConfig (maps : ConfigMaps) (i : String) (cfg : ClusterConfig) :
    (maps.setConfig i cfg).isShared = maps.isShared := by
  cases maps with
  | shared m => rfl
  | separate configs desired => rfl

/-- What is removed from the clients is removed from `configs`, and no more. -/
theorem Recorded.removing (h : Recorded m) (keep : String → Bool) (id : String)
    (hid : (m.clients.filter fun i _ => keep i)[id]?.isSome = true) :
    (m.maps.deleteConfigs fun i =>
      !(m.clients.filter fun i _ => !keep i).contains i).configs[id]?.isSome = true := by
  rw [GoMap.get_filter_key] at hid
  rw [deleteConfigs_get, GoMap.contains_filter_key]
  cases hkeep : keep id with
  | false => simp [hkeep] at hid
  | true =>
      rw [hkeep, if_pos rfl] at hid
      simpa using h.configs id hid

theorem Recorded.setDesired (h : Recorded m) (clusters : List ClusterConfig) :
    Recorded (m.setDesired clusters).1 :=
  ⟨h.removing (m.wantedAsActive (enabledConfigs clusters)), fun _ => rfl⟩

theorem Recorded.retain (h : Recorded m) (active : List String) :
    Recorded (m.retain active).1 := by
  refine ⟨h.removing fun id => active.contains id, fun hshared => h.set ?_⟩
  simpa [Manager.retain] using hshared

theorem recorded_close (m : Manager) : Recorded m.close.1 :=
  ⟨fun id hid => by simp [Manager.close] at hid, fun _ => rfl⟩

theorem Recorded.upsertCommit (h : Recorded m) {generation : Nat} {cfg : ClusterConfig}
    {client : Client} {old : Option Client}
    (hc : m.upsertCommit generation cfg client = some (m', old)) : Recorded m' := by
  obtain ⟨-, -, rfl, -⟩ := upsertCommit_some hc
  refine ⟨fun id hid => ?_, fun hshared => h.set ?_⟩
  · show ((m.maps.setConfig cfg.id cfg).configs[id]?).isSome = true
    rw [setConfig_get]
    split
    · rfl
    · next hne =>
        have hid' : (m.clients.insert cfg.id (some client))[id]?.isSome = true := hid
        rw [GoMap.get_insert, if_neg hne] at hid'
        exact h.configs id hid'
  · simpa using hshared

theorem recorded_applyCommit {generation : Nat} {desired : ConfigMap} {reused : GoMap String Bool}
    {created : GoMap String Client} {old : List (Option Client)}
    (hc : m.applyCommit generation desired reused created = some (m', old)) : Recorded m' := by
  obtain ⟨-, rfl, -⟩ := applyCommit_some hc
  refine ⟨fun id hid => ?_, fun _ => rfl⟩
  have hid' : (m.nextClients desired created)[id]?.isSome = true := hid
  rw [get_nextClients, Option.isSome_map] at hid'
  exact hid'

theorem Recorded.begin (h : Recorded m) (r : Request) : Recorded (m.begin r).1 := by
  cases r with
  | apply clusters => exact h
  | upsert cfg =>
      rw [begin_upsert_mgr]
      exact h
  | setDesired clusters => exact h.setDesired clusters
  | retain active => exact h.retain active
  | close => exact recorded_close m

theorem Recorded.move (h : Recorded m) {op : Op} {v : Move} {e : Effect}
    (he : op.move m v = some e) : Recorded e.mgr := by
  rcases move_mgr he with hsame | ⟨l, old, -, -, hcommit, -⟩ |
    ⟨generation, cfg, client, old, pending, -, hcommit, -⟩
  · rw [hsame]
    exact h
  · exact recorded_applyCommit hcommit
  · exact h.upsertCommit hcommit

theorem recorded_run (as : List Action) : Recorded (run Sys.step Sys.init as).mgr := by
  refine run_invariant (P := fun s : Sys => Recorded s.mgr) (fun s a h => ?_) ?_ as
  · cases a with
    | start r => exact h.begin r
    | move o v =>
        show Recorded (s.move o v).mgr
        rcases s.move_cases o v with heq | ⟨op, e, -, he, heq⟩
        · rw [heq]
          exact h
        · rw [heq]
          exact h.move he
  · exact ⟨fun id hid => by simp [Sys.init, newManager] at hid, fun hshared => by cases hshared⟩

/-! ## What is lost -/

/-- Both tests look at the desired set only. -/
theorem desiredKept_of_same {active : List String}
    (h : (m.retain active).1.desired = m.desired) : DesiredKept m active := by
  have hset : (m.retain active).1.desiredSet = m.desiredSet := rfl
  refine ⟨fun clusters => ?_, fun cfg => ?_⟩
  · unfold Manager.matchesClusters
    rw [h, hset]
  · unfold Manager.desiredAllowsLocked
    rw [h, hset]

theorem retain_separate {active : List String} (h : m.maps.isShared = false) :
    (m.retain active).1.desired = m.desired := by
  cases hmaps : m.maps with
  | shared both =>
      rw [hmaps] at h
      cases h
  | separate configs desired =>
      simp [Manager.retain, Manager.desired, hmaps, ConfigMaps.deleteConfigs, ConfigMaps.desired]

/-- Of one map under both names a `Retain` leaves this. -/
theorem retain_shared {active : List String} {both : ConfigMap} (h : m.maps = .shared both)
    (id : String) : (m.retain active).1.desired[id]? =
      if m.clients[id]?.isSome && !active.contains id then none else both[id]? := by
  have hdesired : (m.retain active).1.desired = both.filter fun i _ =>
      !(m.clients.filter fun i _ => !active.contains i).contains i := by
    simp [Manager.retain, Manager.desired, h, ConfigMaps.deleteConfigs, ConfigMaps.desired]
  rw [hdesired, GoMap.get_filter_key, GoMap.contains_filter_key]
  cases m.clients[id]?.isSome && !active.contains id with
  | false => rfl
  | true => rfl

/-- A configuration that is dropped was allowed and no longer is. -/
theorem not_desiredKept (h : Recorded m) {both : ConfigMap} (hmaps : m.maps = .shared both)
    {active : List String} {id : String} (hid : m.clients[id]?.isSome = true)
    (hdropped : id ∉ active) : ¬ DesiredKept m active := by
  rintro ⟨-, hallows⟩
  have hset : m.desiredSet = true := h.set (by rw [hmaps]; rfl)
  obtain ⟨cfg, hcfg⟩ := Option.isSome_iff_exists.1 (h.configs id hid)
  have hboth : both[id]? = some cfg := by
    rw [← hcfg, Manager.configs, hmaps]
    rfl
  have hbefore : m.desiredAllowsLocked { cfg with id := id } = true := by
    rw [desiredAllowsLocked_iff hset, connections, Manager.desired, hmaps]
    simp [ConfigMaps.desired, hboth, ClusterConfig.connection]
  have hafter : (m.retain active).1.desired[id]? = none := by
    rw [retain_shared hmaps, if_pos (by simp [hid, hdropped])]
  have hstale : (m.retain active).1.desiredAllowsLocked { cfg with id := id } = false := by
    have hset' : (m.retain active).1.desiredSet = true := hset
    simp [Manager.desiredAllowsLocked, hset', hafter]
  rw [hallows, hbefore] at hstale
  cases hstale

theorem desiredKept_iff (h : Recorded m) (active : List String) :
    DesiredKept m active ↔
      m.maps.isShared = false ∨ ∀ id : String, m.clients[id]?.isSome = true → id ∈ active := by
  cases hmaps : m.maps with
  | separate configs desired =>
      exact iff_of_true (desiredKept_of_same (retain_separate (by rw [hmaps]; rfl))) (.inl rfl)
  | shared both =>
      constructor
      · intro hkept
        refine .inr fun id hid => ?_
        by_contra hdropped
        exact not_desiredKept h hmaps hid hdropped hkept
      · rintro (hseparate | hall)
        · cases hseparate
        · refine desiredKept_of_same (Std.ExtTreeMap.ext_getElem? fun id => ?_)
          rw [retain_shared hmaps, Manager.desired, hmaps, if_neg]
          · rfl
          · intro hremoved
            rw [Bool.and_eq_true, Bool.not_eq_true', ← Bool.not_eq_true,
              List.contains_iff_mem] at hremoved
            exact hremoved.2 (hall id hremoved.1)

end

/-- In every state of every run, a `Retain` leaves what is desired as it is if
and only if `configs` and `desired` are two maps or it drops no client. -/
theorem retain_desired (as : List Action) (active : List String) :
    let m := (run Sys.step Sys.init as).mgr
    DesiredKept m active ↔
      m.maps.isShared = false ∨ ∀ id : String, m.clients[id]?.isSome = true → id ∈ active :=
  desiredKept_iff (recorded_run as) active

/-- One cluster, applied. -/
def appliedOne : List Action :=
  [.start (.apply [plainCluster "a" "k1:9092"]), .move 0 (.create (some (1, true))),
    .move 0 (.ping true), .move 0 .commit]

/-- The client is dropped, and its configuration does not match any more. -/
theorem retain_undesired : ¬ DesiredKept (run Sys.step Sys.init appliedOne).mgr [] := by
  rintro ⟨hmatches, -⟩
  have h := hmatches [plainCluster "a" "k1:9092"]
  revert h
  decide +kernel

end KafkaManager.Cluster
