import KafkaManager.Cluster.Connect
import KafkaManager.Proofs.ApplyInstalls
import KafkaManager.Proofs.ServerRequests

/-!
# What a server starts with

`connect` runs its `Upsert` calls side by side, against a desired set that
allows each of them and that nobody moves. So none goes stale: each ends with a
client installed for its cluster or with the error of the factory or the
cluster, and the clients of the others are not touched. `Mine` says of one
goroutine how far it is, `Started` says it of all of them, and the final
`Retain` finds nothing to remove.
-/

namespace KafkaManager.Cluster

open Lib

/-- What an `Upsert` has come to when it has returned: the cluster has a client
that was created from its configuration, or none and the error is its own. -/
def Outcome (m : Manager) (cfg : ClusterConfig) : Option OpError → Prop
  | none => ∃ client, m.get cfg.id = some (some client) ∧ client.createdFrom = cfg ∧
      m.configs[cfg.id]? = some cfg
  | some e => (e = .connect cfg.id ∨ e = .ping cfg.id) ∧ m.get cfg.id = none

/-- How far the operation of a goroutine is. -/
def Mine (m : Manager) (cfg : ClusterConfig) : Op → Prop
  | .upsert generation c => generation = m.generation ∧ c = cfg ∧ m.get cfg.id = none
  | .upsertPing generation c client | .upsertReady generation c client =>
      generation = m.generation ∧ c = cfg ∧ client.createdFrom = cfg ∧ m.get cfg.id = none
  | .closing _ result => Outcome m cfg result
  | .apply _ | .applyPing .. => False

/-- The desired set is the one `main` has fixed, and it is not the map that
`configs` is. -/
structure Fixed (m : Manager) (clusters : List ClusterConfig) : Prop where
  desired : m.desired = enabledConfigs clusters
  set : m.desiredSet = true
  separate : ∃ configs desired, m.maps = .separate configs desired

structure Started (clusters : List ClusterConfig) (c : Connections) : Prop where
  cfgs : c.attempts.map Prod.fst = activeClusters clusters
  fixed : Fixed c.pool.mgr clusters
  slots : c.running ≤ connectSlots
  waiting : ∀ cfg : ClusterConfig, (cfg, Attempt.waiting) ∈ c.attempts → c.pool.mgr.get cfg.id = none
  mine : ∀ (cfg : ClusterConfig) (a : Attempt) (o : Nat), (cfg, a) ∈ c.attempts → a.op = some o →
    ∃ op, c.pool.ops[o]? = some op ∧ Mine c.pool.mgr cfg op ∧
      (a.isFinished = true → ∃ result, op = .closing [] result)
  apart : ∀ (k k' : Nat) (x x' : ClusterConfig × Attempt) (o : Nat), c.attempts[k]? = some x →
    c.attempts[k']? = some x' → x.2.op = some o → x'.2.op = some o → k = k'
  others : ∀ (o : Nat) (op : Op), c.pool.ops[o]? = some op →
    op = .closing [] none ∨ ∃ x ∈ c.attempts, x.2.op = some o
  keys : ∀ id, c.pool.mgr.get id ≠ none → ∃ x ∈ c.attempts, x.1.id = id

section

variable {clusters : List ClusterConfig}

/-! ## The desired set -/

theorem mem_activeClusters {cfg : ClusterConfig} :
    cfg ∈ activeClusters clusters ↔ cfg ∈ clusters ∧ cfg.disabled = false := by
  simp [activeClusters]

theorem Fixed.allows {m : Manager} (h : Fixed m clusters) (hd : DistinctIDs clusters)
    {cfg : ClusterConfig} (hcfg : cfg ∈ activeClusters clusters) :
    m.desiredAllowsLocked cfg = true := by
  obtain ⟨hmem, hdis⟩ := mem_activeClusters.1 hcfg
  unfold Manager.desiredAllowsLocked
  rw [h.set, h.desired, enabledConfigs_get hd hmem hdis]
  simp [sameConnection]

/-! ## One move of a goroutine -/

/-- What a move of a goroutine's operation changes of the pool: nothing, or the
cluster's own client. -/
theorem Mine.move {m : Manager} {cfg : ClusterConfig} {op : Op} (h : Mine m cfg op)
    (hfixed : Fixed m clusters) (hallows : m.desiredAllowsLocked cfg = true) {v : Move}
    {e : Effect} (he : op.move m v = some e) :
    Mine e.mgr cfg e.op ∧ Fixed e.mgr clusters ∧ e.mgr.generation = m.generation ∧
      ∀ id, id ≠ cfg.id → e.mgr.get id = m.get id ∧ e.mgr.configs[id]? = m.configs[id]? := by
  cases op with
  | apply l => exact h.elim
  | applyPing l c client => exact h.elim
  | upsert generation c =>
      obtain ⟨hgen, rfl, hnone⟩ := h
      cases v with
      | create outcome =>
          cases outcome with
          | none =>
              obtain rfl := Option.some.inj he
              exact ⟨⟨.inl rfl, hnone⟩, hfixed, rfl, fun _ _ => ⟨rfl, rfl⟩⟩
          | some made =>
              obtain rfl := Option.some.inj he
              exact ⟨⟨hgen, rfl, rfl, hnone⟩, hfixed, rfl, fun _ _ => ⟨rfl, rfl⟩⟩
      | ping answered => cases he
      | commit => cases he
      | close => cases he
  | upsertPing generation c client =>
      obtain ⟨hgen, rfl, hfrom, hnone⟩ := h
      cases v with
      | ping answered =>
          cases answered with
          | true =>
              obtain rfl := Option.some.inj he
              exact ⟨⟨hgen, rfl, hfrom, hnone⟩, hfixed, rfl, fun _ _ => ⟨rfl, rfl⟩⟩
          | false =>
              obtain rfl := Option.some.inj he
              exact ⟨⟨.inr rfl, hnone⟩, hfixed, rfl, fun _ _ => ⟨rfl, rfl⟩⟩
      | create outcome => cases he
      | commit => cases he
      | close => cases he
  | upsertReady generation c client =>
      obtain ⟨hgen, rfl, hfrom, hnone⟩ := h
      cases v with
      | commit =>
          have hcommit : m.upsertCommit generation c client =
              some ({ m with clients := m.clients.insert c.id (some client)
                             maps := m.maps.setConfig c.id c }, ClientMap.value m.clients c.id) := by
            unfold Manager.upsertCommit
            rw [if_neg (by simp [hgen, hallows])]
          have hold : ClientMap.value m.clients c.id = none := by
            unfold ClientMap.value
            rw [show m.clients[c.id]? = none from hnone]
            rfl
          simp only [Op.move, hcommit, hold] at he
          obtain rfl := Option.some.inj he
          obtain ⟨configs, desired, hmaps⟩ := hfixed.separate
          refine ⟨⟨client, ?_, hfrom, ?_⟩, ⟨?_, hfixed.set, ?_⟩, rfl, fun id hid => ⟨?_, ?_⟩⟩
          · exact (GoMap.get_insert ..).trans (if_pos rfl)
          · show (m.maps.setConfig c.id c).configs[c.id]? = some c
            rw [hmaps]
            exact (GoMap.get_insert ..).trans (if_pos rfl)
          · show (m.maps.setConfig c.id c).desired = _
            rw [← hfixed.desired, Manager.desired, hmaps]
            rfl
          · exact ⟨configs.insert c.id c, desired, by rw [hmaps]; rfl⟩
          · exact (GoMap.get_insert ..).trans (if_neg (Ne.symm hid))
          · show (m.maps.setConfig c.id c).configs[id]? = m.maps.configs[id]?
            rw [hmaps]
            exact (GoMap.get_insert ..).trans (if_neg (Ne.symm hid))
      | create outcome => cases he
      | ping answered => cases he
      | close => cases he
  | closing pending result =>
      cases v with
      | close =>
          cases pending with
          | nil => cases he
          | cons client rest =>
              cases client with
              | none => cases he
              | some client =>
                  obtain rfl := Option.some.inj he
                  exact ⟨h, hfixed, rfl, fun _ _ => ⟨rfl, rfl⟩⟩
      | create outcome | ping answered | commit => simp [Op.move] at he

/-- A change elsewhere in the pool. -/
theorem Mine.frame {m m' : Manager} {cfg : ClusterConfig} {op : Op} (h : Mine m cfg op)
    (hgen : m'.generation = m.generation) (hget : m'.get cfg.id = m.get cfg.id)
    (hconfigs : m'.configs[cfg.id]? = m.configs[cfg.id]?) : Mine m' cfg op := by
  cases op with
  | apply l => exact h.elim
  | applyPing l c client => exact h.elim
  | upsert generation c => exact ⟨h.1.trans hgen.symm, h.2.1, hget.trans h.2.2⟩
  | upsertPing generation c client =>
      exact ⟨h.1.trans hgen.symm, h.2.1, h.2.2.1, hget.trans h.2.2.2⟩
  | upsertReady generation c client =>
      exact ⟨h.1.trans hgen.symm, h.2.1, h.2.2.1, hget.trans h.2.2.2⟩
  | closing pending result =>
      cases result with
      | none =>
          obtain ⟨client, hclient, hfrom, hcfg⟩ := h
          exact ⟨client, hget.trans hclient, hfrom, hconfigs.trans hcfg⟩
      | some e => exact ⟨h.1, hget.trans h.2⟩

end

/-! ## One step -/

theorem acquire_cases (c : Connections) (k : Nat) : c.acquire k = c ∨
    ∃ cfg, c.attempts[k]? = some (cfg, .waiting) ∧ c.running < connectSlots ∧
      c.acquire k =
        { c with
          pool := c.pool.start (.upsert cfg)
          attempts := c.attempts.set k (cfg, .running c.pool.ops.length) } := by
  unfold Connections.acquire
  split
  · next cfg hk =>
      split
      · next hfree => exact .inr ⟨cfg, hk, hfree, rfl⟩
      · exact .inl rfl
  · exact .inl rfl

theorem release_cases (c : Connections) (k : Nat) : c.release k = c ∨
    ∃ cfg o result, c.attempts[k]? = some (cfg, .running o) ∧
      c.pool.ops[o]? = some (.closing [] result) ∧
      c.release k = { c with attempts := c.attempts.set k (cfg, .finished o) } := by
  unfold Connections.release
  split
  · next cfg o hk =>
      split
      · next result hop => exact .inr ⟨cfg, o, result, hk, hop, rfl⟩
      · exact .inl rfl
  · exact .inl rfl

theorem retain_cases (c : Connections) : c.retain = c ∨
    (∀ x ∈ c.attempts, x.2.isFinished = true) ∧
      c.retain =
        { c with
          pool := c.pool.start (.retain (c.attempts.map fun a => a.1.id))
          retaining := some c.pool.ops.length } := by
  unfold Connections.retain
  split
  · next hready => exact .inr ⟨List.all_eq_true.1 (Bool.and_eq_true_iff.1 hready).2, rfl⟩
  · exact .inl rfl

/-! ## The goroutines -/

section

variable {clusters : List ClusterConfig} {c : Connections}

theorem Started.mem_active (h : Started clusters c) {x : ClusterConfig × Attempt}
    (hx : x ∈ c.attempts) : x.1 ∈ activeClusters clusters :=
  h.cfgs ▸ List.mem_map_of_mem hx

/-- Goroutines are about different clusters. -/
theorem Started.eq_of_id (h : Started clusters c) (hd : DistinctIDs clusters) {k k' : Nat}
    {x x' : ClusterConfig × Attempt} (hk : c.attempts[k]? = some x)
    (hk' : c.attempts[k']? = some x') (hid : x.1.id = x'.1.id) : k = k' := by
  have hnodup : (c.attempts.map fun x => x.1.id).Nodup := by
    have hids : ((c.attempts.map Prod.fst).map ClusterConfig.id).Nodup := by
      rw [h.cfgs]
      exact List.Nodup.sublist (List.Sublist.map _ List.filter_sublist) hd
    rw [List.map_map] at hids
    exact hids
  have hids : (c.attempts.map fun x => x.1.id)[k]? = (c.attempts.map fun x => x.1.id)[k']? := by
    rw [List.getElem?_map, List.getElem?_map, hk, hk', Option.map_some, Option.map_some, hid]
  have hlt : k < (c.attempts.map fun x => x.1.id).length := by
    rw [List.length_map]
    exact (List.getElem?_eq_some_iff.1 hk).1
  exact (List.getElem?_inj hlt hnodup).1 hids

theorem started_new : Started clusters (Connections.new clusters) := by
  have hempty : ∀ id : String, (newManager.clients)[id]? = none := fun _ =>
    Std.ExtTreeMap.getElem?_empty
  have hclients : ∀ id, (Connections.new clusters).pool.mgr.get id = none := by
    intro id
    show (newManager.clients.filter _)[id]? = none
    rw [GoMap.get_filter, hempty]
    rfl
  have hwaiting : ∀ x ∈ (Connections.new clusters).attempts, x.2 = .waiting := by
    intro x hx
    obtain ⟨cfg, -, rfl⟩ := List.mem_map.1 hx
    rfl
  refine
    { cfgs := ?_
      fixed := ⟨rfl, rfl, ⟨_, _, rfl⟩⟩
      slots := ?_
      waiting := fun cfg _ => hclients cfg.id
      mine := fun cfg a o hx ho => ?_
      apart := fun k k' x x' o hk _ ho => ?_
      others := fun o op hop => ?_
      keys := fun id hid => absurd (hclients id) hid }
  · show (List.map _ (activeClusters clusters)).map Prod.fst = _
    rw [List.map_map]
    exact List.map_id _
  · have hzero : (Connections.new clusters).running = 0 :=
      List.countP_eq_zero.2 fun x hx => by rw [hwaiting x hx]; simp [Attempt.isRunning]
    rw [hzero]
    exact Nat.zero_le _
  · have hnone : a = .waiting := hwaiting _ hx
    rw [hnone] at ho
    cases ho
  · rw [hwaiting x (List.mem_of_getElem? hk)] at ho
    cases ho
  · have hremoved : (newManager.clients.filter fun id _ =>
        !newManager.wantedAsActive (enabledConfigs clusters) id) = ∅ := by
      refine Std.ExtTreeMap.ext_getElem? fun id => ?_
      rw [GoMap.get_filter, hempty]
      exact Std.ExtTreeMap.getElem?_empty.symm
    have hops : (Connections.new clusters).pool.ops =
        [.closing (GoMap.vals (newManager.clients.filter fun id _ =>
          !newManager.wantedAsActive (enabledConfigs clusters) id)) none] := rfl
    rw [hops, hremoved, GoMap.vals_empty] at hop
    obtain rfl := List.mem_singleton.1 (List.mem_of_getElem? hop)
    exact .inl rfl

/-- One goroutine goes on, with its own operation and its own cluster. -/
theorem Started.progress (h : Started clusters c) (hd : DistinctIDs clusters) {k : Nat}
    {cfg : ClusterConfig} {a a' : Attempt} (hk : c.attempts[k]? = some (cfg, a)) (pool : Sys)
    (hfixed : Fixed pool.mgr clusters) (hgen : pool.mgr.generation = c.pool.mgr.generation)
    (hget : ∀ id, id ≠ cfg.id → pool.mgr.get id = c.pool.mgr.get id ∧
      pool.mgr.configs[id]? = c.pool.mgr.configs[id]?)
    (hslots : (c.attempts.set k (cfg, a')).countP (fun x => x.2.isRunning) ≤ connectSlots)
    (hmine : ∃ o op, a'.op = some o ∧ pool.ops[o]? = some op ∧ Mine pool.mgr cfg op ∧
      (a'.isFinished = true → ∃ result, op = .closing [] result))
    (hnew : ∀ o, a'.op = some o → a.op = some o ∨ c.pool.ops[o]? = none)
    (hold : ∀ o, a.op = some o → a'.op = some o)
    (hops : ∀ o, a'.op ≠ some o → pool.ops[o]? = c.pool.ops[o]?) :
    Started clusters { c with pool := pool, attempts := c.attempts.set k (cfg, a') } := by
  obtain ⟨hlt, hgetk⟩ := List.getElem?_eq_some_iff.1 hk
  have hmem : (cfg, a') ∈ c.attempts.set k (cfg, a') := List.mem_set hlt _
  -- what is found at another place was there before, and is about another cluster
  have hother : ∀ {j : Nat} {x : ClusterConfig × Attempt}, j ≠ k →
      (c.attempts.set k (cfg, a'))[j]? = some x → c.attempts[j]? = some x ∧ x.1.id ≠ cfg.id := by
    intro j x hj hx
    rw [List.getElem?_set_ne (Ne.symm hj)] at hx
    exact ⟨hx, fun hid => hj (h.eq_of_id hd hx hk hid)⟩
  have hown : ∀ {x : ClusterConfig × Attempt},
      (c.attempts.set k (cfg, a'))[k]? = some x → x = (cfg, a') := by
    intro x hx
    rw [List.getElem?_set_self hlt] at hx
    exact (Option.some.inj hx).symm
  have hkept : ∀ {x : ClusterConfig × Attempt}, x ∈ c.attempts → x ≠ (cfg, a) →
      x ∈ c.attempts.set k (cfg, a') := by
    intro x hx hne
    obtain ⟨j, hj⟩ := List.mem_iff_getElem?.1 hx
    refine List.mem_iff_getElem?.2 ⟨j, ?_⟩
    rw [List.getElem?_set_ne, hj]
    rintro rfl
    exact hne (Option.some.inj (hj.symm.trans hk))
  have hunowned : ∀ {j : Nat} {x : ClusterConfig × Attempt} {o : Nat}, j ≠ k →
      c.attempts[j]? = some x → x.2.op = some o → a'.op ≠ some o := by
    intro j x o hj hx ho ha'
    rcases hnew o ha' with ha | hnone
    · exact hj (h.apart j k x (cfg, a) o hx hk ho ha)
    · obtain ⟨op, hop, -⟩ := h.mine x.1 x.2 o (List.mem_of_getElem? hx) ho
      rw [hnone] at hop
      cases hop
  obtain ⟨o', op', ha', hop', hmine', hfinished⟩ := hmine
  refine
    { cfgs := ?_
      fixed := hfixed
      slots := hslots
      waiting := fun cfg' hx => ?_
      mine := fun cfg' b o hx ho => ?_
      apart := fun i j x x' o hi hj ho ho' => ?_
      others := fun o op hop => ?_
      keys := fun id hid => ?_ }
  · rw [← h.cfgs, List.map_set]
    refine List.ext_getElem? fun j => ?_
    by_cases hj : k = j
    · subst hj
      rw [List.getElem?_set_self (by rw [List.length_map]; exact hlt), List.getElem?_map, hk]
      rfl
    · rw [List.getElem?_set_ne hj]
  · obtain ⟨j, hj⟩ := List.mem_iff_getElem?.1 hx
    by_cases hjk : j = k
    · subst hjk
      obtain ⟨-, rfl⟩ := Prod.mk.inj (hown hj)
      cases ha'
    · obtain ⟨hjold, hid⟩ := hother hjk hj
      exact (hget _ hid).1.trans (h.waiting cfg' (List.mem_of_getElem? hjold))
  · obtain ⟨j, hj⟩ := List.mem_iff_getElem?.1 hx
    by_cases hjk : j = k
    · subst hjk
      obtain ⟨rfl, rfl⟩ := Prod.mk.inj (hown hj)
      obtain rfl := Option.some.inj (ha'.symm.trans ho)
      exact ⟨op', hop', hmine', hfinished⟩
    · obtain ⟨hjold, hid⟩ := hother hjk hj
      obtain ⟨op, hop, hmineold, hend⟩ := h.mine cfg' b o (List.mem_of_getElem? hjold) ho
      exact ⟨op, (hops o (hunowned hjk hjold ho)).trans hop,
        hmineold.frame hgen (hget _ hid).1 (hget _ hid).2, hend⟩
  · by_cases hik : i = k
    · by_cases hjk : j = k
      · rw [hik, hjk]
      · subst hik
        rw [hown hi] at ho
        exact absurd ho (hunowned hjk (hother hjk hj).1 ho')
    · by_cases hjk : j = k
      · subst hjk
        rw [hown hj] at ho'
        exact absurd ho' (hunowned hik (hother hik hi).1 ho)
      · exact h.apart i j x x' o (hother hik hi).1 (hother hjk hj).1 ho ho'
  · by_cases ho : a'.op = some o
    · exact .inr ⟨(cfg, a'), hmem, ho⟩
    · rcases h.others o op ((hops o ho).symm.trans hop) with hidle | ⟨x, hx, hxo⟩
      · exact .inl hidle
      · refine .inr ⟨x, hkept hx ?_, hxo⟩
        rintro rfl
        exact ho (hold o hxo)
  · by_cases heq : id = cfg.id
    · exact ⟨(cfg, a'), hmem, heq.symm⟩
    · rw [(hget id heq).1] at hid
      obtain ⟨x, hx, hxid⟩ := h.keys id hid
      refine ⟨x, hkept hx ?_, hxid⟩
      rintro rfl
      exact heq hxid.symm

/-- The count of running goroutines after one of them has changed. -/
theorem running_set {attempts : List (ClusterConfig × Attempt)} {k : Nat}
    {cfg : ClusterConfig} {a a' : Attempt} (hk : attempts[k]? = some (cfg, a)) :
    (attempts.set k (cfg, a')).countP (fun x => x.2.isRunning) +
        (if a.isRunning then 1 else 0) =
      attempts.countP (fun x => x.2.isRunning) + (if a'.isRunning then 1 else 0) := by
  obtain ⟨hlt, hget⟩ := List.getElem?_eq_some_iff.1 hk
  have hpos : a.isRunning = true → 0 < attempts.countP fun x => x.2.isRunning := by
    intro ha
    exact List.countP_pos_iff.2 ⟨(cfg, a), List.mem_of_getElem? hk, ha⟩
  rw [List.countP_set hlt, hget]
  simp only
  split
  · next ha =>
      have := hpos ha
      omega
  · omega

theorem Started.acquire (h : Started clusters c) (hd : DistinctIDs clusters) (k : Nat) :
    Started clusters (c.acquire k) := by
  rcases acquire_cases c k with heq | ⟨cfg, hk, hfree, heq⟩
  · rw [heq]
    exact h
  · have hmem := List.mem_of_getElem? hk
    have hbegin : c.pool.mgr.begin (.upsert cfg) =
        (c.pool.mgr, .upsert c.pool.mgr.generation cfg) := by
      unfold Manager.begin
      exact if_pos (h.fixed.allows hd (h.mem_active hmem))
    have hpool : c.pool.start (.upsert cfg) =
        { c.pool with ops := c.pool.ops ++ [.upsert c.pool.mgr.generation cfg] } := by
      unfold Sys.start
      rw [hbegin]
    rw [heq, hpool]
    refine h.progress hd hk _ h.fixed rfl (fun _ _ => ⟨rfl, rfl⟩) ?_
      ⟨c.pool.ops.length, _, rfl, List.getElem?_concat_length,
        ⟨rfl, rfl, h.waiting cfg hmem⟩, fun hfinished => nomatch hfinished⟩
      (fun o ho => ?_) (fun _ ho => nomatch ho) fun o ho => ?_
    · have hcount : (c.attempts.set k (cfg, .running c.pool.ops.length)).countP
          (fun x => x.2.isRunning) + 0 = c.running + 1 := running_set hk
      omega
    · obtain rfl := Option.some.inj ho
      exact .inr (List.getElem?_eq_none (Nat.le_refl _))
    · have hne : o ≠ c.pool.ops.length := fun heq => ho (congrArg some heq.symm)
      show (c.pool.ops ++ [_])[o]? = c.pool.ops[o]?
      by_cases hlt : o < c.pool.ops.length
      · exact List.getElem?_append_left hlt
      · rw [List.getElem?_eq_none (by rw [List.length_append, List.length_singleton]; omega),
          List.getElem?_eq_none (by omega)]

theorem Started.release (h : Started clusters c) (hd : DistinctIDs clusters) (k : Nat) :
    Started clusters (c.release k) := by
  rcases release_cases c k with heq | ⟨cfg, o, result, hk, hop, heq⟩
  · rw [heq]
    exact h
  · obtain ⟨op, hop', hmine, -⟩ := h.mine cfg _ o (List.mem_of_getElem? hk) rfl
    obtain rfl := Option.some.inj (hop.symm.trans hop')
    rw [heq]
    refine h.progress hd hk _ h.fixed rfl (fun _ _ => ⟨rfl, rfl⟩) ?_
      ⟨o, _, rfl, hop, hmine, fun _ => ⟨result, rfl⟩⟩ (fun _ ho => .inl ho)
      (fun _ ho => ho) fun _ _ => rfl
    have hcount : (c.attempts.set k (cfg, .finished o)).countP
        (fun x => x.2.isRunning) + 1 = c.running + 0 := running_set hk
    have hslots := h.slots
    omega

theorem Started.move (h : Started clusters c) (hd : DistinctIDs clusters) (o : Nat) (v : Move) :
    Started clusters (c.move o v) := by
  show Started clusters { c with pool := c.pool.move o v }
  rcases c.pool.move_cases o v with heq | ⟨op, e, hop, he, heq⟩
  · rw [heq]
    exact h
  · rw [heq]
    rcases h.others o op hop with rfl | ⟨⟨cfg, a⟩, hx, hxo⟩
    · simp [Op.move] at he
    · obtain ⟨k, hk⟩ := List.mem_iff_getElem?.1 hx
      obtain ⟨hlt, hgetk⟩ := List.getElem?_eq_some_iff.1 hk
      obtain ⟨op', hop', hmine, hend⟩ := h.mine cfg a o hx hxo
      obtain rfl := Option.some.inj (hop.symm.trans hop')
      obtain ⟨hmine', hfixed, hgen, hget⟩ :=
        hmine.move h.fixed (h.fixed.allows hd (h.mem_active hx)) he
      obtain ⟨hlto, -⟩ := List.getElem?_eq_some_iff.1 hop
      have hset : c.attempts.set k (cfg, a) = c.attempts := by
        rw [← hgetk]
        exact List.set_getElem_self hlt
      have hgone : a.isFinished = true → ∃ result, e.op = .closing [] result := by
        intro hfinished
        obtain ⟨result, rfl⟩ := hend hfinished
        simp [Op.move] at he
      have hslots : (c.attempts.set k (cfg, a)).countP (fun x => x.2.isRunning) ≤ connectSlots := by
        rw [hset]
        exact h.slots
      have hprogress := h.progress hd hk (c.pool.apply o e) hfixed hgen hget hslots
        ⟨o, e.op, hxo, List.getElem?_set_self hlto, hmine', hgone⟩ (fun _ ho => .inl ho)
        (fun _ ho => ho) fun o' ho' => ?_
      · rw [hset] at hprogress
        exact hprogress
      · have hne : o ≠ o' := fun heq => ho' (heq ▸ hxo)
        exact List.getElem?_set_ne hne

/-! ## The call of `Retain` -/

/-- `Retain` with the ids of all clients changes nothing that is looked at. -/
theorem retain_idle {m : Manager} (hfixed : Fixed m clusters) {active : List String}
    (hactive : ∀ id, m.get id ≠ none → id ∈ active) :
    (m.retain active).2 = [] ∧ Fixed (m.retain active).1 clusters ∧
      (m.retain active).1.generation = m.generation ∧
      ∀ id, (m.retain active).1.get id = m.get id ∧
        (m.retain active).1.configs[id]? = m.configs[id]? := by
  have hremoved : (m.clients.filter fun id _ => !active.contains id) = ∅ := by
    refine Std.ExtTreeMap.ext_getElem? fun id => ?_
    rw [GoMap.get_filter_key m.clients (fun id => !active.contains id) id]
    refine Eq.trans ?_ Std.ExtTreeMap.getElem?_empty.symm
    by_cases hid : m.get id = none
    · rw [show m.clients[id]? = none from hid]
      exact ite_self none
    · rw [if_neg]
      rw [List.contains_eq_mem, decide_eq_true (hactive id hid)]
      exact Bool.false_ne_true
  obtain ⟨configs, desired, hmaps⟩ := hfixed.separate
  have hkeep : (fun id : String =>
      !(m.clients.filter fun id _ => !active.contains id).contains id) = fun _ => true := by
    funext id
    rw [hremoved, Std.ExtTreeMap.contains_empty]
    rfl
  refine ⟨?_, ⟨?_, hfixed.set, ?_⟩, ?_, fun id => ⟨?_, ?_⟩⟩
  · show GoMap.vals (m.clients.filter fun id _ => !active.contains id) = []
    rw [hremoved, GoMap.vals_empty]
  · show (m.maps.deleteConfigs _).desired = _
    rw [← hfixed.desired, Manager.desired, hmaps]
    rfl
  · show ∃ configs desired, m.maps.deleteConfigs _ = .separate configs desired
    rw [hmaps]
    exact ⟨_, _, rfl⟩
  · show (if (m.clients.filter fun id _ => !active.contains id).size > 0 then _ else _) = _
    rw [hremoved]
    exact if_neg (by simp)
  · show (m.clients.filter fun id _ => active.contains id)[id]? = m.clients[id]?
    rw [GoMap.get_filter_key m.clients active.contains id]
    by_cases hid : m.get id = none
    · rw [show m.clients[id]? = none from hid]
      exact ite_self none
    · rw [if_pos]
      rw [List.contains_eq_mem, decide_eq_true (hactive id hid)]
  · show (m.maps.deleteConfigs _).configs[id]? = m.maps.configs[id]?
    rw [hkeep, hmaps]
    show (configs.filter fun id _ => true)[id]? = configs[id]?
    rw [GoMap.get_filter_key configs (fun _ => true) id]
    rfl

theorem Started.retain (h : Started clusters c) : Started clusters c.retain := by
  rcases retain_cases c with heq | ⟨-, heq⟩
  · rw [heq]
    exact h
  · have hactive : ∀ id, c.pool.mgr.get id ≠ none → id ∈ c.attempts.map fun a => a.1.id := by
      intro id hid
      obtain ⟨x, hx, rfl⟩ := h.keys id hid
      exact List.mem_map_of_mem hx
    obtain ⟨hnone, hfixed, hgen, hget⟩ := retain_idle h.fixed hactive
    have hpool : c.pool.start (.retain (c.attempts.map fun a => a.1.id)) =
        { c.pool with
          mgr := (c.pool.mgr.retain (c.attempts.map fun a => a.1.id)).1
          ops := c.pool.ops ++ [.closing [] none] } := by
      unfold Sys.start
      rw [← hnone]
      rfl
    rw [heq, hpool]
    refine
      { cfgs := h.cfgs
        fixed := hfixed
        slots := h.slots
        waiting := fun cfg hx => (hget cfg.id).1.trans (h.waiting cfg hx)
        mine := fun cfg a o hx ho => ?_
        apart := h.apart
        others := fun o op hop => ?_
        keys := fun id hid => h.keys id fun hnone' => hid ((hget id).1.trans hnone') }
    · obtain ⟨op, hop, hmine, hend⟩ := h.mine cfg a o hx ho
      obtain ⟨hlt, -⟩ := List.getElem?_eq_some_iff.1 hop
      exact ⟨op, (List.getElem?_append_left hlt).trans hop,
        hmine.frame hgen (hget cfg.id).1 (hget cfg.id).2, hend⟩
    · have hconcat : (c.pool.ops ++ [.closing [] none])[o]? = some op := hop
      by_cases hlt : o < c.pool.ops.length
      · rw [List.getElem?_append_left hlt] at hconcat
        exact h.others o op hconcat
      · rw [List.getElem?_append_right (by omega)] at hconcat
        exact .inl (List.mem_singleton.1 (List.mem_of_getElem? hconcat))

/-! ## Runs -/

theorem Started.step (h : Started clusters c) (hd : DistinctIDs clusters) (e : ConnectEvent) :
    Started clusters (c.step e) := by
  cases e with
  | acquire k => exact h.acquire hd k
  | move o v => exact h.move hd o v
  | release k => exact h.release hd k
  | retain => exact h.retain

/-- A run of `connect` is a run of the pool in which nothing is applied. -/
def FromMain (clusters : List ClusterConfig) (pool : Sys) : Prop :=
  ∃ as, Api.BeforeServer as ∧ pool = run Sys.step (Sys.initWith clusters) as

theorem FromMain.step {pool : Sys} (h : FromMain clusters pool) {a : Action}
    (ha : ∀ clusters, a ≠ .start (.apply clusters)) : FromMain clusters (pool.step a) := by
  obtain ⟨as, has, rfl⟩ := h
  refine ⟨as ++ [a], fun a' hmem => ?_, ?_⟩
  · rcases List.mem_append.1 hmem with hmem | hmem
    · exact has a' hmem
    · obtain rfl := List.mem_singleton.1 hmem
      exact ha
  · rw [run_append]
    rfl

theorem fromMain_step (h : FromMain clusters c.pool) (e : ConnectEvent) :
    FromMain clusters (c.step e).pool := by
  cases e with
  | acquire k =>
      show FromMain clusters (c.acquire k).pool
      rcases acquire_cases c k with heq | ⟨cfg, -, -, heq⟩
      · rw [heq]
        exact h
      · rw [heq]
        exact h.step (a := .start (.upsert cfg)) fun _ heq => nomatch heq
  | move o v => exact h.step (a := .move o v) fun _ heq => nomatch heq
  | release k =>
      show FromMain clusters (c.release k).pool
      rcases release_cases c k with heq | ⟨cfg, o, result, -, -, heq⟩
      · rw [heq]
        exact h
      · rw [heq]
        exact h
  | retain =>
      show FromMain clusters c.retain.pool
      rcases retain_cases c with heq | ⟨-, heq⟩
      · rw [heq]
        exact h
      · rw [heq]
        exact h.step (a := .start (.retain (c.attempts.map fun a => a.1.id)))
          fun _ heq => nomatch heq

/-- `NewServer` begins with `SetDesired`, which leaves these clients alone. -/
theorem Started.setDesired (h : Started clusters c) (hd : DistinctIDs clusters)
    (hall : ∀ x ∈ c.attempts, x.2.isFinished = true) (id : String) :
    (c.pool.start (.setDesired clusters)).mgr.get id = c.pool.mgr.get id := by
  show (c.pool.mgr.clients.filter fun id _ =>
    c.pool.mgr.wantedAsActive (enabledConfigs clusters) id)[id]? = c.pool.mgr.clients[id]?
  rw [GoMap.get_filter_key c.pool.mgr.clients
    (c.pool.mgr.wantedAsActive (enabledConfigs clusters)) id]
  by_cases hid : c.pool.mgr.get id = none
  · rw [show c.pool.mgr.clients[id]? = none from hid]
    exact ite_self none
  · refine if_pos ?_
    obtain ⟨⟨cfg, a⟩, hx, rfl⟩ := h.keys id hid
    have hfinished := hall _ hx
    cases a with
    | waiting => cases hfinished
    | running o => cases hfinished
    | finished o =>
        obtain ⟨op, -, hmine, hend⟩ := h.mine cfg _ o hx rfl
        obtain ⟨result, rfl⟩ := hend rfl
        cases result with
        | some e => exact absurd hmine.2 hid
        | none =>
            obtain ⟨client, -, -, hcfg⟩ := hmine
            obtain ⟨hmem, hdis⟩ := mem_activeClusters.1 (h.mem_active hx)
            unfold Manager.wantedAsActive
            rw [hcfg, enabledConfigs_get hd hmem hdis]
            simp [sameConnection]

/-- `Retain` is called when every goroutine has ended. -/
def Waited (c : Connections) : Prop :=
  c.retaining ≠ none → ∀ x ∈ c.attempts, x.2.isFinished = true

theorem Waited.step (h : Waited c) (e : ConnectEvent) : Waited (c.step e) := by
  cases e with
  | move o v => exact h
  | acquire k =>
      show Waited (c.acquire k)
      rcases acquire_cases c k with heq | ⟨cfg, hk, -, heq⟩
      · rw [heq]
        exact h
      · rw [heq]
        intro hretaining
        cases h hretaining _ (List.mem_of_getElem? hk)
  | release k =>
      show Waited (c.release k)
      rcases release_cases c k with heq | ⟨cfg, o, result, hk, -, heq⟩
      · rw [heq]
        exact h
      · rw [heq]
        intro hretaining
        cases h hretaining _ (List.mem_of_getElem? hk)
  | retain =>
      show Waited c.retain
      rcases retain_cases c with heq | ⟨hall, heq⟩
      · rw [heq]
        exact h
      · rw [heq]
        exact fun _ => hall

/-! ## The result -/

/-- However the calls of `Upsert` interleave and whatever becomes of them, at
most four are under way, and the pool is one a server may start with. When
`connect` has returned, each enabled cluster has been tried once, and has the
client of its own `Upsert` if that one succeeded and none if it failed; there
are no other clients, and building the server keeps them. -/
theorem connect_installs (hd : DistinctIDs clusters) (events : List ConnectEvent) :
    let c := run Connections.step (Connections.new clusters) events
    c.running ≤ 4 ∧ FromMain clusters c.pool ∧
      (c.returned = true →
        (∀ cfg ∈ clusters, cfg.disabled = false → ∃ o result, (cfg, .finished o) ∈ c.attempts ∧
          c.pool.ops[o]? = some (.closing [] result) ∧ Outcome c.pool.mgr cfg result) ∧
        (∀ id, c.pool.mgr.get id ≠ none →
          ∃ cfg ∈ clusters, cfg.disabled = false ∧ cfg.id = id) ∧
        ∀ id, (c.pool.start (.setDesired clusters)).mgr.get id = c.pool.mgr.get id) := by
  intro c
  have h : Started clusters c ∧ FromMain clusters c.pool ∧ Waited c :=
    run_invariant
      (P := fun c : Connections => Started clusters c ∧ FromMain clusters c.pool ∧ Waited c)
      (fun c e h => ⟨h.1.step hd e, fromMain_step h.2.1 e, h.2.2.step e⟩)
      ⟨started_new, ⟨[], fun _ ha => absurd ha List.not_mem_nil, rfl⟩, fun hne => absurd rfl hne⟩
      events
  obtain ⟨hstarted, hmain, hwaited⟩ := h
  refine ⟨hstarted.slots, hmain, fun hreturned => ?_⟩
  have hall : ∀ x ∈ c.attempts, x.2.isFinished = true := by
    refine hwaited fun hnone => ?_
    unfold Connections.returned at hreturned
    rw [hnone] at hreturned
    cases hreturned
  refine ⟨fun cfg hcfg hdis => ?_, fun id hid => ?_, hstarted.setDesired hd hall⟩
  · have hactive : cfg ∈ c.attempts.map Prod.fst :=
      hstarted.cfgs ▸ mem_activeClusters.2 ⟨hcfg, hdis⟩
    obtain ⟨⟨cfg', a⟩, hx, rfl⟩ := List.mem_map.1 hactive
    have hfinished := hall _ hx
    cases a with
    | waiting => cases hfinished
    | running o => cases hfinished
    | finished o =>
        obtain ⟨op, hop, hmine, hend⟩ := hstarted.mine cfg' _ o hx rfl
        obtain ⟨result, rfl⟩ := hend rfl
        exact ⟨o, result, hx, hop, hmine⟩
  · obtain ⟨x, hx, rfl⟩ := hstarted.keys id hid
    obtain ⟨hmem, hdis⟩ := mem_activeClusters.1 (hstarted.mem_active hx)
    exact ⟨x.1, hmem, hdis, rfl⟩

end

/-! Two clusters, and the second does not answer. -/

def oneOffline : List ConnectEvent :=
  [.acquire 0, .acquire 1, .move 2 (.create (some (8, true))), .move 1 (.create (some (7, true))),
    .move 2 (.ping false), .move 1 (.ping true), .move 2 .close, .release 1, .move 1 .commit,
    .release 0, .retain]

def twoClusters : List ClusterConfig := [plainCluster "a" "k1:9092", plainCluster "b" "k2:9092"]

theorem connect_installs_oneOffline :
    let c := run Connections.step (Connections.new twoClusters) oneOffline
    (c.pool.mgr.get "a").isSome = true ∧ c.pool.mgr.get "b" = none ∧
      ∃ o result, (plainCluster "b" "k2:9092", .finished o) ∈ c.attempts ∧
        c.pool.ops[o]? = some (.closing [] result) ∧
        Outcome c.pool.mgr (plainCluster "b" "k2:9092") result := by
  intro c
  have hd : DistinctIDs twoClusters := by simp [DistinctIDs, twoClusters, plainCluster]
  have hreturned : c.returned = true := by decide +kernel
  obtain ⟨htried, -, -⟩ := (connect_installs hd oneOffline).2.2 hreturned
  exact ⟨by decide +kernel, by decide +kernel,
    htried (plainCluster "b" "k2:9092") (List.mem_cons_of_mem _ List.mem_cons_self) rfl⟩

end KafkaManager.Cluster
