import KafkaManager.Proofs.PoolLocals

/-!
# The pool follows the authoritative configuration

Whatever the interleaving, a client is installed under an id only if it was
created for the connection that `configs` and `desired` have there. `Agrees`
says so for every id at once, and also what the connection-respecting instance
of `Evolves` needs: two clients installed under one id while `desired` stands
have one connection, because both have the desired one.

`begin_agrees` and `move_agrees` are the step lemmas; what the runs keep
follows from them and from `OpReuses.mono`.
-/

namespace KafkaManager.Cluster

open Lib

/-! ## The connections of the two maps -/

theorem desiredAllowsLocked_iff {m : Manager} {cfg : ClusterConfig} (hset : m.desiredSet = true) :
    m.desiredAllowsLocked cfg = true ↔
      connections m.desired cfg.id = some cfg.connection := by
  unfold Manager.desiredAllowsLocked connections
  rw [hset]
  cases m.desired[cfg.id]? with
  | none => simp
  | some wanted => simpa using sameConnection_iff

theorem connections_filter (m : ConfigMap) (keep : String → Bool) (id : String) :
    connections (m.filter fun i _ => keep i) id = if keep id then connections m id else none := by
  rw [connections, GoMap.get_filter_key]
  split <;> rfl

theorem connections_insert (m : ConfigMap) (i : String) (cfg : ClusterConfig) (id : String) :
    connections (m.insert i cfg) id = if i = id then some cfg.connection else connections m id := by
  rw [connections, GoMap.get_insert]
  split <;> rfl

theorem configs_setConfig (maps : ConfigMaps) (i : String) (cfg : ClusterConfig) (id : String) :
    connections (maps.setConfig i cfg).configs id =
      if i = id then some cfg.connection else connections maps.configs id := by
  cases maps <;> exact connections_insert ..

/-- A write through `configs` may reach `desired`, but an allowed
configuration has the connection that is already there. -/
theorem desired_setConfig {maps : ConfigMaps} {i : String} {cfg : ClusterConfig}
    (h : connections maps.desired i = some cfg.connection) (id : String) :
    connections (maps.setConfig i cfg).desired id = connections maps.desired id := by
  cases maps with
  | separate configs desired => rfl
  | shared m =>
      show connections (m.insert i cfg) id = connections m id
      rw [connections_insert]
      split
      · next hi => rw [← hi]; exact h.symm
      · rfl

theorem configs_deleteConfigs (maps : ConfigMaps) (keep : String → Bool) (id : String) :
    connections (maps.deleteConfigs keep).configs id =
      if keep id then connections maps.configs id else none := by
  cases maps <;> exact connections_filter ..

theorem desired_deleteConfigs {maps : ConfigMaps} {keep : String → Bool} {id : String}
    (h : keep id = true) :
    connections (maps.deleteConfigs keep).desired id = connections maps.desired id := by
  cases maps with
  | separate configs desired => rfl
  | shared m =>
      show connections (m.filter fun i _ => keep i) id = connections m id
      rw [connections_filter, if_pos h]

/-! ## The invariant of the shared fields -/

/-- Under this id nothing is installed and nothing recorded, or a client is
installed whose configuration is recorded. -/
def Paired (m : Manager) (id : String) : Prop :=
  (m.clients[id]? = none ∧ connections m.configs id = none) ∨
    ∃ c, m.clients[id]? = some (some c) ∧ connections m.configs id = some c.connection

/-- As `Paired`, and an installed client has the desired connection. -/
def AgreesAt (m : Manager) (id : String) : Prop :=
  (m.clients[id]? = none ∧ connections m.configs id = none) ∨
    ∃ c, m.clients[id]? = some (some c) ∧ connections m.configs id = some c.connection
      ∧ connections m.desired id = some c.connection

/-- The pool has been given its desired set and agrees with it. -/
structure Agrees (m : Manager) : Prop where
  set : m.desiredSet = true
  agree : ∀ id, AgreesAt m id

theorem AgreesAt.paired {m : Manager} {id : String} (h : AgreesAt m id) : Paired m id := by
  rcases h with h | ⟨c, hc, hconf, -⟩
  · exact Or.inl h
  · exact Or.inr ⟨c, hc, hconf⟩

/-- Two clients of one connection. -/
def SameConnection (c c' : Client) : Prop := c'.connection = c.connection

theorem SameConnection.refl (c : Client) : SameConnection c c := rfl

/-- The client has the connection desired under its id. -/
def AsDesired (desired : ConfigMap) (id : String) (c : Client) : Prop :=
  ∃ cfg, desired[id]? = some cfg ∧ c.connection = cfg.connection

theorem AsDesired.same (desired : ConfigMap) (id : String) (c c' : Client)
    (hsame : SameConnection c c') (h : AsDesired desired id c) : AsDesired desired id c' := by
  obtain ⟨cfg, hcfg, hconn⟩ := h
  exact ⟨cfg, hcfg, by rw [hsame, hconn]⟩

/-- What is recorded where the clients that are not kept are removed. -/
theorem configs_removing (m : Manager) (keep : String → Bool) (id : String) :
    connections (m.maps.deleteConfigs fun i =>
        !(m.clients.filter fun i _ => !keep i).contains i).configs id =
      if !(m.clients[id]?.isSome && !keep id) then connections m.configs id else none := by
  rw [configs_deleteConfigs, GoMap.contains_filter_key]

theorem setDesired_agrees {m : Manager} (h : ∀ id, Paired m id) (clusters : List ClusterConfig) :
    Agrees (m.setDesired clusters).1 := by
  refine ⟨rfl, fun id => ?_⟩
  have hconf : connections (m.setDesired clusters).1.configs id =
      if !(m.clients[id]?.isSome && !m.wantedAsActive (enabledConfigs clusters) id)
      then connections m.configs id else none :=
    configs_removing ..
  have hclients : (m.setDesired clusters).1.clients[id]? =
      if m.wantedAsActive (enabledConfigs clusters) id then m.clients[id]? else none :=
    GoMap.get_filter_key ..
  have hdesired : (m.setDesired clusters).1.desired = enabledConfigs clusters := rfl
  unfold AgreesAt
  rw [hclients, hconf, hdesired]
  cases hkeep : m.wantedAsActive (enabledConfigs clusters) id with
  | false =>
      left
      rcases h id with ⟨hc, hconf⟩ | ⟨c, hc, hconf⟩
      · simp [hconf]
      · simp [hc]
  | true =>
      rcases h id with ⟨hc, hconf⟩ | ⟨c, hc, hconf⟩
      · left
        simp [hc, hconf]
      · right
        refine ⟨c, by simpa using hc, by simpa using hconf, ?_⟩
        unfold Manager.wantedAsActive at hkeep
        unfold connections at hconf ⊢
        cases ha : m.configs[id]? with
        | none => simp [ha] at hconf
        | some active =>
            cases hw : (enabledConfigs clusters)[id]? with
            | none => simp [ha, hw] at hkeep
            | some wanted =>
                simp only [ha, hw] at hkeep
                simp only [ha, Option.map_some, Option.some.injEq] at hconf
                simp only [Option.map_some, ← sameConnection_iff.1 hkeep, hconf]

theorem retain_agrees {m : Manager} (h : Agrees m) (active : List String) :
    Agrees (m.retain active).1 := by
  refine ⟨h.set, fun id => ?_⟩
  have hconf : connections (m.retain active).1.configs id =
      if !(m.clients[id]?.isSome && !active.contains id)
      then connections m.configs id else none :=
    configs_removing m active.contains id
  unfold AgreesAt
  rw [get_retain, hconf]
  rcases h.agree id with ⟨hc, hnone⟩ | ⟨c, hc, hsome, hwant⟩
  · left
    simp [hc, hnone]
  · cases hact : active.contains id with
    | false =>
        left
        simp [hc]
    | true =>
        right
        refine ⟨c, by simpa using hc, by simpa using hsome, ?_⟩
        rw [← hwant]
        refine desired_deleteConfigs ?_
        rw [GoMap.contains_filter_key, hact]
        simp

theorem close_agrees (m : Manager) : Agrees m.close.1 :=
  ⟨rfl, fun id => Or.inl ⟨by simp [Manager.close], by simp [Manager.close, connections,
    Manager.configs, ConfigMaps.configs]⟩⟩

theorem upsertCommit_agrees {m m' : Manager} (h : Agrees m) {generation : Nat}
    {cfg : ClusterConfig} {client : Client} {old : Option Client}
    (hfrom : client.createdFrom = cfg)
    (hc : m.upsertCommit generation cfg client = some (m', old)) :
    Agrees m' ∧ Evolves SameConnection m m' := by
  obtain ⟨-, hallowed, rfl, -⟩ := upsertCommit_some hc
  have hallow : connections m.desired cfg.id = some cfg.connection :=
    (desiredAllowsLocked_iff h.set).1 hallowed
  have hclient : client.connection = cfg.connection := by rw [← hfrom]; rfl
  have hclients : ∀ id : String,
      (m.clients.insert cfg.id (some client))[id]? =
        if cfg.id = id then some (some client) else m.clients[id]? :=
    fun id => GoMap.get_insert ..
  refine ⟨⟨h.set, fun id => ?_⟩, Nat.le_refl _, fun _ id c hidc => ?_⟩
  · unfold AgreesAt
    rw [hclients, configs_setConfig, desired_setConfig hallow]
    by_cases hid : cfg.id = id
    · right
      subst hid
      exact ⟨client, by simp, by simp [hclient], by rw [hclient]; exact hallow⟩
    · rw [if_neg hid, if_neg hid]
      exact h.agree id
  · -- An installed client under this id had the desired connection already.
    by_cases hid : cfg.id = id
    · subst hid
      refine ⟨client, by rw [hclients, if_pos rfl], ?_⟩
      rcases h.agree cfg.id with ⟨hnone, -⟩ | ⟨c₀, hc₀, -, hwant⟩
      · rw [hnone] at hidc
        exact absurd hidc (by simp)
      · rw [hc₀] at hidc
        simp only [Option.some.injEq] at hidc
        rw [hallow, hidc] at hwant
        show client.connection = c.connection
        rw [hclient]
        simpa using hwant
    · exact ⟨c, by rw [hclients, if_neg hid]; exact hidc, rfl⟩

theorem reused_asDesired {m : Manager} (h : ∀ id, Paired m id) (desired : ConfigMap) (id : String)
    (hid : flag (m.reused desired) id = true) :
    ∃ c, m.clients[id]? = some (some c) ∧ AsDesired desired id c := by
  obtain ⟨hsome, cfg, hcfg, hconf⟩ := flag_reused hid
  rcases h id with ⟨hnone, -⟩ | ⟨c, hc, hconf'⟩
  · rw [hnone] at hsome
    exact absurd hsome (by simp)
  · refine ⟨c, hc, cfg, hcfg, ?_⟩
    rw [hconf] at hconf'
    simpa using hconf'.symm

theorem applyCommit_agrees {m m' : Manager} {l : ApplyLocals} {done : List ClusterConfig}
    {old : List (Option Client)} (hstands : Reuses AsDesired m l) (hconn : Connecting l done [])
    (hc : m.applyCommit l.generation l.desired l.reused l.created = some (m', old)) :
    Agrees m' ∧ Evolves SameConnection m m' := by
  obtain ⟨hgen, rfl, -⟩ := applyCommit_some hc
  refine ⟨⟨rfl, fun id => ?_⟩, Evolves.of_lt (Nat.lt_succ_self _)⟩
  have hall : l.desired = enabledConfigs done := by
    rw [hconn.desired, hconn.clusters, List.append_nil]
  show (_ ∧ connections l.desired id = none) ∨ ∃ c, _ ∧ connections l.desired id = _
    ∧ connections l.desired id = _
  unfold connections
  rw [get_nextClients]
  cases hd : l.desired[id]? with
  | none => exact Or.inl ⟨rfl, rfl⟩
  | some cfg =>
      right
      cases hre : flag l.reused id with
      | true =>
          obtain ⟨c, hcl, cfg', hcfg', hcc⟩ := hstands.2 hgen id hre
          rw [hd] at hcfg'
          obtain rfl := Option.some.inj hcfg'
          refine ⟨c, ?_, by simp [hcc], by simp [hcc]⟩
          simp [(hconn.reused id hre).1, ClientMap.value, hcl]
      | false =>
          have hmk := hconn.created id hre
          rw [← hall, hd] at hmk
          obtain ⟨c, hcr, hfrom⟩ := Option.map_eq_some_iff.1 hmk
          have hcc : c.connection = cfg.connection := by rw [← hfrom]; rfl
          exact ⟨c, by simp [hcr], by simp [hcc], by simp [hcc]⟩

/-! ## The steps -/

def OpAgrees (m : Manager) (op : Op) : Prop := OpLocal op ∧ OpReuses AsDesired m op

theorem OpAgrees.mono {m m' : Manager} {op : Op} (h : OpAgrees m op)
    (hev : Evolves SameConnection m m') : OpAgrees m' op :=
  ⟨h.1, h.2.mono AsDesired.same hev⟩

theorem begin_agrees {m : Manager} (h : Agrees m) (r : Request) :
    Agrees (m.begin r).1 ∧ Evolves SameConnection m (m.begin r).1
      ∧ OpAgrees (m.begin r).1 (m.begin r).2 := by
  have hrefl := Evolves.refl SameConnection.refl m
  have hmgr : Agrees (m.begin r).1 ∧ Evolves SameConnection m (m.begin r).1 := by
    cases r with
    | apply clusters => exact ⟨h, hrefl⟩
    | upsert cfg =>
        rw [begin_upsert_mgr]
        exact ⟨h, hrefl⟩
    | setDesired clusters =>
        exact ⟨setDesired_agrees (fun id => (h.agree id).paired) clusters,
          Evolves.of_lt (Nat.lt_succ_self _)⟩
    | retain active => exact ⟨retain_agrees h active, retain_evolves SameConnection.refl m active⟩
    | close => exact ⟨close_agrees m, Evolves.of_lt (Nat.lt_succ_self _)⟩
  exact ⟨hmgr.1, hmgr.2, begin_local m r,
    (begin_reuses (reused_asDesired fun id => (h.agree id).paired) r).mono AsDesired.same hmgr.2⟩

theorem move_agrees {m : Manager} (h : Agrees m) {op : Op} (hop : OpAgrees m op) {v : Move}
    {e : Effect} (he : op.move m v = some e) :
    Agrees e.mgr ∧ Evolves SameConnection m e.mgr ∧ OpAgrees e.mgr e.op := by
  have hmgr : Agrees e.mgr ∧ Evolves SameConnection m e.mgr := by
    rcases move_mgr he with hsame | ⟨l, old, rfl, hnil, hcommit, -⟩ |
      ⟨generation, cfg, client, old, pending, rfl, hcommit, -⟩
    · rw [hsame]
      exact ⟨h, Evolves.refl SameConnection.refl m⟩
    · obtain ⟨⟨done, hconn⟩, hreuse⟩ := hop
      obtain ⟨⟨done', hrem⟩, -⟩ := hconn.next
      rw [hnil] at hrem
      exact applyCommit_agrees hreuse hrem hcommit
    · exact upsertCommit_agrees h hop.1 hcommit
  exact ⟨hmgr.1, hmgr.2, move_local hop.1 he, (move_reuses hop.2 he).mono AsDesired.same hmgr.2⟩

/-! ## Runs -/

/-- The invariant of the pool with its operations. -/
structure Good (s : Sys) : Prop where
  mgr : Agrees s.mgr
  ops : ∀ op ∈ s.ops, OpAgrees s.mgr op

theorem start_good {s : Sys} (h : Good s) (r : Request) :
    Good (s.start r) ∧ Evolves SameConnection s.mgr (s.start r).mgr := by
  obtain ⟨hag, hev, hop⟩ := begin_agrees h.mgr r
  refine ⟨⟨hag, fun op hmem => ?_⟩, hev⟩
  rcases List.mem_append.1 hmem with hold | hnew
  · exact (h.ops op hold).mono hev
  · rw [List.mem_singleton.1 hnew]
    exact hop

theorem move_good {s : Sys} (h : Good s) (o : Nat) (v : Move) :
    Good (s.move o v) ∧ Evolves SameConnection s.mgr (s.move o v).mgr := by
  rcases s.move_cases o v with heq | ⟨op, e, hop, he, heq⟩
  · rw [heq]
    exact ⟨h, Evolves.refl SameConnection.refl s.mgr⟩
  · obtain ⟨hag, hev, hop'⟩ := move_agrees h.mgr (h.ops op (List.mem_of_getElem? hop)) he
    rw [heq]
    refine ⟨⟨hag, fun op' hmem => ?_⟩, hev⟩
    rcases List.mem_or_eq_of_mem_set hmem with hold | rfl
    · exact (h.ops op' hold).mono hev
    · exact hop'

theorem step_good {s : Sys} (h : Good s) (a : Action) :
    Good (s.step a) ∧ Evolves SameConnection s.mgr (s.step a).mgr := by
  cases a with
  | start r => exact start_good h r
  | move o v => exact move_good h o v

theorem initWith_good (clusters : List ClusterConfig) : Good (Sys.initWith clusters) := by
  have hempty : ∀ id, Paired newManager id := by
    intro id
    left
    simp [newManager, connections, Manager.configs, ConfigMaps.configs]
  refine ⟨setDesired_agrees hempty clusters, fun op hmem => ?_⟩
  rw [List.mem_singleton.1 hmem]
  exact ⟨trivial, trivial⟩

theorem run_good (clusters : List ClusterConfig) (as : List Action) :
    Good (run Sys.step (Sys.initWith clusters) as) :=
  run_invariant (P := Good) (fun _ a h => (step_good h a).1) (initWith_good clusters) as

/-- An `Upsert` has begun and neither installed its client nor given up. -/
def Op.upserting : Op → Bool
  | .upsert .. | .upsertPing .. | .upsertReady .. => true
  | _ => false

/-- In this state the action is a `SetDesired`, a `Close` or the commit of an
`Apply` that succeeds. -/
inductive Supersedes (s : Sys) : Action → Prop
  | setDesired (clusters : List ClusterConfig) : Supersedes s (.start (.setDesired clusters))
  | close : Supersedes s (.start .close)
  | apply {o : Nat} {l : ApplyLocals} (hop : s.ops[o]? = some (.apply l))
      (hdone : l.remaining = []) (hfresh : l.generation = s.mgr.generation) :
      Supersedes s (.move o .commit)

/-- The `Upsert` took its snapshot under an older generation, or has failed. -/
def Superseded (m : Manager) : Op → Prop
  | .upsert generation _ | .upsertPing generation _ _ | .upsertReady generation _ _ =>
      generation < m.generation
  | .closing _ (some _) => True
  | _ => False

theorem supersedes_generation {s : Sys} {a : Action} (h : Supersedes s a) :
    s.mgr.generation < (s.step a).mgr.generation := by
  cases h with
  | setDesired clusters => exact Nat.lt_succ_self _
  | close => exact Nat.lt_succ_self _
  | @apply o l hop hdone hfresh =>
      have hmove : (s.move o .commit).mgr.generation = s.mgr.generation + 1 := by
        simp [Sys.move, hop, Op.move, hdone, Manager.applyCommit, hfresh, Sys.apply]
      show s.mgr.generation < (s.move o .commit).mgr.generation
      omega

theorem supersedes_op {s : Sys} {a : Action} (h : Supersedes s a) {o : Nat} {op : Op}
    (hop : s.ops[o]? = some op) (hup : op.upserting = true) : (s.step a).ops[o]? = some op := by
  obtain ⟨hlt, hget⟩ := List.getElem?_eq_some_iff.1 hop
  cases h with
  | setDesired clusters =>
      show (s.ops ++ _)[o]? = some op
      rw [List.getElem?_append_left hlt, hop]
  | close =>
      show (s.ops ++ _)[o]? = some op
      rw [List.getElem?_append_left hlt, hop]
  | @apply o' l happ hdone hfresh =>
      have hne : o' ≠ o := by
        rintro rfl
        rw [happ] at hop
        obtain rfl := Option.some.inj hop
        exact absurd hup (by simp [Op.upserting])
      rcases s.move_cases o' .commit with heq | ⟨op', e, -, -, heq⟩
      · show (s.move o' .commit).ops[o]? = some op
        rw [heq, hop]
      · show (s.move o' .commit).ops[o]? = some op
        rw [heq]
        show (s.ops.set o' e.op)[o]? = some op
        rw [List.getElem?_set_ne hne, hop]

theorem superseded_of_lt {m m' : Manager} {op : Op} (h : OpAgrees m op)
    (hup : op.upserting = true) (hlt : m.generation < m'.generation) : Superseded m' op := by
  cases op with
  | upsert generation cfg => exact Nat.lt_of_le_of_lt h.2 hlt
  | upsertPing generation cfg client => exact Nat.lt_of_le_of_lt h.2 hlt
  | upsertReady generation cfg client => exact Nat.lt_of_le_of_lt h.2 hlt
  | apply l => exact absurd hup (by simp [Op.upserting])
  | applyPing l cfg client => exact absurd hup (by simp [Op.upserting])
  | closing pending result => exact absurd hup (by simp [Op.upserting])

theorem Superseded.mono {m m' : Manager} {op : Op} (h : Superseded m op)
    (hgen : m.generation ≤ m'.generation) : Superseded m' op := by
  cases op with
  | upsert generation cfg => exact Nat.lt_of_lt_of_le h hgen
  | upsertPing generation cfg client => exact Nat.lt_of_lt_of_le h hgen
  | upsertReady generation cfg client => exact Nat.lt_of_lt_of_le h hgen
  | apply l => exact h
  | applyPing l cfg client => exact h
  | closing pending result => cases result <;> exact h

/-- A superseded `Upsert` writes nothing. -/
theorem Superseded.move {m : Manager} {op : Op} (h : Superseded m op) {v : Move} {e : Effect}
    (he : op.move m v = some e) : e.mgr = m ∧ Superseded m e.op := by
  cases Op.moves he with
  | uncreated | created | answered | unanswered | stale | applied => exact h.elim
  | upsertUncreated | upsertUnanswered | upsertStale => exact ⟨rfl, trivial⟩
  | upsertCreated | upsertAnswered => exact ⟨rfl, h⟩
  | upserted hcommit =>
      obtain ⟨hgen, -⟩ := upsertCommit_some hcommit
      exact absurd hgen (Nat.ne_of_lt h)
  | @closed client pending result => cases result <;> exact ⟨rfl, h⟩

/-- What a run keeps of a superseded operation. -/
theorem superseded_step {s : Sys} (h : Good s) {o : Nat} {op : Op} (hop : s.ops[o]? = some op)
    (hsup : Superseded s.mgr op) (a : Action) :
    ∃ op', (s.step a).ops[o]? = some op' ∧ Superseded (s.step a).mgr op' := by
  have hgen := (step_good h a).2.1
  obtain ⟨hlt, -⟩ := List.getElem?_eq_some_iff.1 hop
  cases a with
  | start r =>
      refine ⟨op, ?_, hsup.mono hgen⟩
      show (s.ops ++ _)[o]? = some op
      rw [List.getElem?_append_left hlt, hop]
  | move o' v =>
      rcases s.move_cases o' v with heq | ⟨op', e, hop', he, heq⟩
      · refine ⟨op, ?_, hsup.mono hgen⟩
        show (s.move o' v).ops[o]? = some op
        rw [heq, hop]
      · have hops : (s.step (.move o' v)).ops = s.ops.set o' e.op := by
          show (s.move o' v).ops = _
          rw [heq]
          rfl
        have hmgr : (s.step (.move o' v)).mgr = e.mgr := by
          show (s.move o' v).mgr = _
          rw [heq]
          rfl
        rw [hops]
        by_cases ho : o' = o
        · subst ho
          rw [hop] at hop'
          obtain rfl := Option.some.inj hop'
          obtain ⟨hsame, hsup'⟩ := hsup.move he
          exact ⟨e.op, by rw [List.getElem?_set_self hlt], by rw [hmgr, hsame]; exact hsup'⟩
        · exact ⟨op, by rw [List.getElem?_set_ne ho, hop], hsup.mono hgen⟩

theorem superseded_run {s : Sys} (h : Good s) {o : Nat} {op : Op} (hop : s.ops[o]? = some op)
    (hsup : Superseded s.mgr op) (as : List Action) :
    ∃ op', (run Sys.step s as).ops[o]? = some op' ∧ Superseded (run Sys.step s as).mgr op' := by
  have hinv : Good (run Sys.step s as) ∧ ∃ op', (run Sys.step s as).ops[o]? = some op' ∧
      Superseded (run Sys.step s as).mgr op' := by
    refine run_invariant (P := fun t => Good t ∧ ∃ op', t.ops[o]? = some op' ∧
      Superseded t.mgr op') ?_ ⟨h, op, hop, hsup⟩ as
    intro t a ⟨hgood, op', hop', hsup'⟩
    exact ⟨(step_good hgood a).1, superseded_step hgood hop' hsup' a⟩
  exact hinv.2

/-! ## The statement in the words of the two maps -/

/-- The clients installed are those of `configs`, desired, not nil, and each
was created for the connection both maps have under its id. -/
structure Follows (m : Manager) : Prop where
  ids : ∀ id, id ∈ m.clients ↔ id ∈ m.configs
  desired : ∀ id, id ∈ m.clients → id ∈ m.desired
  nonNil : ∀ id : String, m.clients[id]? ≠ some none
  connection : ∀ (id : String) (c : Client), m.clients[id]? = some (some c) →
    ∃ cfg wanted, m.configs[id]? = some cfg ∧ m.desired[id]? = some wanted ∧
      sameConnection c.createdFrom cfg = true ∧ sameConnection c.createdFrom wanted = true

theorem mem_of_connections {m : ConfigMap} {id : String} {conn : Connection}
    (h : connections m id = some conn) : ∃ cfg, m[id]? = some cfg ∧ cfg.connection = conn :=
  Option.map_eq_some_iff.1 h

theorem Agrees.follows {m : Manager} (h : Agrees m) : Follows m := by
  refine ⟨fun id => ?_, fun id hid => ?_, fun id hnil => ?_, fun id c hc => ?_⟩
  · rw [Std.ExtTreeMap.mem_iff_isSome_getElem?, Std.ExtTreeMap.mem_iff_isSome_getElem?]
    rcases h.agree id with ⟨hc, hconf⟩ | ⟨c, hc, hconf, -⟩
    · rw [hc, Option.map_eq_none_iff.1 hconf]
      simp
    · obtain ⟨cfg, hcfg, -⟩ := mem_of_connections hconf
      rw [hc, hcfg]
      simp
  · rw [Std.ExtTreeMap.mem_iff_isSome_getElem?] at hid ⊢
    rcases h.agree id with ⟨hc, -⟩ | ⟨c, -, -, hwant⟩
    · rw [hc] at hid
      exact absurd hid (by simp)
    · obtain ⟨wanted, hwanted, -⟩ := mem_of_connections hwant
      rw [hwanted]
      rfl
  · rcases h.agree id with ⟨hc, -⟩ | ⟨c, hc, -⟩
    · rw [hc] at hnil
      exact absurd hnil (by simp)
    · rw [hc] at hnil
      exact absurd hnil (by simp)
  · rcases h.agree id with ⟨hnone, -⟩ | ⟨c', hc', hconf, hwant⟩
    · rw [hnone] at hc
      exact absurd hc (by simp)
    · rw [hc'] at hc
      obtain rfl := Option.some.inj (Option.some.inj hc)
      obtain ⟨cfg, hcfg, hcc⟩ := mem_of_connections hconf
      obtain ⟨wanted, hwanted, hwc⟩ := mem_of_connections hwant
      exact ⟨cfg, wanted, hcfg, hwanted, sameConnection_iff.2 hcc.symm, sameConnection_iff.2 hwc.symm⟩

/-- After any interleaving the pool follows the configuration it was given,
and an `Upsert` that a later `SetDesired`, `Close` or `Apply` overtook neither
writes to the pool nor succeeds, whatever comes after. -/
theorem pool_follows (clusters : List ClusterConfig) (as : List Action) :
    let s := run Sys.step (Sys.initWith clusters) as
    Follows s.mgr ∧
      ∀ (o : Nat) (op : Op) (a : Action), s.ops[o]? = some op → op.upserting = true →
        Supersedes s a → ∀ bs : List Action,
          let t := run Sys.step (s.step a) bs
          (∀ v, (t.move o v).mgr = t.mgr) ∧ ∀ pending, t.ops[o]? ≠ some (.closing pending none) := by
  intro s
  have hgood : Good s := run_good clusters as
  refine ⟨hgood.mgr.follows, fun o op a hop hup ha bs => ?_⟩
  have hsup : Superseded (s.step a).mgr op :=
    superseded_of_lt (hgood.ops op (List.mem_of_getElem? hop)) hup (supersedes_generation ha)
  have hgood' := (step_good hgood a).1
  obtain ⟨op', hop', hsup'⟩ := superseded_run hgood' (supersedes_op ha hop hup) hsup bs
  refine ⟨fun v => ?_, fun pending hdone => ?_⟩
  · rcases (run Sys.step (s.step a) bs).move_cases o v with heq | ⟨op'', e, hop'', he, heq⟩
    · rw [heq]
    · rw [hop'] at hop''
      obtain rfl := Option.some.inj hop''
      rw [heq]
      exact (hsup'.move he).1
  · rw [hop'] at hdone
    obtain rfl := Option.some.inj hdone
    exact hsup'

theorem pool_follows_overtaken :
    let s := run Sys.step (Sys.initWith [plainCluster "a" "k1:9092"])
      [.start (.upsert (plainCluster "a" "k1:9092"))]
    let t := run Sys.step (s.step (.start .close))
      [.move 1 (.create (some (7, true))), .move 1 (.ping true)]
    Follows s.mgr ∧ (t.move 1 .commit).mgr = t.mgr := by
  have h := pool_follows [plainCluster "a" "k1:9092"]
    [.start (.upsert (plainCluster "a" "k1:9092"))]
  exact ⟨h.1, (h.2 1 (.upsert 1 (plainCluster "a" "k1:9092")) (.start .close) rfl rfl .close _).1 _⟩

end KafkaManager.Cluster
