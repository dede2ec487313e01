import KafkaManager.Proofs.PoolTransactions

/-!
# What a successful `Apply` installs

Once a desired set is established, no `Upsert` can change a connection, and an
`Apply` may count on every client it reuses. Before that, an `Upsert` installs
what it likes and leaves the generation as it is. If it replaces a client that
an `Apply` has decided to keep, by one for another connection, the `Apply`
commits all the same, and has installed something else than it was asked for.

`careful` says of a step that it is not such a commit, and `Sound` is what all
other steps keep.
-/

namespace KafkaManager.Cluster

open Lib

/-- The ids installed are those enabled, each with a client for the connection
asked for. -/
structure Installs (m : Manager) (clusters : List ClusterConfig) : Prop where
  ids : ∀ id : String, id ∈ m.clients ↔ ∃ cfg ∈ clusters, cfg.disabled = false ∧ cfg.id = id
  clients : ∀ cfg ∈ clusters, cfg.disabled = false →
    ∃ c, m.clients[cfg.id]? = some (some c) ∧ sameConnection c.createdFrom cfg = true

/-- The `Apply` is not stale and keeps the client under this id, for another
connection. -/
def ApplyLocals.disturbedBy (m : Manager) (cfg : ClusterConfig) (l : ApplyLocals) : Bool :=
  l.generation == m.generation && flag l.reused cfg.id &&
    !(l.desired[cfg.id]?.any fun wanted => sameConnection cfg wanted)

def Op.disturbedBy (m : Manager) (cfg : ClusterConfig) : Op → Bool
  | .apply l | .applyPing l _ _ => l.disturbedBy m cfg
  | _ => false

/-- The step is not the commit of an `Upsert` that disturbs an `Apply`. -/
def careful (s : Sys) : Action → Bool
  | .move o .commit =>
      match s.ops[o]? with
      | some (.upsertReady generation cfg _) =>
          s.mgr.desiredSet || generation != s.mgr.generation ||
            s.ops.all fun op => !op.disturbedBy s.mgr cfg
      | _ => true
  | _ => true

/-- With or without a desired set, every installed client is the one recorded,
and every `Apply` under way may count on what it keeps. -/
structure Sound (s : Sys) : Prop where
  paired : ∀ id, Paired s.mgr id
  agrees : s.mgr.desiredSet = true → Agrees s.mgr
  ops : ∀ op ∈ s.ops, OpAgrees s.mgr op

section

variable {m m' : Manager}

theorem Agrees.paired (h : Agrees m) (id : String) : Paired m id := (h.agree id).paired

theorem newManager_paired (id : String) : Paired newManager id :=
  .inl ⟨by simp [newManager], by simp [newManager, connections, Manager.configs, ConfigMaps.configs]⟩

theorem init_sound : Sound Sys.init where
  paired := newManager_paired
  agrees := fun hset => by cases hset
  ops := fun op hop => by cases hop

/-! ## The critical sections before a desired set is established -/

theorem retain_paired (h : ∀ id, Paired m id) (active : List String) (id : String) :
    Paired (m.retain active).1 id := by
  have hconf : connections (m.retain active).1.configs id =
      if !(m.clients[id]?.isSome && !active.contains id) then connections m.configs id else none :=
    configs_removing m active.contains id
  unfold Paired
  rw [get_retain, hconf]
  rcases h id with ⟨hc, hnone⟩ | ⟨c, hc, hsome⟩
  · exact .inl (by simp [hc, hnone])
  · cases hact : active.contains id with
    | false => exact .inl (by simp [hc])
    | true => exact .inr ⟨c, by simpa using hc, by simpa using hsome⟩

theorem upsertCommit_paired (h : ∀ id, Paired m id) {generation : Nat} {cfg : ClusterConfig}
    {client : Client} {old : Option Client} (hfrom : client.createdFrom = cfg)
    (hc : m.upsertCommit generation cfg client = some (m', old)) (id : String) : Paired m' id := by
  obtain ⟨-, -, rfl, -⟩ := upsertCommit_some hc
  have hclients : (m.clients.insert cfg.id (some client))[id]? =
      if cfg.id = id then some (some client) else m.clients[id]? := GoMap.get_insert ..
  unfold Paired
  rw [hclients, configs_setConfig]
  by_cases hid : cfg.id = id
  · exact .inr ⟨client, by rw [if_pos hid], by rw [if_pos hid, ← hfrom]; rfl⟩
  · rw [if_neg hid, if_neg hid]
    exact h id

/-- An `Apply` that is not disturbed may count on what it keeps as before. -/
theorem upsertCommit_reuses {generation : Nat} {cfg : ClusterConfig} {client : Client}
    {old : Option Client} (hfrom : client.createdFrom = cfg)
    (hc : m.upsertCommit generation cfg client = some (m', old)) {l : ApplyLocals}
    (h : Reuses AsDesired m l) (hcareful : l.disturbedBy m cfg = false) :
    Reuses AsDesired m' l := by
  obtain ⟨-, -, rfl, -⟩ := upsertCommit_some hc
  refine ⟨h.1, fun hgen id hid => ?_⟩
  have hclients : (m.clients.insert cfg.id (some client))[id]? =
      if cfg.id = id then some (some client) else m.clients[id]? := GoMap.get_insert ..
  by_cases hsame : cfg.id = id
  · subst hsame
    have hany : l.desired[cfg.id]?.any (fun wanted => sameConnection cfg wanted) = true := by
      have hgen' : l.generation = m.generation := hgen
      simpa [ApplyLocals.disturbedBy, hgen', hid] using hcareful
    obtain ⟨wanted, hwanted, hconn⟩ := (Option.any_eq_true _ _).1 hany
    refine ⟨client, by rw [hclients, if_pos rfl], wanted, hwanted, ?_⟩
    rw [← sameConnection_iff.1 hconn, ← hfrom]
    rfl
  · obtain ⟨c, hcl, has⟩ := h.2 hgen id hid
    exact ⟨c, by rw [hclients, if_neg hsame]; exact hcl, has⟩

end

/-! ## The steps -/

theorem begin_paired {m : Manager} (h : ∀ id, Paired m id) (r : Request) (id : String) :
    Paired (m.begin r).1 id := by
  cases r with
  | apply clusters => exact h id
  | upsert cfg =>
      rw [begin_upsert_mgr]
      exact h id
  | setDesired clusters => exact (setDesired_agrees h clusters).paired id
  | retain active => exact retain_paired h active id
  | close => exact (close_agrees m).paired id

/-- A call establishes the desired set or leaves it to be established. -/
theorem begin_unset {m : Manager} (h : ∀ id, Paired m id) (hset : m.desiredSet = false)
    (r : Request) :
    ((m.begin r).1.desiredSet = true → Agrees (m.begin r).1) ∧
      Evolves SameConnection m (m.begin r).1 := by
  have hrefl := Evolves.refl SameConnection.refl m
  have hsame : m.desiredSet = true → Agrees m := fun h => by
    rw [hset] at h
    cases h
  cases r with
  | apply clusters => exact ⟨hsame, hrefl⟩
  | upsert cfg =>
      rw [begin_upsert_mgr]
      exact ⟨hsame, hrefl⟩
  | setDesired clusters =>
      exact ⟨fun _ => setDesired_agrees h clusters, Evolves.of_lt (Nat.lt_succ_self _)⟩
  | retain active =>
      refine ⟨fun hset' => ?_, retain_evolves SameConnection.refl m active⟩
      rw [show (m.begin (.retain active)).1.desiredSet = m.desiredSet from rfl, hset] at hset'
      cases hset'
  | close => exact ⟨fun _ => close_agrees m, Evolves.of_lt (Nat.lt_succ_self _)⟩

theorem start_sound {s : Sys} (h : Sound s) (r : Request) : Sound (s.start r) := by
  obtain ⟨hagrees, hev⟩ : ((s.mgr.begin r).1.desiredSet = true → Agrees (s.mgr.begin r).1) ∧
      Evolves SameConnection s.mgr (s.mgr.begin r).1 := by
    cases hset : s.mgr.desiredSet with
    | true =>
        obtain ⟨hag, hev, -⟩ := begin_agrees (h.agrees hset) r
        exact ⟨fun _ => hag, hev⟩
    | false => exact begin_unset h.paired hset r
  refine ⟨begin_paired h.paired r, hagrees, fun op hmem => ?_⟩
  rcases List.mem_append.1 hmem with hold | hnew
  · exact (h.ops op hold).mono hev
  · rw [List.mem_singleton.1 hnew]
    exact ⟨begin_local s.mgr r,
      (begin_reuses (reused_asDesired h.paired) r).mono AsDesired.same hev⟩

/-- The knowledge of the other operations after a careful commit of an `Upsert`
before a desired set is established. -/
theorem upsertCommit_ops {s : Sys} (h : Sound s) {m' : Manager} {generation : Nat}
    {cfg : ClusterConfig} {client : Client} {old : Option Client}
    (hfrom : client.createdFrom = cfg)
    (hc : s.mgr.upsertCommit generation cfg client = some (m', old))
    (hcareful : ∀ op ∈ s.ops, op.disturbedBy s.mgr cfg = false) {op : Op} (hop : op ∈ s.ops) :
    OpAgrees m' op := by
  have hgen : m'.generation = s.mgr.generation := by
    obtain ⟨-, -, rfl, -⟩ := upsertCommit_some hc
    rfl
  obtain ⟨hlocal, hreuses⟩ := h.ops op hop
  have hop' := hcareful op hop
  refine ⟨hlocal, ?_⟩
  cases op with
  | apply l => exact upsertCommit_reuses hfrom hc hreuses hop'
  | applyPing l cfg' client' => exact upsertCommit_reuses hfrom hc hreuses hop'
  | upsert g cfg' => exact Nat.le_trans hreuses hgen.ge
  | upsertPing g cfg' client' => exact Nat.le_trans hreuses hgen.ge
  | upsertReady g cfg' client' => exact Nat.le_trans hreuses hgen.ge
  | closing pending result => trivial

/-- Only the commit of an `Upsert` has to be careful. -/
theorem careful_upsert {s : Sys} {o : Nat} {generation : Nat} {cfg : ClusterConfig}
    {client : Client} (hop : s.ops[o]? = some (.upsertReady generation cfg client))
    (hc : careful s (.move o .commit) = true) (hset : s.mgr.desiredSet = false)
    (hgen : generation = s.mgr.generation) :
    ∀ op ∈ s.ops, op.disturbedBy s.mgr cfg = false := by
  simpa [careful, hop, hset, hgen] using hc

theorem move_sound {s : Sys} (h : Sound s) {o : Nat} {v : Move}
    (hc : careful s (.move o v) = true) : Sound (s.move o v) := by
  rcases s.move_cases o v with heq | ⟨op, e, hop, he, heq⟩
  · rw [heq]
    exact h
  have hknows := h.ops op (List.mem_of_getElem? hop)
  -- what is kept, the mover apart and the mover
  obtain ⟨hpaired, hagrees, hothers, hmover⟩ : (∀ id, Paired e.mgr id) ∧
      (e.mgr.desiredSet = true → Agrees e.mgr) ∧ (∀ op ∈ s.ops, OpAgrees e.mgr op) ∧
      OpAgrees e.mgr e.op := by
    cases hset : s.mgr.desiredSet with
    | true =>
        obtain ⟨hag, hev, hop'⟩ := move_agrees (h.agrees hset) hknows he
        exact ⟨hag.paired, fun _ => hag, fun op hmem => (h.ops op hmem).mono hev, hop'⟩
    | false =>
        rcases move_mgr he with hsame | ⟨l, old, rfl, hnil, hcommit, hclosing⟩ |
          ⟨generation, cfg, client, old, pending, rfl, hcommit, hclosing⟩
        · rw [hsame]
          exact ⟨h.paired, h.agrees, h.ops, move_local hknows.1 he, move_reuses hknows.2 he⟩
        · obtain ⟨⟨done, hconn⟩, hreuse⟩ := hknows
          obtain ⟨⟨done', hrem⟩, -⟩ := hconn.next
          rw [hnil] at hrem
          obtain ⟨hag, hev⟩ := applyCommit_agrees hreuse hrem hcommit
          rw [hclosing]
          exact ⟨hag.paired, fun _ => hag, fun op hmem => (h.ops op hmem).mono hev, trivial, trivial⟩
        · have hfrom : client.createdFrom = cfg := hknows.1
          obtain ⟨hgen, -, hmgr, -⟩ := upsertCommit_some hcommit
          have hv : v = .commit := by
            cases Op.moves he with
            | upsertStale => rfl
            | upserted => rfl
          subst hv
          have hundisturbed := careful_upsert hop hc hset hgen
          have hunset : e.mgr.desiredSet = false := by rw [hmgr, ← hset]
          rw [hclosing]
          refine ⟨upsertCommit_paired h.paired hfrom hcommit, fun hset' => ?_, fun op hmem =>
            upsertCommit_ops h hfrom hcommit hundisturbed hmem, trivial, trivial⟩
          rw [hunset] at hset'
          cases hset'
  rw [heq]
  refine ⟨hpaired, hagrees, fun op' hmem => ?_⟩
  rcases List.mem_or_eq_of_mem_set hmem with hold | rfl
  · exact hothers op' hold
  · exact hmover

theorem reach_sound {s : Sys} (h : Reach Sys.step careful (· = Sys.init) s) : Sound s := by
  refine h.invariant (fun s hs => hs ▸ init_sound) fun s a hs ha => ?_
  cases a with
  | start r => exact start_sound hs r
  | move o v => exact move_sound hs ha

/-! ## What is installed -/

/-- With distinct ids every enabled cluster of the list is in the map. -/
theorem enabledConfigs_get {clusters : List ClusterConfig} (hids : DistinctIDs clusters)
    {cfg : ClusterConfig} (hcfg : cfg ∈ clusters) (hdis : cfg.disabled = false) :
    (enabledConfigs clusters)[cfg.id]? = some cfg := by
  induction clusters using List.reverseRecOn with
  | nil => cases hcfg
  | append_singleton done last ih =>
      have hnodup : (done.map ClusterConfig.id ++ [last.id]).Nodup := by
        simpa [DistinctIDs] using hids
      obtain ⟨hdone, -, hnew⟩ := List.nodup_append.1 hnodup
      rw [enabledConfigs_concat]
      rcases List.mem_append.1 hcfg with hold | hlast
      · have hne : last.id ≠ cfg.id := fun heq =>
          hnew cfg.id (List.mem_map_of_mem hold) last.id (by simp) heq.symm
        split
        · exact ih hdone hold
        · rw [GoMap.get_insert, if_neg hne]
          exact ih hdone hold
      · rw [← List.mem_singleton.1 hlast, hdis, if_neg (by simp), GoMap.get_insert, if_pos rfl]

theorem enabledConfigs_isSome {clusters : List ClusterConfig} (hids : DistinctIDs clusters)
    (id : String) :
    (enabledConfigs clusters)[id]?.isSome = true ↔
      ∃ cfg ∈ clusters, cfg.disabled = false ∧ cfg.id = id := by
  constructor
  · intro hsome
    obtain ⟨cfg, hcfg⟩ := Option.isSome_iff_exists.1 hsome
    obtain ⟨hmem, hid, hdis⟩ := enabledConfigs_mem hcfg
    exact ⟨cfg, hmem, hdis, hid⟩
  · rintro ⟨cfg, hmem, hdis, rfl⟩
    rw [enabledConfigs_get hids hmem hdis]
    rfl

/-- The commit of an `Apply` that has not gone stale. -/
theorem commit_done {s : Sys} {o : Nat} {l : ApplyLocals} (hop : s.ops[o]? = some (.apply l))
    {pending : List (Option Client)}
    (hdone : (s.move o .commit).ops[o]? = some (.closing pending none)) :
    l.remaining = [] ∧ s.mgr.applyCommit l.generation l.desired l.reused l.created =
      some ((s.move o .commit).mgr, pending) := by
  obtain ⟨hlt, -⟩ := List.getElem?_eq_some_iff.1 hop
  rcases s.move_cases o .commit with heq | ⟨op, e, hop', he, heq⟩
  · rw [heq, hop] at hdone
    cases hdone
  · rw [hop] at hop'
    obtain rfl := Option.some.inj hop'
    rw [heq] at hdone ⊢
    have heop : e.op = .closing pending none := by
      rw [Sys.apply, List.getElem?_set_self hlt] at hdone
      exact Option.some.inj hdone
    cases Op.moves he with
    | stale hnil hnone => cases heop
    | applied hnil hcommit =>
        cases heop
        exact ⟨hnil, hcommit⟩

/-- An `Apply` that may count on what it keeps installs what it was asked for. -/
theorem applyCommit_installs {m m' : Manager} {l : ApplyLocals} {done : List ClusterConfig}
    {old : List (Option Client)} (hreuse : Reuses AsDesired m l) (hconn : Connecting l done [])
    (hids : DistinctIDs l.clusters)
    (hc : m.applyCommit l.generation l.desired l.reused l.created = some (m', old)) :
    m'.desired = enabledConfigs l.clusters ∧ Installs m' l.clusters := by
  obtain ⟨hag, -⟩ := applyCommit_agrees hreuse hconn hc
  obtain ⟨hclients, hdesired⟩ : m'.clients = m.nextClients l.desired l.created ∧
      m'.desired = enabledConfigs l.clusters := by
    obtain ⟨-, rfl, -⟩ := applyCommit_some hc
    exact ⟨rfl, hconn.desired⟩
  refine ⟨hdesired, fun id => ?_, fun cfg hmem hdis => ?_⟩
  · rw [Std.ExtTreeMap.mem_iff_isSome_getElem?, hclients, get_nextClients, Option.isSome_map,
      hconn.desired, enabledConfigs_isSome hids]
  · have hget := enabledConfigs_get hids hmem hdis
    rcases hag.agree cfg.id with ⟨hnone, -⟩ | ⟨c, hcl, -, hwant⟩
    · rw [hclients, get_nextClients, hconn.desired, hget] at hnone
      cases hnone
    · refine ⟨c, hcl, sameConnection_iff.2 ?_⟩
      rw [connections, hdesired, hget] at hwant
      exact (Option.some.inj hwant).symm

/-- In every run whose steps are careful, an `Apply` that returns no error has
installed what it was asked for. -/
theorem apply_installs {s : Sys} (h : Reach Sys.step careful (· = Sys.init) s) {o : Nat}
    {l : ApplyLocals} (hids : DistinctIDs l.clusters) (hop : s.ops[o]? = some (.apply l))
    {pending : List (Option Client)}
    (hdone : (s.move o .commit).ops[o]? = some (.closing pending none)) :
    Installs (s.move o .commit).mgr l.clusters := by
  obtain ⟨hnil, hcommit⟩ := commit_done hop hdone
  obtain ⟨⟨done, hconn⟩, hreuse⟩ := (reach_sound h).ops _ (List.mem_of_getElem? hop)
  obtain ⟨⟨done', hrem⟩, -⟩ := hconn.next
  rw [hnil] at hrem
  exact (applyCommit_installs hreuse hrem hids hcommit).2

/-- A cluster is upserted, an `Apply` of it begins, and before it commits an
`Upsert` connects the cluster to this broker. -/
def overlapped (broker : String) : List Action :=
  [.start (.upsert (plainCluster "a" "k1:9092")), .move 0 (.create (some (1, true))),
    .move 0 (.ping true), .move 0 .commit, .start (.apply [plainCluster "a" "k1:9092"]),
    .start (.upsert (plainCluster "a" broker)), .move 2 (.create (some (2, true))),
    .move 2 (.ping true), .move 2 .commit]

/-- The `Apply` of these clusters is under way. -/
def Op.applies (clusters : List ClusterConfig) : Op → Bool
  | .apply l => l.clusters == clusters
  | _ => false

/-- The operation has no error to return. -/
def Op.succeeds : Op → Bool
  | .closing _ none => true
  | _ => false

theorem applies_any {op : Option Op} {clusters : List ClusterConfig}
    (h : op.any (Op.applies clusters) = true) :
    ∃ l, op = some (.apply l) ∧ l.clusters = clusters := by
  obtain ⟨op, rfl, hop⟩ := (Option.any_eq_true _ _).1 h
  cases op with
  | apply l => exact ⟨l, rfl, by simpa [Op.applies] using hop⟩
  | applyPing l cfg client => cases hop
  | upsert generation cfg => cases hop
  | upsertPing generation cfg client => cases hop
  | upsertReady generation cfg client => cases hop
  | closing pending result => cases hop

theorem succeeds_any {op : Option Op} (h : op.any Op.succeeds = true) :
    ∃ pending, op = some (.closing pending none) := by
  obtain ⟨op, rfl, hop⟩ := (Option.any_eq_true _ _).1 h
  cases op with
  | closing pending result =>
      cases result with
      | none => exact ⟨pending, rfl⟩
      | some err => cases hop
  | apply l => cases hop
  | applyPing l cfg client => cases hop
  | upsert generation cfg => cases hop
  | upsertPing generation cfg client => cases hop
  | upsertReady generation cfg client => cases hop

/-- The same broker disturbs nothing. -/
theorem apply_installs_same :
    Installs ((run Sys.step Sys.init (overlapped "k1:9092")).move 1 .commit).mgr
      [plainCluster "a" "k1:9092"] := by
  have happlies : (run Sys.step Sys.init (overlapped "k1:9092")).ops[1]?.any
      (Op.applies [plainCluster "a" "k1:9092"]) = true := by decide +kernel
  have hsucceeds : ((run Sys.step Sys.init (overlapped "k1:9092")).move 1 .commit).ops[1]?.any
      Op.succeeds = true := by decide +kernel
  have hmeets : meets Sys.step careful Sys.init (overlapped "k1:9092") = true := by
    decide +kernel
  have hinit : Reach Sys.step careful (· = Sys.init) Sys.init := .init rfl
  obtain ⟨l, hop, hclusters⟩ := applies_any happlies
  obtain ⟨pending, hdone⟩ := succeeds_any hsucceeds
  rw [← hclusters]
  exact apply_installs (hinit.run hmeets) (by simp [hclusters, DistinctIDs]) hop hdone

/-- The client of another broker is installed by an `Apply` that succeeds. -/
theorem apply_installs_other :
    ¬ ∀ (as : List Action) (o : Nat) (l : ApplyLocals) (pending : List (Option Client)),
      DistinctIDs l.clusters → (run Sys.step Sys.init as).ops[o]? = some (.apply l) →
      ((run Sys.step Sys.init as).move o .commit).ops[o]? = some (.closing pending none) →
      Installs ((run Sys.step Sys.init as).move o .commit).mgr l.clusters := by
  intro hall
  have happlies : (run Sys.step Sys.init (overlapped "k2:9092")).ops[1]?.any
      (Op.applies [plainCluster "a" "k1:9092"]) = true := by decide +kernel
  have hsucceeds : ((run Sys.step Sys.init (overlapped "k2:9092")).move 1 .commit).ops[1]?.any
      Op.succeeds = true := by decide +kernel
  have hother : (((run Sys.step Sys.init (overlapped "k2:9092")).move 1 .commit).mgr.clients["a"]?).any
      (fun c => c.any fun c => sameConnection c.createdFrom (plainCluster "a" "k1:9092")) = false := by
    decide +kernel
  obtain ⟨l, hop, hclusters⟩ := applies_any happlies
  obtain ⟨pending, hdone⟩ := succeeds_any hsucceeds
  have hinstalls := hall _ 1 l pending (by simp [hclusters, DistinctIDs]) hop hdone
  rw [hclusters] at hinstalls
  obtain ⟨c, hc, hsame⟩ := hinstalls.clients (plainCluster "a" "k1:9092") (by simp) rfl
  rw [show (plainCluster "a" "k1:9092").id = "a" from rfl] at hc
  rw [hc, Option.any_some, Option.any_some, hsame] at hother
  cases hother

end KafkaManager.Cluster
