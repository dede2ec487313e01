import Mathlib.Data.List.Induction
import Mathlib.Data.List.TakeWhile
import KafkaManager.Cluster.Operations

/-!
# What an operation of the pool may rely on

Between its snapshot and its commit an operation owns its local variables and
nothing else. Two kinds of facts survive the time in between, and every
argument about interleavings is made of them.

`OpLocal` is about the local variables alone: how far the loop of `Apply` has
come and which clients it has made by then. No other operation can touch it.

`OpReuses` is about the shared fields, and holds because of how little the
others do while the generation stands. Two critical sections write without
moving the generation, the commit of `Upsert` and a `Retain` that removes
nothing, so it is not true that nothing happens between a snapshot and a
commit under one generation. What is true is `Evolves R`: an installed client
is at most replaced, and then by one that `R` relates to it. Which `R` holds
depends on what is known of the pool, so it is a parameter here.

What a step does is said once before that, by `Moves` for a move and by
`upsertCommit_some` and `applyCommit_some` for the two commits.
-/

namespace KafkaManager.Cluster

open Lib

/-- What a reconnect needs and a display-only change leaves alone. -/
structure Connection where
  brokers : List String
  security : SecurityConfig
deriving DecidableEq, Repr

end KafkaManager.Cluster

namespace KafkaManager

def ClusterConfig.connection (c : ClusterConfig) : Cluster.Connection := ⟨c.brokers, c.security⟩

end KafkaManager

namespace KafkaManager.Cluster

open Lib

theorem sameConnection_iff {a b : ClusterConfig} :
    sameConnection a b = true ↔ a.connection = b.connection := by
  simp [sameConnection, ClusterConfig.connection]

/-- The connection a client was created for. -/
def Client.connection (c : Client) : Connection := c.createdFrom.connection

/-- The connections of a config map, the abstract content the pool follows. -/
def connections (m : ConfigMap) (id : String) : Option Connection :=
  m[id]?.map ClusterConfig.connection

/-! ## What the helpers compute, lookup by lookup -/

theorem enabledConfigs_concat (done : List ClusterConfig) (cfg : ClusterConfig) :
    enabledConfigs (done ++ [cfg]) =
      if cfg.disabled then enabledConfigs done else (enabledConfigs done).insert cfg.id cfg := by
  simp [enabledConfigs]

/-- What is found in the enabled set is an enabled cluster of the list. -/
theorem enabledConfigs_mem {clusters : List ClusterConfig} {id : String} {cfg : ClusterConfig}
    (h : (enabledConfigs clusters)[id]? = some cfg) :
    cfg ∈ clusters ∧ cfg.id = id ∧ cfg.disabled = false := by
  induction clusters using List.reverseRecOn with
  | nil => simp [enabledConfigs] at h
  | append_singleton done last ih =>
      rw [enabledConfigs_concat] at h
      split at h
      · obtain ⟨hmem, hrest⟩ := ih h
        exact ⟨List.mem_append_left _ hmem, hrest⟩
      · next hdis =>
          rw [GoMap.get_insert] at h
          split at h
          · next hid =>
              obtain rfl := Option.some.inj h
              exact ⟨by simp, hid, by simpa using hdis⟩
          · obtain ⟨hmem, hrest⟩ := ih h
            exact ⟨List.mem_append_left _ hmem, hrest⟩

theorem flag_reused {m : Manager} {desired : ConfigMap} {id : String}
    (h : flag (m.reused desired) id = true) :
    m.clients[id]?.isSome ∧ ∃ cfg, desired[id]? = some cfg
      ∧ connections m.configs id = some cfg.connection := by
  unfold flag Manager.reused at h
  rw [GoMap.get_map] at h
  cases hd : desired[id]? with
  | none => simp [hd] at h
  | some cfg =>
      cases hc : m.configs[id]? with
      | none => simp [hd, hc] at h
      | some active =>
          simp only [hd, hc, Option.map_some, Option.getD_some, Bool.and_eq_true] at h
          refine ⟨?_, cfg, rfl, ?_⟩
          · rw [← Std.ExtTreeMap.mem_iff_isSome_getElem?]
            exact h.1
          · rw [connections, hc, ← sameConnection_iff.1 h.2]
            rfl

theorem get_nextClients (m : Manager) (desired : ConfigMap) (created : GoMap String Client)
    (id : String) :
    (m.nextClients desired created)[id]? =
      desired[id]?.map fun _ =>
        match created[id]? with
        | some client => some client
        | none => ClientMap.value m.clients id := by
  exact GoMap.get_map ..

/-! ## What the critical sections write -/

theorem upsertCommit_some {m m' : Manager} {generation : Nat} {cfg : ClusterConfig}
    {client : Client} {old : Option Client}
    (hc : m.upsertCommit generation cfg client = some (m', old)) :
    generation = m.generation ∧ m.desiredAllowsLocked cfg = true ∧
      m' = { m with clients := m.clients.insert cfg.id (some client)
                    maps := m.maps.setConfig cfg.id cfg } ∧
      old = ClientMap.value m.clients cfg.id := by
  unfold Manager.upsertCommit at hc
  split at hc
  · cases hc
  · next hfresh =>
      obtain ⟨rfl, rfl⟩ := Prod.mk.inj (Option.some.inj hc)
      simp only [ne_eq, Bool.not_eq_true', not_or, not_not, Bool.not_eq_false] at hfresh
      exact ⟨hfresh.1, hfresh.2, rfl, rfl⟩

theorem applyCommit_some {m m' : Manager} {generation : Nat} {desired : ConfigMap}
    {reused : GoMap String Bool} {created : GoMap String Client} {old : List (Option Client)}
    (hc : m.applyCommit generation desired reused created = some (m', old)) :
    generation = m.generation ∧
      m' = { clients := m.nextClients desired created
             maps := .shared desired
             desiredSet := true
             generation := m.generation + 1 } ∧
      old = GoMap.vals (m.clients.filter fun id _ => !flag reused id) := by
  unfold Manager.applyCommit at hc
  split at hc
  · cases hc
  · next hgen =>
      obtain ⟨rfl, rfl⟩ := Prod.mk.inj (Option.some.inj hc)
      exact ⟨not_not.1 hgen, rfl, rfl⟩

/-! ## What a move does -/

/-- The moves of an operation, each with what it changes. -/
inductive Moves (m : Manager) : Op → Move → Effect → Prop
  | uncreated {l cfg rest} (hrem : l.remaining = cfg :: rest) :
      Moves m (.apply l) (.create none)
        { mgr := m, op := .closing (closeCreated l.created) (some (.connect cfg.id)) }
  | created {l cfg rest} (hrem : l.remaining = cfg :: rest) (serial : Nat) (isKafka : Bool) :
      Moves m (.apply l) (.create (some (serial, isKafka)))
        { mgr := m
          op := .applyPing { l with todo := rest } cfg ⟨serial, cfg, isKafka⟩
          created := [⟨serial, cfg, isKafka⟩] }
  | answered {l cfg client} :
      Moves m (.applyPing l cfg client) (.ping true)
        { mgr := m, op := .apply { l with created := l.created.insert cfg.id client } }
  | unanswered {l cfg client} :
      Moves m (.applyPing l cfg client) (.ping false)
        { mgr := m
          op := .closing (some client :: closeCreated l.created) (some (.ping cfg.id)) }
  | stale {l} (hnil : l.remaining = [])
      (hcommit : m.applyCommit l.generation l.desired l.reused l.created = none) :
      Moves m (.apply l) .commit
        { mgr := m, op := .closing (closeCreated l.created) (some .stale) }
  | applied {l m' old} (hnil : l.remaining = [])
      (hcommit : m.applyCommit l.generation l.desired l.reused l.created = some (m', old)) :
      Moves m (.apply l) .commit { mgr := m', op := .closing old none }
  | upsertUncreated {generation cfg} :
      Moves m (.upsert generation cfg) (.create none)
        { mgr := m, op := .closing [] (some (.connect cfg.id)) }
  | upsertCreated {generation cfg} (serial : Nat) (isKafka : Bool) :
      Moves m (.upsert generation cfg) (.create (some (serial, isKafka)))
        { mgr := m
          op := .upsertPing generation cfg ⟨serial, cfg, isKafka⟩
          created := [⟨serial, cfg, isKafka⟩] }
  | upsertAnswered {generation cfg client} :
      Moves m (.upsertPing generation cfg client) (.ping true)
        { mgr := m, op := .upsertReady generation cfg client }
  | upsertUnanswered {generation cfg client} :
      Moves m (.upsertPing generation cfg client) (.ping false)
        { mgr := m, op := .closing [some client] (some (.ping cfg.id)) }
  | upsertStale {generation cfg client} (hcommit : m.upsertCommit generation cfg client = none) :
      Moves m (.upsertReady generation cfg client) .commit
        { mgr := m, op := .closing [some client] (some (.connectStale cfg.id)) }
  | upserted {generation cfg client m' old}
      (hcommit : m.upsertCommit generation cfg client = some (m', old)) :
      Moves m (.upsertReady generation cfg client) .commit
        { mgr := m', op := .closing (old.toList.map some) none }
  | closed {client pending result} :
      Moves m (.closing (some client :: pending) result) .close
        { mgr := m, op := .closing pending result, closed := [client] }

theorem Op.moves {m : Manager} {op : Op} {v : Move} {e : Effect} (he : op.move m v = some e) :
    Moves m op v e := by
  unfold Op.move at he
  split at he
  · -- Apply, create
    split at he
    · cases he
    · next hrem =>
        split at he
        · obtain rfl := Option.some.inj he
          exact .uncreated hrem
        · obtain rfl := Option.some.inj he
          exact .created hrem _ _
  · -- Apply, ping
    next answered =>
    cases answered with
    | true => obtain rfl := Option.some.inj he; exact .answered
    | false => obtain rfl := Option.some.inj he; exact .unanswered
  · -- Apply, commit
    split at he
    · cases he
    · next hnil =>
        split at he
        · next hcommit =>
            obtain rfl := Option.some.inj he
            exact .stale hnil hcommit
        · next hcommit =>
            obtain rfl := Option.some.inj he
            exact .applied hnil hcommit
  · -- Upsert, create
    split at he
    · obtain rfl := Option.some.inj he
      exact .upsertUncreated
    · obtain rfl := Option.some.inj he
      exact .upsertCreated _ _
  · -- Upsert, ping
    next answered =>
    cases answered with
    | true => obtain rfl := Option.some.inj he; exact .upsertAnswered
    | false => obtain rfl := Option.some.inj he; exact .upsertUnanswered
  · -- Upsert, commit
    split at he
    · next hcommit =>
        obtain rfl := Option.some.inj he
        exact .upsertStale hcommit
    · next hcommit =>
        obtain rfl := Option.some.inj he
        exact .upserted hcommit
    · next hcommit =>
        obtain rfl := Option.some.inj he
        exact .upserted hcommit
  · -- a client closed
    obtain rfl := Option.some.inj he
    exact .closed
  · cases he

/-! ## The local variables of `Apply` -/

/-- What the loop of `Apply` has done when it has looked at `done` and `todo`
is left: outside the reused ids, the clients created are those the enabled
clusters of `done` ask for, the last one of an id if an id repeats. -/
structure Connecting (l : ApplyLocals) (done todo : List ClusterConfig) : Prop where
  clusters : l.clusters = done ++ todo
  desired : l.desired = enabledConfigs l.clusters
  created : ∀ id : String, flag l.reused id = false →
    l.created[id]?.map Client.createdFrom = (enabledConfigs done)[id]?
  reused : ∀ id : String, flag l.reused id = true →
    l.created[id]? = none ∧ l.desired[id]?.isSome = true

theorem Connecting.pass {l : ApplyLocals} {passed todo : List ClusterConfig} :
    ∀ {done : List ClusterConfig}, Connecting l done (passed ++ todo) →
      (∀ cfg ∈ passed, (cfg.disabled || flag l.reused cfg.id) = true) →
      Connecting l (done ++ passed) todo := by
  induction passed with
  | nil =>
      intro done h _
      simpa using h
  | cons cfg rest ih =>
      intro done h hpass
      have hcfg := hpass cfg (by simp)
      have hstep : Connecting l (done ++ [cfg]) (rest ++ todo) := by
        refine ⟨by simpa using h.clusters, h.desired, fun id hid => ?_, h.reused⟩
        rw [h.created id hid, enabledConfigs_concat]
        split
        · rfl
        · next hdis =>
            have hreuse : flag l.reused cfg.id = true := by simpa [hdis] using hcfg
            rw [GoMap.get_insert, if_neg]
            rintro rfl
            rw [hreuse] at hid
            exact absurd hid (by simp)
      have hrest := ih hstep fun d hd => hpass d (by simp [hd])
      simpa using hrest

theorem Connecting.connect {l : ApplyLocals} {done todo : List ClusterConfig}
    {cfg : ClusterConfig} {client : Client} (h : Connecting l done (cfg :: todo))
    (hdis : cfg.disabled = false) (hreuse : flag l.reused cfg.id = false)
    (hfrom : client.createdFrom = cfg) :
    Connecting { l with created := l.created.insert cfg.id client } (done ++ [cfg]) todo := by
  refine ⟨by simpa using h.clusters, h.desired, fun id hid => ?_, fun id hid => ?_⟩
  · show (l.created.insert cfg.id client)[id]?.map _ = _
    rw [enabledConfigs_concat, if_neg (by simp [hdis]), GoMap.get_insert, GoMap.get_insert]
    split
    · rw [Option.map_some, hfrom]
    · exact h.created id hid
  · obtain ⟨hnone, hsome⟩ := h.reused id hid
    refine ⟨?_, hsome⟩
    show (l.created.insert cfg.id client)[id]? = none
    rw [GoMap.get_insert, if_neg]
    · exact hnone
    · rintro rfl
      rw [show flag l.reused cfg.id = true from hid] at hreuse
      exact absurd hreuse (by simp)

/-- The loop's next cluster is one to connect, and what it passed over on the
way is accounted for. -/
theorem Connecting.next {l : ApplyLocals} {done : List ClusterConfig}
    (h : Connecting l done l.todo) :
    (∃ done', Connecting l done' l.remaining) ∧
      ∀ cfg rest, l.remaining = cfg :: rest →
        cfg.disabled = false ∧ flag l.reused cfg.id = false := by
  constructor
  · have hsplit : Connecting l done (l.todo.takeWhile (fun cfg =>
        cfg.disabled || flag l.reused cfg.id) ++ l.remaining) := by
      rw [ApplyLocals.remaining, List.takeWhile_append_dropWhile]
      exact h
    refine ⟨_, hsplit.pass fun cfg hcfg => ?_⟩
    have hp := List.mem_takeWhile_imp hcfg
    exact hp
  · intro cfg rest hrem
    have hhead := List.head?_dropWhile_not (fun cfg : ClusterConfig =>
      cfg.disabled || flag l.reused cfg.id) l.todo
    rw [ApplyLocals.remaining] at hrem
    rw [hrem] at hhead
    simpa using hhead

/-- The local variables of an operation are what its code makes of them. -/
def OpLocal : Op → Prop
  | .apply l => ∃ done, Connecting l done l.todo
  | .applyPing l cfg client =>
      client.createdFrom = cfg ∧ cfg.disabled = false ∧ flag l.reused cfg.id = false
        ∧ ∃ done, Connecting l done (cfg :: l.todo)
  | .upsertPing _ cfg client | .upsertReady _ cfg client => client.createdFrom = cfg
  | .upsert .. | .closing .. => True

/-- An `Upsert` starts by reading. -/
theorem begin_upsert (m : Manager) (cfg : ClusterConfig) :
    m.begin (.upsert cfg) = (m, .upsert m.generation cfg) ∨
      m.begin (.upsert cfg) = (m, .closing [] (some (.connectStale cfg.id))) := by
  cases hallow : m.desiredAllowsLocked cfg with
  | true => exact .inl (if_pos hallow)
  | false => exact .inr (if_neg (by simp [hallow]))

theorem begin_upsert_mgr (m : Manager) (cfg : ClusterConfig) :
    (m.begin (.upsert cfg)).1 = m := by
  rcases begin_upsert m cfg with h | h <;> rw [h]

theorem begin_local (m : Manager) (r : Request) : OpLocal (m.begin r).2 := by
  cases r with
  | apply clusters =>
      refine ⟨[], rfl, rfl, fun id _ => ?_, fun id hid => ⟨?_, ?_⟩⟩
      · simp [enabledConfigs]
      · simp
      · obtain ⟨-, cfg, hcfg, -⟩ := flag_reused hid
        show (enabledConfigs clusters)[id]?.isSome = true
        rw [hcfg]
        rfl
  | upsert cfg =>
      rcases begin_upsert m cfg with h | h
      · rw [h]
        trivial
      · rw [h]
        trivial
  | setDesired clusters => trivial
  | retain active => trivial
  | close => trivial

theorem move_local {m : Manager} {op : Op} (h : OpLocal op) {v : Move} {e : Effect}
    (he : op.move m v = some e) : OpLocal e.op := by
  cases Op.moves he with
  | created hrem serial isKafka =>
      obtain ⟨done, hconn⟩ := h
      obtain ⟨⟨done', hnext'⟩, hnext⟩ := hconn.next
      obtain ⟨hdis, hre⟩ := hnext _ _ hrem
      rw [hrem] at hnext'
      exact ⟨rfl, hdis, hre, done', hnext'.clusters, hnext'.desired, hnext'.created, hnext'.reused⟩
  | answered =>
      obtain ⟨hfrom, hdis, hre, done, hconn⟩ := h
      exact ⟨_, hconn.connect hdis hre hfrom⟩
  | upsertCreated serial isKafka => rfl
  | upsertAnswered => exact h
  | uncreated | unanswered | stale | applied => trivial
  | upsertUncreated | upsertUnanswered | upsertStale | upserted | closed => trivial

/-! ## The shared fields while the generation stands -/

section

variable {R : Client → Client → Prop} {P : ConfigMap → String → Client → Prop}

/-- The move of the shared fields that every operation may count on others to
make. -/
def Evolves (R : Client → Client → Prop) (m m' : Manager) : Prop :=
  m.generation ≤ m'.generation ∧
    (m'.generation = m.generation → ∀ (id : String) (c : Client), m.clients[id]? = some (some c) →
      ∃ c', m'.clients[id]? = some (some c') ∧ R c c')

theorem Evolves.refl (hR : ∀ c, R c c) (m : Manager) : Evolves R m m :=
  ⟨Nat.le_refl _, fun _ _ c hc => ⟨c, hc, hR c⟩⟩

theorem Evolves.of_lt {m m' : Manager} (h : m.generation < m'.generation) : Evolves R m m' :=
  ⟨Nat.le_of_lt h, fun he => absurd he (by omega)⟩

theorem get_retain (m : Manager) (active : List String) (id : String) :
    (m.retain active).1.clients[id]? = if active.contains id then m.clients[id]? else none :=
  GoMap.get_filter_key ..

/-- A `Retain` under an unchanged generation has removed nothing. -/
theorem retain_evolves (hR : ∀ c, R c c) (m : Manager) (active : List String) :
    Evolves R m (m.retain active).1 := by
  by_cases hsize : (m.clients.filter fun i _ => !active.contains i).size > 0
  · refine Evolves.of_lt ?_
    show m.generation < if _ then _ else _
    rw [if_pos hsize]
    exact Nat.lt_succ_self _
  · refine ⟨?_, fun _ id c hc => ⟨c, ?_, hR c⟩⟩
    · show m.generation ≤ if _ then _ else _
      rw [if_neg hsize]
    · rw [get_retain]
      have hempty : (m.clients.filter fun i _ => !active.contains i) = ∅ :=
        Std.ExtTreeMap.eq_empty_iff_size_eq_zero.2 (by omega)
      have hid : (m.clients.filter fun i _ => !active.contains i)[id]? = none := by
        rw [hempty]
        simp
      rw [GoMap.get_filter_key, hc] at hid
      cases hact : active.contains id with
      | false =>
          rw [hact] at hid
          exact absurd hid (by simp)
      | true => simpa using hc

/-- The reuse decision of `Apply` still stands: if the generation is that of
the snapshot, every reused id has a client, and one that `P` allows. -/
def Reuses (P : ConfigMap → String → Client → Prop) (m : Manager) (l : ApplyLocals) : Prop :=
  l.generation ≤ m.generation ∧
    (l.generation = m.generation → ∀ id, flag l.reused id = true →
      ∃ c, m.clients[id]? = some (some c) ∧ P l.desired id c)

theorem Reuses.mono (hP : ∀ desired id c c', R c c' → P desired id c → P desired id c')
    {m m' : Manager} {l : ApplyLocals} (h : Reuses P m l) (hev : Evolves R m m') :
    Reuses P m' l := by
  refine ⟨Nat.le_trans h.1 hev.1, fun hgen id hid => ?_⟩
  have hle := h.1
  have hge := hev.1
  obtain ⟨c, hc, hp⟩ := h.2 (by omega) id hid
  obtain ⟨c', hc', hr⟩ := hev.2 (by omega) id c hc
  exact ⟨c', hc', hP _ _ _ _ hr hp⟩

/-- What an operation knows of the shared fields. -/
def OpReuses (P : ConfigMap → String → Client → Prop) (m : Manager) : Op → Prop
  | .apply l | .applyPing l _ _ => Reuses P m l
  | .upsert generation _ | .upsertPing generation _ _ | .upsertReady generation _ _ =>
      generation ≤ m.generation
  | .closing .. => True

/-- What others do to the shared fields leaves it true. -/
theorem OpReuses.mono (hP : ∀ desired id c c', R c c' → P desired id c → P desired id c')
    {m m' : Manager} {op : Op} (h : OpReuses P m op) (hev : Evolves R m m') :
    OpReuses P m' op := by
  cases op with
  | apply l => exact Reuses.mono hP h hev
  | applyPing l cfg client => exact Reuses.mono hP h hev
  | upsert generation cfg => exact Nat.le_trans h hev.1
  | upsertPing generation cfg client => exact Nat.le_trans h hev.1
  | upsertReady generation cfg client => exact Nat.le_trans h hev.1
  | closing pending result => trivial

theorem begin_reuses {m : Manager}
    (hP : ∀ desired id, flag (m.reused desired) id = true →
      ∃ c, m.clients[id]? = some (some c) ∧ P desired id c)
    (r : Request) : OpReuses P m (m.begin r).2 := by
  cases r with
  | apply clusters => exact ⟨Nat.le_refl _, fun _ id hid => hP _ id hid⟩
  | upsert cfg =>
      rcases begin_upsert m cfg with h | h
      · rw [h]
        exact Nat.le_refl _
      · rw [h]
        trivial
  | setDesired clusters => trivial
  | retain active => trivial
  | close => trivial

/-- An operation's own move changes nothing that its knowledge is about. -/
theorem move_reuses {m : Manager} {op : Op} (h : OpReuses P m op) {v : Move} {e : Effect}
    (he : op.move m v = some e) : OpReuses P m e.op := by
  cases Op.moves he with
  | created | answered | upsertCreated | upsertAnswered => exact h
  | uncreated | unanswered | stale | applied => trivial
  | upsertUncreated | upsertUnanswered | upsertStale | upserted | closed => trivial

end

/-- The manager's fields change in the two commits only. -/
theorem move_mgr {m : Manager} {op : Op} {v : Move} {e : Effect} (he : op.move m v = some e) :
    e.mgr = m ∨
      (∃ l old, op = .apply l ∧ l.remaining = [] ∧
        m.applyCommit l.generation l.desired l.reused l.created = some (e.mgr, old) ∧
        e.op = .closing old none) ∨
      ∃ generation cfg client old pending, op = .upsertReady generation cfg client ∧
        m.upsertCommit generation cfg client = some (e.mgr, old) ∧ e.op = .closing pending none := by
  cases Op.moves he with
  | applied hnil hcommit => exact .inr (.inl ⟨_, _, rfl, hnil, hcommit, rfl⟩)
  | upserted hcommit => exact .inr (.inr ⟨_, _, _, _, _, rfl, hcommit, rfl⟩)
  | uncreated | created | answered | unanswered | stale => exact .inl rfl
  | upsertUncreated | upsertCreated | upsertAnswered | upsertUnanswered | upsertStale =>
      exact .inl rfl
  | closed => exact .inl rfl

end KafkaManager.Cluster
