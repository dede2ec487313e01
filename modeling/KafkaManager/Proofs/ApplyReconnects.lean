import KafkaManager.Proofs.ApplyInstalls
import KafkaManager.Proofs.Ownership

/-!
# An `Apply` with nothing beside it

Operations that begin when all others have returned. Such a run is careful, so
the pool is `Sound` in all its states, and from there an `Apply` can be followed
move by move: `Stage` says what it has done when it is at a given point, and
`stage_move` that every move of it leads from a stage to a stage.

The partition of the ids is decided once, in the snapshot. The loop connects
the clusters that are `needed`, the commit keeps the clients under the ids that
are `kept`, and the closing loop closes the others.
-/

namespace KafkaManager.Cluster

open Lib

/-- The operation has returned. -/
def Op.completed : Op → Bool
  | .closing [] _ => true
  | _ => false

/-- A call begins when all others have returned. -/
def alone (s : Sys) : Action → Bool
  | .start _ => s.ops.all Op.completed
  | .move .. => true

/-- The client installed for this cluster was created for the same connection. -/
def Manager.connected (m : Manager) (cfg : ClusterConfig) : Bool :=
  match m.clients[cfg.id]? with
  | some (some client) => sameConnection client.createdFrom cfg
  | _ => false

/-- The cluster is enabled and has no client, or one of another connection. -/
def Manager.needed (m : Manager) (cfg : ClusterConfig) : Bool := !cfg.disabled && !m.connected cfg

/-- The client under this id is the one an enabled cluster asks for. -/
def Manager.kept (m : Manager) (clusters : List ClusterConfig) (id : String) : Bool :=
  clusters.any fun cfg => cfg.id == id && (!cfg.disabled && m.connected cfg)

/-- What an `Apply` of these clusters, begun in `s` and returned in `t`, has
done. -/
structure Reconnects (s t : Sys) (clusters : List ClusterConfig) : Prop where
  /-- The calls of the factory: one for each cluster needed, in their order. -/
  created : ∃ made : List Client, t.created = s.created ++ made.map (fun c => (s.ops.length, c)) ∧
    made.map Client.createdFrom = clusters.filter s.mgr.needed
  installs : Installs t.mgr clusters
  kept : ∀ cfg ∈ clusters, cfg.disabled = false → s.mgr.connected cfg = true →
    t.mgr.get cfg.id = s.mgr.get cfg.id
  /-- The clients closed: those that were installed and are not kept. -/
  closed : ∃ gone : List Client, t.closed = s.closed ++ gone ∧
    (gone.map some).Perm (GoMap.vals (s.mgr.clients.filter fun id _ => !s.mgr.kept clusters id))
  /-- If no two clients of the factory are one, the installed ones are open. -/
  isOpen : (t.created.map fun p => p.2.serial).Nodup → ∀ (id : String) (c : Client),
    t.mgr.get id = some (some c) → c.serial ∉ t.closed.map Client.serial
  isMatched : t.mgr.matchesClusters clusters = true

/-- The same clusters, but for their names, their read-only flags and their
order. -/
def SameConnections (clusters others : List ClusterConfig) : Prop :=
  (others.map fun cfg => (cfg.id, cfg.enabled, cfg.connection)).Perm
    (clusters.map fun cfg => (cfg.id, cfg.enabled, cfg.connection))

/-! ## Runs without overlap -/

/-- All operations but the last have returned. -/
def Sequential (s : Sys) : Prop :=
  ∀ (o : Nat) (op : Op), s.ops[o]? = some op → o + 1 < s.ops.length → op.completed = true

theorem eq_of_completed {op : Op} (h : op.completed = true) : ∃ result, op = .closing [] result := by
  cases op with
  | closing pending result =>
      cases pending with
      | nil => exact ⟨result, rfl⟩
      | cons client pending => cases h
  | apply l => cases h
  | applyPing l cfg client => cases h
  | upsert generation cfg => cases h
  | upsertPing generation cfg client => cases h
  | upsertReady generation cfg client => cases h

theorem completed_move {m : Manager} {op : Op} (h : op.completed = true) (v : Move) :
    op.move m v = none := by
  obtain ⟨result, rfl⟩ := eq_of_completed h
  cases v <;> rfl

theorem completed_undisturbed {m : Manager} {cfg : ClusterConfig} {op : Op}
    (h : op.completed = true) : op.disturbedBy m cfg = false := by
  obtain ⟨result, rfl⟩ := eq_of_completed h
  rfl

theorem sequential_step {s : Sys} (h : Sequential s) {a : Action} (ha : alone s a = true) :
    Sequential (s.step a) := by
  cases a with
  | start r =>
      intro o op hop hlt
      have hlen : (s.start r).ops.length = s.ops.length + 1 := by simp [Sys.start]
      have hold : s.ops[o]? = some op := by
        rw [← hop]
        exact (List.getElem?_append_left (by rw [Sys.step, hlen] at hlt; omega)).symm
      exact List.all_eq_true.1 ha op (List.mem_of_getElem? hold)
  | move o v =>
      intro o' op hop hlt
      rcases s.move_cases o v with heq | ⟨op', e, hop', he, heq⟩
      · rw [Sys.step, heq] at hop hlt
        exact h o' op hop hlt
      · rw [Sys.step, heq, Sys.apply] at hop hlt
        rw [List.length_set] at hlt
        -- the operation that moved has not returned, so it is the last
        have hlast : s.ops.length ≤ o + 1 := by
          by_contra hlt'
          rw [completed_move (h o op' hop' (by omega)) v] at he
          cases he
        rw [List.getElem?_set_ne (by omega)] at hop
        exact h o' op hop hlt

/-- Without overlap no `Apply` is disturbed. -/
theorem careful_of_alone {s : Sys} (h : Sequential s) (a : Action) : careful s a = true := by
  cases a with
  | start r => rfl
  | move o v =>
      cases v with
      | create outcome => rfl
      | ping answered => rfl
      | close => rfl
      | commit =>
          cases hop : s.ops[o]? with
          | none => simp [careful, hop]
          | some op =>
              cases op with
              | apply l => simp [careful, hop]
              | applyPing l cfg client => simp [careful, hop]
              | upsert generation cfg => simp [careful, hop]
              | upsertPing generation cfg client => simp [careful, hop]
              | closing pending result => simp [careful, hop]
              | upsertReady generation cfg client =>
                  have hall : s.ops.all (fun op => !op.disturbedBy s.mgr cfg) = true := by
                    rw [List.all_eq_true]
                    intro op hmem
                    obtain ⟨o', ho'⟩ := List.getElem?_of_mem hmem
                    obtain ⟨hlt, -⟩ := List.getElem?_eq_some_iff.1 hop
                    obtain ⟨hlt', -⟩ := List.getElem?_eq_some_iff.1 ho'
                    rw [Bool.not_eq_true']
                    by_cases hsame : o' = o
                    · rw [hsame, hop] at ho'
                      obtain rfl := Option.some.inj ho'
                      rfl
                    · by_cases hlast : o + 1 < s.ops.length
                      · cases h o _ hop hlast
                      · exact completed_undisturbed (h o' op ho' (by omega))
                  simp [careful, hop, hall]

theorem reach_alone {s : Sys} (h : Reach Sys.step alone (· = Sys.init) s) :
    Reach Sys.step careful (· = Sys.init) s ∧ Sequential s := by
  refine h.invariant (I := fun s => Reach Sys.step careful (· = Sys.init) s ∧ Sequential s)
    (fun s hs => ⟨.init hs, fun o op hop => ?_⟩) fun s a hs ha => ?_
  · rw [hs] at hop
    cases hop
  · exact ⟨hs.1.step (careful_of_alone hs.2 a), sequential_step hs.2 ha⟩

/-! ## Installed clients are open -/

/-- A client the factory returned is in one place, unless it was overwritten. -/
def Located (s : Sys) : Prop :=
  ∃ leaked, (s.mgr.installed ++ (s.ops.flatMap Op.owned ++ (s.closed ++ leaked))).Perm
    (s.created.map Prod.snd)

/-- To count on some client is less than to count on one of the connection. -/
theorem OpReuses.any {m : Manager} {op : Op} (h : OpReuses AsDesired m op) :
    OpReuses (fun _ _ _ => True) m op := by
  have hany : ∀ l, Reuses AsDesired m l → Reuses (fun _ _ _ => True) m l := by
    intro l hl
    refine ⟨hl.1, fun hgen id hid => ?_⟩
    obtain ⟨c, hc, -⟩ := hl.2 hgen id hid
    exact ⟨c, hc, trivial⟩
  cases op with
  | apply l => exact hany l h
  | applyPing l cfg client => exact hany l h
  | upsert generation cfg => exact h
  | upsertPing generation cfg client => exact h
  | upsertReady generation cfg client => exact h
  | closing pending result => trivial

theorem start_located {s : Sys} (h : Located s) (r : Request) : Located (s.start r) := by
  obtain ⟨leaked, hplaced⟩ := h
  exact ⟨leaked, start_placed hplaced r⟩

theorem move_located {s : Sys} (hsound : Sound s) (h : Located s) (o : Nat) (v : Move) :
    Located (s.move o v) := by
  rcases s.move_cases o v with heq | ⟨op, e, hop, he, heq⟩
  · rw [heq]
    exact h
  · rw [heq]
    obtain ⟨hlocal, hreuses⟩ := hsound.ops op (List.mem_of_getElem? hop)
    obtain ⟨leaked, hplaced⟩ := h
    obtain ⟨more, hmove, -⟩ := move_places hlocal hreuses.any he
    exact ⟨leaked ++ more, apply_placed hplaced hop hmove⟩

theorem reach_located {s : Sys} (h : Reach Sys.step careful (· = Sys.init) s) : Located s := by
  have hboth : Sound s ∧ Located s := by
    refine h.invariant (I := fun s => Sound s ∧ Located s) (fun s hs => ?_) fun s a hs ha => ?_
    · rw [hs]
      exact ⟨init_sound, [], by simp [Sys.init, newManager, Manager.installed]⟩
    · cases a with
      | start r => exact ⟨start_sound hs.1 r, start_located hs.2 r⟩
      | move o v => exact ⟨move_sound hs.1 ha, move_located hs.1 hs.2 o v⟩
  exact hboth.2

/-- If no two clients of the factory are one, what is installed is not closed. -/
theorem Located.isOpen {s : Sys} (h : Located s)
    (hfresh : (s.created.map fun p => p.2.serial).Nodup) {id : String} {c : Client}
    (hc : s.mgr.clients[id]? = some (some c)) : c.serial ∉ s.closed.map Client.serial := by
  obtain ⟨leaked, hplaced⟩ := h
  have hserials : ((s.created.map Prod.snd).map Client.serial).Nodup := by
    rw [List.map_map]
    exact hfresh
  have hnodup := (hplaced.map Client.serial).nodup_iff.2 hserials
  rw [List.map_append] at hnodup
  intro hclosed
  have hinst : c ∈ s.mgr.installed :=
    List.mem_filterMap.2 ⟨some c, (GoMap.mem_vals _ _).2 ⟨id, hc⟩, rfl⟩
  refine (List.nodup_append.1 hnodup).2.2 c.serial (List.mem_map_of_mem hinst) c.serial ?_ rfl
  rw [List.map_append, List.map_append]
  exact List.mem_append_right _ (List.mem_append_left _ hclosed)

/-! ## The snapshot decides -/

variable {m : Manager} {clusters : List ClusterConfig}

/-- What is recorded under an id is what the client there was created for. -/
theorem connected_iff (h : ∀ id, Paired m id) (cfg : ClusterConfig) :
    m.connected cfg = true ↔
      m.clients[cfg.id]?.isSome = true ∧ connections m.configs cfg.id = some cfg.connection := by
  unfold Manager.connected
  rcases h cfg.id with ⟨hc, hconf⟩ | ⟨c, hc, hconf⟩
  · simp [hc]
  · rw [hc, hconf]
    simp only [Option.isSome_some, true_and, Option.some.injEq]
    exact sameConnection_iff

theorem flag_reused_iff (h : ∀ id, Paired m id) (hids : DistinctIDs clusters)
    {cfg : ClusterConfig} (hcfg : cfg ∈ clusters) (hdis : cfg.disabled = false) :
    flag (m.reused (enabledConfigs clusters)) cfg.id = m.connected cfg := by
  rw [Bool.eq_iff_iff, connected_iff h]
  have hget := enabledConfigs_get hids hcfg hdis
  constructor
  · intro hflag
    obtain ⟨hsome, cfg', hcfg', hconn⟩ := flag_reused hflag
    rw [hget] at hcfg'
    obtain rfl := Option.some.inj hcfg'
    exact ⟨hsome, hconn⟩
  · rintro ⟨hsome, hconn⟩
    obtain ⟨active, hactive, hsame⟩ := mem_of_connections hconn
    have hcontains : m.clients.contains cfg.id = true := by
      rw [← Std.ExtTreeMap.isSome_getElem?_eq_contains, hsome]
    simp [flag, Manager.reused, hget, hactive, hcontains, sameConnection_iff.2 hsame]

/-- The loop passes over exactly the clusters that are not needed. -/
theorem needed_eq (h : ∀ id, Paired m id) (hids : DistinctIDs clusters)
    {cfg : ClusterConfig} (hcfg : cfg ∈ clusters) :
    m.needed cfg = !(cfg.disabled || flag (m.reused (enabledConfigs clusters)) cfg.id) := by
  unfold Manager.needed
  cases hdis : cfg.disabled with
  | true => rfl
  | false => rw [flag_reused_iff h hids hcfg hdis]; rfl

/-- The ids whose clients are reused are those whose clients are kept. -/
theorem kept_eq (h : ∀ id, Paired m id) (hids : DistinctIDs clusters) (id : String) :
    flag (m.reused (enabledConfigs clusters)) id = m.kept clusters id := by
  rw [Bool.eq_iff_iff, Manager.kept, List.any_eq_true]
  constructor
  · intro hflag
    obtain ⟨-, cfg, hcfg, -⟩ := flag_reused hflag
    obtain ⟨hmem, rfl, hdis⟩ := enabledConfigs_mem hcfg
    rw [flag_reused_iff h hids hmem hdis] at hflag
    exact ⟨cfg, hmem, by simp [hdis, hflag]⟩
  · rintro ⟨cfg, hmem, hcfg⟩
    simp only [Bool.and_eq_true, beq_iff_eq, Bool.not_eq_true'] at hcfg
    obtain ⟨rfl, hdis, hconn⟩ := hcfg
    rw [flag_reused_iff h hids hmem hdis, hconn]

/-! ## One call, move by move -/

/-- The snapshot of an `Apply` begun in `s`, and the clients it has made. -/
structure Looped (s : Sys) (clusters : List ClusterConfig) (made : List Client) (l : ApplyLocals) :
    Prop where
  generation : l.generation = s.mgr.generation
  reused : l.reused = s.mgr.reused (enabledConfigs clusters)
  asked : l.clusters = clusters
  /-- What is made and what is still to be made. -/
  needed : made.map Client.createdFrom ++
    l.todo.filter (fun cfg => !(cfg.disabled || flag l.reused cfg.id)) =
      clusters.filter s.mgr.needed

/-- The shared fields after the commit of an `Apply` begun in `s`. -/
structure Committed (s : Sys) (clusters : List ClusterConfig) (made : List Client) (m : Manager) :
    Prop where
  made : made.map Client.createdFrom = clusters.filter s.mgr.needed
  desired : m.desired = enabledConfigs clusters
  set : m.desiredSet = true
  installs : Installs m clusters
  kept : ∀ id, s.mgr.kept clusters id = true → m.clients[id]? = s.mgr.clients[id]?

/-- What the `Apply` has made and closed, and what is left, when it is here. -/
def Stage (s : Sys) (clusters : List ClusterConfig) (m : Manager) (made gone : List Client) :
    Op → Prop
  | .apply l => m = s.mgr ∧ gone = [] ∧ Looped s clusters made l
  | .applyPing l _ _ =>
      m = s.mgr ∧ gone = [] ∧ Looped s clusters made l ∧ clusters.filter s.mgr.needed ≠ []
  | .closing pending none =>
      Committed s clusters made m ∧ gone.map some ++ pending =
        GoMap.vals (s.mgr.clients.filter fun id _ => !s.mgr.kept clusters id)
  | .closing _ (some _) => clusters.filter s.mgr.needed ≠ []
  | _ => False

theorem filter_dropWhile_not {α : Type} (p : α → Bool) (l : List α) :
    (l.dropWhile p).filter (fun a => !p a) = l.filter fun a => !p a := by
  induction l with
  | nil => rfl
  | cons a l ih =>
      cases hp : p a with
      | false => rw [List.dropWhile_cons_of_neg (by simp [hp])]
      | true => rw [List.dropWhile_cons_of_pos hp, ih, List.filter_cons_of_neg (by simp [hp])]

section

variable {s : Sys} {made gone : List Client} {l : ApplyLocals}

/-- What is still to be made begins where the loop goes on. -/
theorem Looped.remaining (h : Looped s clusters made l) :
    made.map Client.createdFrom ++
      l.remaining.filter (fun cfg => !(cfg.disabled || flag l.reused cfg.id)) =
        clusters.filter s.mgr.needed := by
  rw [ApplyLocals.remaining, filter_dropWhile_not]
  exact h.needed

/-- The next client is made for the next cluster needed. -/
theorem Looped.create (h : Looped s clusters made l) {cfg : ClusterConfig}
    {rest : List ClusterConfig} (hrem : l.remaining = cfg :: rest) (hdis : cfg.disabled = false)
    (hre : flag l.reused cfg.id = false) {client : Client} (hfrom : client.createdFrom = cfg) :
    Looped s clusters (made ++ [client]) { l with todo := rest } := by
  refine ⟨h.generation, h.reused, h.asked, ?_⟩
  have hneeded := h.remaining
  rw [hrem, List.filter_cons_of_pos (by simp [hdis, hre])] at hneeded
  rw [List.map_append, List.map_singleton, hfrom, List.append_assoc]
  exact hneeded

theorem Looped.some_needed (h : Looped s clusters made l) {cfg : ClusterConfig}
    {rest : List ClusterConfig} (hrem : l.remaining = cfg :: rest) (hdis : cfg.disabled = false)
    (hre : flag l.reused cfg.id = false) : clusters.filter s.mgr.needed ≠ [] := by
  rw [← h.remaining, hrem, List.filter_cons_of_pos (by simp [hdis, hre])]
  simp

/-- The commit of the call. -/
theorem Looped.commit (h : Looped s clusters made l) (hpaired : ∀ id, Paired s.mgr id)
    (hids : DistinctIDs clusters) (hlocal : ∃ done, Connecting l done l.todo)
    (hnil : l.remaining = []) :
    ∃ m' old, s.mgr.applyCommit l.generation l.desired l.reused l.created = some (m', old) ∧
      Committed s clusters made m' ∧
      old = GoMap.vals (s.mgr.clients.filter fun id _ => !s.mgr.kept clusters id) := by
  obtain ⟨done, hconn⟩ := hlocal
  obtain ⟨⟨done', hrem⟩, -⟩ := hconn.next
  rw [hnil] at hrem
  have hreuse : Reuses AsDesired s.mgr l := by
    refine ⟨h.generation.le, fun _ id hid => ?_⟩
    rw [h.reused, ← h.asked, ← hconn.desired] at hid
    exact reused_asDesired hpaired l.desired id hid
  have hkept : ∀ id, flag l.reused id = s.mgr.kept clusters id := fun id => by
    rw [h.reused, kept_eq hpaired hids]
  obtain ⟨m', old, hcommit, hclients, hold, hset⟩ : ∃ m' old,
      s.mgr.applyCommit l.generation l.desired l.reused l.created = some (m', old) ∧
        m'.clients = s.mgr.nextClients l.desired l.created ∧
        old = GoMap.vals (s.mgr.clients.filter fun id _ => !flag l.reused id) ∧
        m'.desiredSet = true := by
    unfold Manager.applyCommit
    rw [if_neg (by simp [h.generation])]
    exact ⟨_, _, rfl, rfl, rfl, rfl⟩
  obtain ⟨hdesired, hinstalls⟩ := applyCommit_installs hreuse hrem (by rw [h.asked]; exact hids) hcommit
  rw [h.asked] at hdesired hinstalls
  refine ⟨m', old, hcommit, ⟨?_, hdesired, hset, hinstalls, fun id hid => ?_⟩, ?_⟩
  · have hneeded := h.remaining
    rwa [hnil, List.filter_nil, List.append_nil] at hneeded
  · rw [← hkept] at hid
    obtain ⟨hnone, hsome⟩ := hrem.reused id hid
    obtain ⟨c, hc, -⟩ := hreuse.2 h.generation id hid
    obtain ⟨cfg, hcfg⟩ := Option.isSome_iff_exists.1 hsome
    rw [hclients, get_nextClients, hcfg, hnone, hc, ClientMap.value, hc]
    rfl
  · rw [hold]
    simp only [hkept]

/-- Every move of the call leads from a stage to a stage. -/
theorem stage_move (hpaired : ∀ id, Paired s.mgr id) (hids : DistinctIDs clusters) {m : Manager}
    {op : Op} (h : Stage s clusters m made gone op) (hlocal : OpLocal op) {v : Move} {e : Effect}
    (he : op.move m v = some e) :
    Stage s clusters e.mgr (made ++ e.created) (gone ++ e.closed) e.op := by
  cases Op.moves he with
  | uncreated hrem =>
      obtain ⟨done, hconn⟩ := hlocal
      obtain ⟨-, hnext⟩ := hconn.next
      obtain ⟨hdis, hre⟩ := hnext _ _ hrem
      exact h.2.2.some_needed hrem hdis hre
  | created hrem serial isKafka =>
      obtain ⟨rfl, rfl, hloop⟩ := h
      obtain ⟨done, hconn⟩ := hlocal
      obtain ⟨-, hnext⟩ := hconn.next
      obtain ⟨hdis, hre⟩ := hnext _ _ hrem
      exact ⟨rfl, rfl, hloop.create hrem hdis hre rfl, hloop.some_needed hrem hdis hre⟩
  | answered =>
      obtain ⟨rfl, rfl, hloop, -⟩ := h
      rw [List.append_nil]
      exact ⟨rfl, rfl, hloop.generation, hloop.reused, hloop.asked, hloop.needed⟩
  | unanswered =>
      obtain ⟨-, -, -, hsome⟩ := h
      exact hsome
  | stale hnil hnone =>
      obtain ⟨rfl, rfl, hloop⟩ := h
      obtain ⟨m', old, hcommit, -⟩ := hloop.commit hpaired hids hlocal hnil
      rw [hnone] at hcommit
      cases hcommit
  | applied hnil hsome =>
      obtain ⟨rfl, rfl, hloop⟩ := h
      obtain ⟨m', old, hcommit, hdone, rfl⟩ := hloop.commit hpaired hids hlocal hnil
      rw [hsome] at hcommit
      obtain ⟨rfl, rfl⟩ := Prod.mk.inj (Option.some.inj hcommit)
      rw [List.append_nil]
      exact ⟨hdone, rfl⟩
  | upsertUncreated | upsertCreated | upsertAnswered => exact h.elim
  | upsertUnanswered | upsertStale | upserted => exact h.elim
  | @closed client pending result =>
      cases result with
      | some err => exact h
      | none =>
          obtain ⟨hdone, hpending⟩ := h
          rw [List.append_nil]
          refine ⟨hdone, ?_⟩
          rw [List.map_append, List.append_assoc]
          exact hpending

end

/-- The call as it begins. -/
theorem stage_begin {s : Sys} (hpaired : ∀ id, Paired s.mgr id) (hids : DistinctIDs clusters) :
    Stage s clusters (s.start (.apply clusters)).mgr [] [] (s.mgr.begin (.apply clusters)).2 := by
  refine ⟨rfl, rfl, rfl, rfl, rfl, ?_⟩
  refine List.filter_congr fun cfg hcfg => ?_
  rw [needed_eq hpaired hids hcfg]

/-- The state while the call is under way, and after it. -/
def Calling (s : Sys) (clusters : List ClusterConfig) (t : Sys) : Prop :=
  ∃ op made gone, t.ops = s.ops ++ [op] ∧ OpLocal op ∧
    t.created = s.created ++ made.map (fun c => (s.ops.length, c)) ∧ t.closed = s.closed ++ gone ∧
    Stage s clusters t.mgr made gone op

theorem calling_run {s : Sys} (hpaired : ∀ id, Paired s.mgr id) (hids : DistinctIDs clusters)
    (moves : List Move) :
    Calling s clusters (run Sys.step (s.start (.apply clusters))
      (moves.map (Action.move s.ops.length))) := by
  refine run_invariant_of (P := Calling s clusters) (A := fun a => ∃ v, a = .move s.ops.length v)
    ?_ ?_ ?_
  · rintro t _ ⟨v, rfl⟩ ⟨op, made, gone, hops, hlocal, hcreated, hclosed, hstage⟩
    rcases t.move_cases s.ops.length v with heq | ⟨op', e, hop', he, heq⟩
    · rw [Sys.step, heq]
      exact ⟨op, made, gone, hops, hlocal, hcreated, hclosed, hstage⟩
    · rw [hops, List.getElem?_append_right (Nat.le_refl _), Nat.sub_self] at hop'
      obtain rfl : op = op' := by simpa using hop'
      rw [Sys.step, heq]
      refine ⟨e.op, made ++ e.created, gone ++ e.closed, ?_, move_local hlocal he, ?_, ?_,
        stage_move hpaired hids hstage hlocal he⟩
      · simp [Sys.apply, hops]
      · simp [Sys.apply, hcreated]
      · simp [Sys.apply, hclosed]
  · exact ⟨_, [], [], rfl, begin_local s.mgr (.apply clusters), by simp [Sys.start],
      by simp [Sys.start], stage_begin hpaired hids⟩
  · intro a ha
    obtain ⟨v, -, rfl⟩ := List.mem_map.1 ha
    exact ⟨v, rfl⟩

theorem meets_moves (s : Sys) (o : Nat) (moves : List Move) :
    meets Sys.step alone s (moves.map (Action.move o)) = true := by
  induction moves generalizing s with
  | nil => rfl
  | cons v moves ih =>
      rw [List.map_cons, meets, ih]
      rfl

/-- The state after the call. -/
theorem calling_reach {s : Sys} (h : Reach Sys.step alone (· = Sys.init) s)
    (hquiet : s.ops.all Op.completed = true) (moves : List Move) :
    Reach Sys.step alone (· = Sys.init) (run Sys.step (s.start (.apply clusters))
      (moves.map (Action.move s.ops.length))) := by
  have hstart : Reach Sys.step alone (· = Sys.init) (s.step (.start (.apply clusters))) :=
    h.step hquiet
  exact hstart.run (meets_moves _ _ moves)

/-! ## The same call again -/

section

variable {others : List ClusterConfig}

theorem SameConnections.distinct (h : SameConnections clusters others)
    (hids : DistinctIDs clusters) : DistinctIDs others := by
  have hperm := h.map Prod.fst
  rw [List.map_map, List.map_map] at hperm
  exact hperm.nodup_iff.2 hids

theorem SameConnections.find (h : SameConnections clusters others) {cfg : ClusterConfig}
    (hcfg : cfg ∈ others) (hdis : cfg.disabled = false) :
    ∃ cfg' ∈ clusters, cfg'.disabled = false ∧ cfg'.id = cfg.id ∧
      cfg'.connection = cfg.connection := by
  have hmem := h.mem_iff.1 (List.mem_map_of_mem hcfg)
  obtain ⟨cfg', hcfg', heq⟩ := List.mem_map.1 hmem
  obtain ⟨hid, heq⟩ := Prod.mk.inj heq
  obtain ⟨henabled, hconn⟩ := Prod.mk.inj heq
  refine ⟨cfg', hcfg', ?_, hid, hconn⟩
  rw [ClusterConfig.disabled, henabled]
  exact hdis

theorem SameConnections.symm (h : SameConnections clusters others) :
    SameConnections others clusters := List.Perm.symm h

/-- What is wanted under an id is what an enabled cluster of the list asks for. -/
theorem wanted_iff (hids : DistinctIDs clusters) (id : String) (conn : Connection) :
    wanted clusters id = some conn ↔
      ∃ cfg ∈ clusters, cfg.disabled = false ∧ cfg.id = id ∧ cfg.connection = conn := by
  constructor
  · intro hw
    obtain ⟨cfg, hcfg, hconn⟩ := mem_of_connections hw
    obtain ⟨hmem, hid, hdis⟩ := enabledConfigs_mem hcfg
    exact ⟨cfg, hmem, hdis, hid, hconn⟩
  · rintro ⟨cfg, hmem, hdis, rfl, rfl⟩
    rw [wanted, connections, enabledConfigs_get hids hmem hdis]
    rfl

theorem SameConnections.wanted_eq (h : SameConnections clusters others)
    (hids : DistinctIDs clusters) : wanted others = wanted clusters := by
  funext id
  refine Option.ext fun conn => ?_
  rw [wanted_iff (h.distinct hids), wanted_iff hids]
  constructor
  · rintro ⟨cfg, hmem, hdis, rfl, rfl⟩
    obtain ⟨cfg', hmem', hdis', hid, hconn⟩ := h.find hmem hdis
    exact ⟨cfg', hmem', hdis', hid, hconn⟩
  · rintro ⟨cfg, hmem, hdis, rfl, rfl⟩
    obtain ⟨cfg', hmem', hdis', hid, hconn⟩ := h.symm.find hmem hdis
    exact ⟨cfg', hmem', hdis', hid, hconn⟩

/-- Every cluster is connected already. -/
theorem Installs.connected (h : Installs m clusters) (hsame : SameConnections clusters others)
    {cfg : ClusterConfig} (hcfg : cfg ∈ others) (hdis : cfg.disabled = false) :
    m.connected cfg = true := by
  obtain ⟨cfg', hcfg', hdis', hid, hconn⟩ := hsame.find hcfg hdis
  obtain ⟨c, hc, hfrom⟩ := h.clients cfg' hcfg' hdis'
  rw [hid] at hc
  rw [Manager.connected, hc]
  rw [sameConnection_iff] at hfrom ⊢
  rw [hfrom, hconn]

theorem Installs.none_needed (h : Installs m clusters) (hsame : SameConnections clusters others) :
    others.filter m.needed = [] := by
  refine List.filter_eq_nil_iff.2 fun cfg hcfg hneeded => ?_
  rw [Manager.needed, Bool.and_eq_true, Bool.not_eq_true', Bool.not_eq_true'] at hneeded
  rw [h.connected hsame hcfg hneeded.1] at hneeded
  cases hneeded.2

theorem Installs.all_kept (h : Installs m clusters) (hsame : SameConnections clusters others) :
    GoMap.vals (m.clients.filter fun id _ => !m.kept others id) = [] := by
  have hempty : (m.clients.filter fun id _ => !m.kept others id) = ∅ := by
    refine Std.ExtTreeMap.ext_getElem? fun id => ?_
    rw [GoMap.get_filter_key, Std.ExtTreeMap.getElem?_empty]
    cases hc : m.clients[id]? with
    | none => simp
    | some client =>
        have hid : id ∈ m.clients := by
          rw [Std.ExtTreeMap.mem_iff_isSome_getElem?, hc]
          rfl
        obtain ⟨cfg, hmem, hdis, rfl⟩ := (h.ids id).1 hid
        obtain ⟨cfg', hmem', hdis', hid', -⟩ := hsame.symm.find hmem hdis
        have hkept : m.kept others cfg.id = true := by
          rw [Manager.kept, List.any_eq_true]
          exact ⟨cfg', hmem', by simp [hid', hdis', h.connected hsame hmem' hdis']⟩
        rw [hkept]
        rfl
  rw [hempty, GoMap.vals_empty]

end

/-! ## The statement -/

/-- After the call of an `Apply` nothing is left for another one to do. -/
structure Unchanged (t u : Sys) (clusters : List ClusterConfig) : Prop where
  created : u.created = t.created
  closed : u.closed = t.closed
  isMatched : u.mgr.matchesClusters clusters = true
  noError : ∀ pending err, u.ops[t.ops.length]? ≠ some (.closing pending (some err))

theorem Calling.reconnects {s t : Sys} (h : Calling s clusters t) (hlocated : Located t)
    (hreturned : t.ops[s.ops.length]? = some (.closing [] none)) :
    Reconnects s t clusters := by
  obtain ⟨op, made, gone, hops, -, hcreated, hclosed, hstage⟩ := h
  rw [hops, List.getElem?_append_right (Nat.le_refl _), Nat.sub_self] at hreturned
  obtain rfl : op = .closing [] none := by simpa using hreturned
  obtain ⟨hdone, hgone⟩ := hstage
  rw [List.append_nil] at hgone
  refine ⟨⟨made, hcreated, hdone.made⟩, hdone.installs, fun cfg hcfg hdis hconn => ?_,
    ⟨gone, hclosed, by rw [hgone]⟩, fun hfresh id c hc => hlocated.isOpen hfresh hc, ?_⟩
  · refine hdone.kept cfg.id ?_
    rw [Manager.kept, List.any_eq_true]
    exact ⟨cfg, hcfg, by simp [hdis, hconn]⟩
  · rw [matchesClusters_iff hdone.set, hdone.desired]
    rfl

/-- An `Apply` that finds everything connected. -/
theorem Calling.unchanged {t u : Sys} {others : List ClusterConfig} (h : Calling t others u)
    (hids : DistinctIDs clusters) (hsame : SameConnections clusters others)
    (hinstalls : Installs t.mgr clusters) (hmatched : t.mgr.matchesClusters clusters = true) :
    Unchanged t u clusters := by
  obtain ⟨op, made, gone, hops, -, hcreated, hclosed, hstage⟩ := h
  have hnone := hinstalls.none_needed hsame
  have hop : u.ops[t.ops.length]? = some op := by
    rw [hops, List.getElem?_append_right (Nat.le_refl _), Nat.sub_self]
    rfl
  -- it has made nothing and closed nothing, wherever it is
  obtain ⟨rfl, rfl, hmatched', hok⟩ : made = [] ∧ gone = [] ∧
      u.mgr.matchesClusters clusters = true ∧ ∀ pending err, op ≠ .closing pending (some err) := by
    cases op with
    | upsert generation cfg => cases hstage
    | upsertPing generation cfg client => cases hstage
    | upsertReady generation cfg client => cases hstage
    | applyPing l cfg client => exact absurd hnone hstage.2.2.2
    | apply l =>
        obtain ⟨hmgr, rfl, hloop⟩ := hstage
        have hneeded := hloop.needed
        rw [hnone, List.append_eq_nil_iff, List.map_eq_nil_iff] at hneeded
        exact ⟨hneeded.1, rfl, by rw [hmgr]; exact hmatched, fun _ _ h => by cases h⟩
    | closing pending result =>
        cases result with
        | some err => exact absurd hnone hstage
        | none =>
            obtain ⟨hdone, hgone⟩ := hstage
            have hmade := hdone.made
            rw [hnone, List.map_eq_nil_iff] at hmade
            rw [hinstalls.all_kept hsame, List.append_eq_nil_iff, List.map_eq_nil_iff] at hgone
            refine ⟨hmade, hgone.1, ?_, fun _ _ h => by cases h⟩
            rw [matchesClusters_iff hdone.set, hdone.desired, ← hsame.wanted_eq hids]
            rfl
  refine ⟨by simpa using hcreated, by simpa using hclosed, hmatched', fun pending err heq => ?_⟩
  rw [hop] at heq
  exact hok pending err (Option.some.inj heq)

/-- An `Apply` with nothing beside it that succeeds connects what is needed,
keeps what is connected and closes the rest, and after it another one for the
same connections does nothing. -/
theorem apply_reconnects {s : Sys} (h : Reach Sys.step alone (· = Sys.init) s)
    (hquiet : s.ops.all Op.completed = true) {clusters : List ClusterConfig}
    (hids : DistinctIDs clusters) (moves : List Move) :
    let t := run Sys.step (s.start (.apply clusters)) (moves.map (Action.move s.ops.length))
    t.ops[s.ops.length]? = some (.closing [] none) →
      Reconnects s t clusters ∧
        ∀ others, SameConnections clusters others → ∀ again : List Move,
          Unchanged t (run Sys.step (t.start (.apply others))
            (again.map (Action.move t.ops.length))) clusters := by
  intro t hreturned
  have ht : Reach Sys.step alone (· = Sys.init) t := calling_reach h hquiet moves
  have hpaired := (reach_sound (reach_alone h).1).paired
  have hpaired' := (reach_sound (reach_alone ht).1).paired
  have hreconnects : Reconnects s t clusters :=
    (calling_run hpaired hids moves).reconnects (reach_located (reach_alone ht).1) hreturned
  refine ⟨hreconnects, fun others hsame again => ?_⟩
  exact (calling_run hpaired' (hsame.distinct hids) again).unchanged hids hsame
    hreconnects.installs hreconnects.isMatched

theorem returned_any {op : Option Op} (hcompleted : op.any Op.completed = true)
    (hsucceeds : op.any Op.succeeds = true) : op = some (.closing [] none) := by
  obtain ⟨pending, rfl⟩ := succeeds_any hsucceeds
  cases pending with
  | nil => rfl
  | cons client pending => cases hcompleted

/-- Two clusters, applied. -/
def appliedTwo : List Action :=
  [.start (.apply [plainCluster "a" "k1:9092", plainCluster "b" "k1:9092"]),
    .move 0 (.create (some (1, true))), .move 0 (.ping true),
    .move 0 (.create (some (2, true))), .move 0 (.ping true), .move 0 .commit]

/-- One of the two moves to another broker, and then they are applied again in
another order. -/
theorem apply_reconnects_moved :
    let s := run Sys.step Sys.init appliedTwo
    let clusters := [plainCluster "a" "k2:9092", plainCluster "b" "k1:9092"]
    let moves : List Move := [.create (some (3, true)), .ping true, .commit, .close]
    let t := run Sys.step (s.start (.apply clusters)) (moves.map (Action.move s.ops.length))
    Reconnects s t clusters ∧
      Unchanged t (run Sys.step (t.start (.apply clusters.reverse))
        ([.commit].map (Action.move t.ops.length))) clusters := by
  intro s clusters moves t
  have hinit : Reach Sys.step alone (· = Sys.init) Sys.init := .init rfl
  have hmeets : meets Sys.step alone Sys.init appliedTwo = true := by decide +kernel
  have hids : DistinctIDs clusters := by simp [clusters, DistinctIDs, plainCluster]
  have hreturned : t.ops[s.ops.length]? = some (.closing [] none) :=
    returned_any (by decide +kernel) (by decide +kernel)
  obtain ⟨hreconnects, hagain⟩ :=
    apply_reconnects (hinit.run hmeets) (by decide +kernel) hids moves hreturned
  exact ⟨hreconnects, hagain clusters.reverse (List.Perm.swap _ _ []) [.commit]⟩

end KafkaManager.Cluster
