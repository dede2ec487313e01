import Mathlib.Data.List.Perm.Basic
import KafkaManager.Proofs.PoolLocals

/-!
# Every client is in one place

A client the factory returned is held by an operation that is still running,
or installed, or closed, or in the list of those an operation is about to
close. No step makes or loses one: `begin_conserves` and `move_conserves` say,
as a permutation of lists, that what an operation and the pool had together
before a step, with what the factory returned in it, is what they have after
it, with what was closed in it. All the claims about leaks and double closes
are readings of the sum of these over a run.

The one delicate step is the commit of `Apply`. It builds the new map from the
clients it created and, for the other ids, from whatever is installed at that
time; it closes what is installed under an id that its snapshot did not mark
for reuse. The two agree because an id is not reused exactly if a client was
created for it, and because a reused id still has some client, if not the one
the snapshot saw.
-/

namespace KafkaManager.Cluster

open Lib

/-- The clients in the pool. -/
def Manager.installed (m : Manager) : List Client := (GoMap.vals m.clients).filterMap id

/-- The clients an operation has created and neither installed nor given up. -/
def Op.held : Op → List Client
  | .apply l => GoMap.vals l.created
  | .applyPing l _ client => client :: GoMap.vals l.created
  | .upsertPing _ _ client | .upsertReady _ _ client => [client]
  | .upsert .. | .closing .. => []

/-- The clients an operation is about to close. -/
def Op.pending : Op → List Client
  | .closing pending _ => pending.filterMap id
  | _ => []

def Op.owned (op : Op) : List Client := op.held ++ op.pending

/-- No entry of the client map is a nil interface. -/
def NoNil (m : Manager) : Prop := ∀ id : String, m.clients[id]? ≠ some none

/-! ## One critical section -/

theorem filterMap_some (cs : List Client) : (cs.map some).filterMap id = cs := by
  simp [List.filterMap_map]

theorem vals_map_some (m : GoMap String Client) :
    GoMap.vals (m.map fun _ c => some c) = (GoMap.vals m).map some := by
  simp [GoMap.vals]

theorem installed_partition (m : Manager) (keep : String → Bool) :
    m.installed.Perm
      ((GoMap.vals (m.clients.filter fun id _ => keep id)).filterMap id ++
        (GoMap.vals (m.clients.filter fun id _ => !keep id)).filterMap id) := by
  have h := (GoMap.vals_partition m.clients keep).filterMap id
  rwa [List.filterMap_append] at h

theorem upsertCommit_conserves {m m' : Manager} {generation : Nat} {cfg : ClusterConfig}
    {client : Client} {old : Option Client}
    (hc : m.upsertCommit generation cfg client = some (m', old)) :
    (client :: m.installed).Perm (m'.installed ++ old.toList) := by
  obtain ⟨-, -, rfl, rfl⟩ := upsertCommit_some hc
  have hvals :=
    (GoMap.vals_insert_overwritten m.clients cfg.id (some client)).filterMap id
  have hold : m.clients[cfg.id]?.toList.filterMap id =
      (ClientMap.value m.clients cfg.id).toList := by
    unfold ClientMap.value
    cases m.clients[cfg.id]? with
    | none => rfl
    | some v => cases v <;> rfl
  rw [List.filterMap_append, hold] at hvals
  exact hvals

theorem upsertCommit_noNil {m m' : Manager} (hnil : NoNil m) {generation : Nat}
    {cfg : ClusterConfig} {client : Client} {old : Option Client}
    (hc : m.upsertCommit generation cfg client = some (m', old)) :
    NoNil m' ∧ Evolves (fun _ _ => True) m m' := by
  obtain ⟨-, -, rfl, -⟩ := upsertCommit_some hc
  refine ⟨fun id => ?_, Nat.le_refl _, fun _ id c hid => ?_⟩
  · show (m.clients.insert cfg.id (some client))[id]? ≠ some none
    rw [GoMap.get_insert]
    split
    · simp
    · exact hnil id
  · show ∃ c', (m.clients.insert cfg.id (some client))[id]? = some (some c') ∧ True
    rw [GoMap.get_insert]
    split
    · exact ⟨client, rfl, trivial⟩
    · exact ⟨c, hid, trivial⟩

/-- What `Apply` finds under an id when it commits: the client it created, or
the client of a reused id, or nothing. -/
theorem get_next {m : Manager} {l : ApplyLocals} {done : List ClusterConfig}
    (hre : Reuses (fun _ _ _ => True) m l) (hgen : l.generation = m.generation)
    (hconn : Connecting l done []) (id : String) :
    (m.nextClients l.desired l.created)[id]? =
      ((l.created.map fun _ c => some c)[id]?).or
        (m.clients.filter fun id _ => flag l.reused id)[id]? := by
  have hall : l.desired = enabledConfigs done := by
    rw [hconn.desired, hconn.clusters, List.append_nil]
  rw [get_nextClients, GoMap.get_map, GoMap.get_filter_key]
  cases hflag : flag l.reused id with
  | true =>
      obtain ⟨hnone, hwant⟩ := hconn.reused id hflag
      obtain ⟨c, hc, -⟩ := hre.2 hgen id hflag
      obtain ⟨cfg, hcfg⟩ := Option.isSome_iff_exists.1 hwant
      simp [hnone, hcfg, hc, ClientMap.value]
  | false =>
      have hmk := hconn.created id hflag
      rw [← hall] at hmk
      cases hcr : l.created[id]? with
      | none =>
          rw [hcr] at hmk
          simp [← hmk]
      | some c =>
          rw [hcr] at hmk
          simp [← hmk]

theorem applyCommit_conserves {m m' : Manager} {l : ApplyLocals} {done : List ClusterConfig}
    {old : List (Option Client)} (hre : Reuses (fun _ _ _ => True) m l)
    (hconn : Connecting l done [])
    (hc : m.applyCommit l.generation l.desired l.reused l.created = some (m', old)) :
    (m.installed ++ GoMap.vals l.created).Perm (m'.installed ++ old.filterMap id) := by
  obtain ⟨hgen, rfl, rfl⟩ := applyCommit_some hc
  have hnext := (GoMap.vals_perm_append (get_next hre hgen hconn) (fun id => by
    rw [GoMap.get_map, GoMap.get_filter_key]
    cases hflag : flag l.reused id with
    | true => exact Or.inl (by rw [(hconn.reused id hflag).1]; rfl)
    | false => exact Or.inr rfl)).filterMap id
  rw [vals_map_some, List.filterMap_append, filterMap_some] at hnext
  have hpart := installed_partition m (flag l.reused)
  rw [List.perm_iff_count] at hnext hpart ⊢
  intro c
  have h₁ := hnext c
  have h₂ := hpart c
  simp only [List.count_append, Manager.installed] at h₁ h₂ ⊢
  omega

theorem applyCommit_noNil {m m' : Manager} {l : ApplyLocals} {done : List ClusterConfig}
    {old : List (Option Client)} (hre : Reuses (fun _ _ _ => True) m l)
    (hnil : NoNil m) (hconn : Connecting l done [])
    (hc : m.applyCommit l.generation l.desired l.reused l.created = some (m', old)) :
    NoNil m' ∧ m.generation < m'.generation ∧ none ∉ old := by
  obtain ⟨hgen, rfl, rfl⟩ := applyCommit_some hc
  refine ⟨fun id => ?_, Nat.lt_succ_self _, fun hmem => ?_⟩
  · show (m.nextClients l.desired l.created)[id]? ≠ some none
    rw [get_next hre hgen hconn, GoMap.get_map, GoMap.get_filter_key]
    cases l.created[id]? with
    | some c => simp
    | none =>
        cases flag l.reused id with
        | true => simpa using hnil id
        | false => simp
  · obtain ⟨id, hid⟩ := (GoMap.mem_vals _ _).1 hmem
    rw [GoMap.get_filter_key] at hid
    split at hid
    · exact hnil id hid
    · simp at hid

/-! ## One step of one operation -/

/-- What an operation of this module needs to know of its lists. -/
def OpLists : Op → Prop
  | .apply l | .applyPing l _ _ => DistinctIDs l.clusters
  | .closing pending _ => none ∉ pending
  | _ => True

/-- An operation's local variables and what it knows of the pool. -/
structure OpCustody (m : Manager) (op : Op) : Prop where
  locals : OpLocal op
  reuses : OpReuses (fun _ _ _ => True) m op
  lists : OpLists op

theorem OpCustody.mono {m m' : Manager} {op : Op} (h : OpCustody m op)
    (hev : Evolves (fun _ _ => True) m m') : OpCustody m' op :=
  ⟨h.locals, h.reuses.mono (fun _ _ _ _ _ _ => trivial) hev, h.lists⟩

theorem noNil_vals {m : GoMap String (Option Client)} (h : ∀ id : String, m[id]? ≠ some none) :
    none ∉ GoMap.vals m := by
  intro hmem
  obtain ⟨id, hid⟩ := (GoMap.mem_vals _ _).1 hmem
  exact h id hid

theorem noNil_filter {m : Manager} (h : NoNil m) (keep : String → Bool) (id : String) :
    (m.clients.filter fun i _ => keep i)[id]? ≠ some none := by
  rw [GoMap.get_filter_key]
  split
  · exact h id
  · simp

theorem begin_conserves (m : Manager) (r : Request) :
    m.installed.Perm ((m.begin r).1.installed ++ (m.begin r).2.owned) := by
  cases r with
  | apply clusters => simp [Manager.begin, Op.owned, Op.held, Op.pending]
  | upsert cfg =>
      rcases begin_upsert m cfg with h | h <;> simp [h, Op.owned, Op.held, Op.pending]
  | setDesired clusters => exact installed_partition m (m.wantedAsActive (enabledConfigs clusters))
  | retain active => exact installed_partition m fun id => active.contains id
  | close =>
      show m.installed.Perm ((GoMap.vals ∅).filterMap id ++ m.installed)
      rw [GoMap.vals_empty]
      exact List.Perm.refl _

theorem begin_noNil {m : Manager} (h : NoNil m) (r : Request) :
    NoNil (m.begin r).1 ∧ Evolves (fun _ _ => True) m (m.begin r).1 := by
  have hrefl : Evolves (fun _ _ => True) m m := Evolves.refl (fun _ => trivial) m
  cases r with
  | apply clusters => exact ⟨h, hrefl⟩
  | upsert cfg =>
      rw [begin_upsert_mgr]
      exact ⟨h, hrefl⟩
  | setDesired clusters => exact ⟨noNil_filter h _, Evolves.of_lt (Nat.lt_succ_self _)⟩
  | retain active => exact ⟨noNil_filter h _, retain_evolves (fun _ => trivial) m active⟩
  | close =>
      refine ⟨fun id => ?_, Evolves.of_lt (Nat.lt_succ_self _)⟩
      show (∅ : ClientMap)[id]? ≠ some none
      simp

theorem begin_custody {m : Manager} (h : NoNil m) {r : Request}
    (hids : ∀ clusters, r = .apply clusters → DistinctIDs clusters) :
    OpCustody (m.begin r).1 (m.begin r).2 := by
  have hreuse : OpReuses (fun _ _ _ => True) m (m.begin r).2 := by
    refine begin_reuses (fun desired id hid => ?_) r
    obtain ⟨hsome, -⟩ := flag_reused hid
    obtain ⟨v, hv⟩ := Option.isSome_iff_exists.1 hsome
    cases v with
    | none => exact absurd hv (h id)
    | some c => exact ⟨c, hv, trivial⟩
  refine ⟨begin_local m r, hreuse.mono (fun _ _ _ _ _ _ => trivial) (begin_noNil h r).2, ?_⟩
  cases r with
  | apply clusters => exact hids clusters rfl
  | upsert cfg =>
      rcases begin_upsert m cfg with h | h <;> simp [h, OpLists]
  | setDesired clusters => exact noNil_vals (noNil_filter h _)
  | retain active => exact noNil_vals (noNil_filter h _)
  | close => exact noNil_vals h

/-- A cluster the loop of `Apply` comes to has an id it has not seen, if the
ids are distinct. -/
theorem Connecting.fresh {l : ApplyLocals} {done todo : List ClusterConfig} {cfg : ClusterConfig}
    (h : Connecting l done (cfg :: todo)) (hids : DistinctIDs l.clusters)
    (hre : flag l.reused cfg.id = false) : l.created[cfg.id]? = none := by
  have hnot : cfg.id ∉ done.map ClusterConfig.id := by
    rw [DistinctIDs, h.clusters, List.map_append, List.map_cons] at hids
    intro hmem
    exact (List.nodup_append.1 hids).2.2 _ hmem _ (by simp) rfl
  have hnone : (enabledConfigs done)[cfg.id]? = none := by
    rw [Option.eq_none_iff_forall_ne_some]
    intro found hfound
    obtain ⟨hmem, hid, -⟩ := enabledConfigs_mem hfound
    exact hnot (List.mem_map.2 ⟨found, hmem, hid⟩)
  have hcr := h.created cfg.id hre
  rw [hnone] at hcr
  exact Option.map_eq_none_iff.1 hcr

/-- What an operation and the pool had together they still have after a move,
but for a client that is overwritten because its id comes twice. -/
theorem move_places {m : Manager} {op : Op} (hlocal : OpLocal op)
    (hre : OpReuses (fun _ _ _ => True) m op) {v : Move} {e : Effect}
    (he : op.move m v = some e) :
    ∃ leaked, (m.installed ++ (op.owned ++ e.created)).Perm
        (e.mgr.installed ++ (e.op.owned ++ (e.closed ++ leaked))) ∧
      (OpLists op → leaked = []) := by
  cases Op.moves he with
  | uncreated | unanswered | stale =>
      refine ⟨[], ?_, fun _ => rfl⟩
      simp [Op.owned, Op.held, Op.pending, closeCreated, List.filterMap_map]
  | created | upsertUncreated | upsertCreated | upsertAnswered | upsertUnanswered | upsertStale =>
      refine ⟨[], List.Perm.append_left _ ?_, fun _ => rfl⟩
      simp [Op.owned, Op.held, Op.pending]
  | @answered l cfg client =>
      obtain ⟨-, -, hflag, done, hconn⟩ := hlocal
      refine ⟨l.created[cfg.id]?.toList, List.Perm.append_left _ ?_, fun hlists => ?_⟩
      · simpa [Op.owned, Op.held, Op.pending] using
          GoMap.vals_insert_overwritten l.created cfg.id client
      · rw [hconn.fresh hlists hflag]
        rfl
  | applied hnil hcommit =>
      obtain ⟨done, hconn⟩ := hlocal
      obtain ⟨⟨done', hrem⟩, -⟩ := hconn.next
      rw [hnil] at hrem
      refine ⟨[], ?_, fun _ => rfl⟩
      simpa [Op.owned, Op.held, Op.pending] using applyCommit_conserves hre hrem hcommit
  | upserted hcommit =>
      refine ⟨[], (List.perm_append_singleton _ _).trans ?_, fun _ => rfl⟩
      simpa [Op.owned, Op.held, Op.pending] using upsertCommit_conserves hcommit
  | @closed client pending result =>
      refine ⟨[], List.Perm.append_left _ ?_, fun _ => rfl⟩
      simpa [Op.owned, Op.held, Op.pending] using (List.perm_append_singleton client _).symm

theorem move_conserves {m : Manager} {op : Op} (h : OpCustody m op) {v : Move}
    {e : Effect} (he : op.move m v = some e) :
    (m.installed ++ (op.owned ++ e.created)).Perm (e.mgr.installed ++ (e.op.owned ++ e.closed)) := by
  obtain ⟨leaked, hperm, hnone⟩ := move_places h.locals h.reuses he
  rwa [hnone h.lists, List.append_nil] at hperm

theorem move_noNil {m : Manager} {op : Op} (hnil : NoNil m) (h : OpCustody m op) {v : Move}
    {e : Effect} (he : op.move m v = some e) :
    NoNil e.mgr ∧ Evolves (fun _ _ => True) m e.mgr := by
  rcases move_mgr he with hsame | ⟨l, old, rfl, hrem, hcommit, -⟩ |
    ⟨generation, cfg, client, old, pending, rfl, hcommit, -⟩
  · rw [hsame]
    exact ⟨hnil, Evolves.refl (fun _ => trivial) m⟩
  · obtain ⟨⟨done, hconn⟩, hre, -⟩ := h
    obtain ⟨⟨done', hrest⟩, -⟩ := hconn.next
    rw [hrem] at hrest
    obtain ⟨hnil', hgen, -⟩ := applyCommit_noNil hre hnil hrest hcommit
    exact ⟨hnil', Evolves.of_lt hgen⟩
  · exact upsertCommit_noNil hnil hcommit

theorem move_lists {m : Manager} {op : Op} (hnil : NoNil m) (h : OpCustody m op) {v : Move}
    {e : Effect} (he : op.move m v = some e) : OpLists e.op := by
  obtain ⟨hlocal, hre, hlists⟩ := h
  cases Op.moves he with
  | created | answered => exact hlists
  | uncreated | unanswered | stale => simp [OpLists, closeCreated]
  | applied hnil' hcommit =>
      obtain ⟨done, hconn⟩ := hlocal
      obtain ⟨⟨done', hrem⟩, -⟩ := hconn.next
      rw [hnil'] at hrem
      exact (applyCommit_noNil hre hnil hrem hcommit).2.2
  | upsertUncreated | upsertCreated | upsertAnswered => simp [OpLists]
  | upsertUnanswered | upsertStale | upserted => simp [OpLists]
  | closed =>
      simp only [OpLists, List.mem_cons, not_or] at hlists ⊢
      exact hlists.2

theorem move_custody {m : Manager} {op : Op} (hnil : NoNil m) (h : OpCustody m op) {v : Move}
    {e : Effect} (he : op.move m v = some e) : OpCustody e.mgr e.op :=
  ⟨move_local h.locals he,
    (move_reuses h.reuses he).mono (fun _ _ _ _ _ _ => trivial) (move_noNil hnil h he).2,
    move_lists hnil h he⟩

/-! ## Runs -/

namespace Sys

/-- The clients running operations hold. -/
def held (s : Sys) : List Client := s.ops.flatMap Op.held

/-- The clients about to be closed. -/
def pending (s : Sys) : List Client := s.ops.flatMap Op.pending

/-- The operation an action is a step of. -/
def actor (s : Sys) : Action → Nat
  | .start _ => s.ops.length
  | .move o _ => o

end Sys

/-- The operation has returned, or is about to, without an error. -/
def Op.Succeeded (op : Op) : Prop := ∃ pending, op = .closing pending none

/-- The invariant of the whole system. `failed` is about one operation at a
time: what it created and has not installed, it owns or has closed. -/
structure Custody (s : Sys) : Prop where
  noNil : NoNil s.mgr
  ops : ∀ op ∈ s.ops, OpCustody s.mgr op
  placed : (s.mgr.installed ++ (s.ops.flatMap Op.owned ++ s.closed)).Perm (s.created.map Prod.snd)
  known : ∀ p ∈ s.created, p.1 < s.ops.length
  failed : ∀ o op, s.ops[o]? = some op → ¬ op.Succeeded →
    ∀ c, (o, c) ∈ s.created → c ∈ op.owned ∨ c ∈ s.closed

theorem init_custody : Custody Sys.init := by
  refine ⟨fun id => ?_, by simp [Sys.init], ?_, by simp [Sys.init], by simp [Sys.init]⟩
  · show (∅ : ClientMap)[id]? ≠ some none
    simp
  · simp [Sys.init, newManager, Manager.installed]

theorem flatMap_set_perm {ops : List Op} {o : Nat} {op : Op} (h : ops[o]? = some op) (op' : Op) :
    (op.owned ++ (ops.set o op').flatMap Op.owned).Perm (op'.owned ++ ops.flatMap Op.owned) := by
  obtain ⟨hlt, hget⟩ := List.getElem?_eq_some_iff.1 h
  have hnew := (List.set_perm_cons_eraseIdx hlt op').flatMap_right Op.owned
  have hold := (List.getElem_cons_eraseIdx_perm hlt).flatMap_right Op.owned
  rw [hget] at hold
  rw [List.perm_iff_count] at hnew hold ⊢
  intro c
  have h₁ := hnew c
  have h₂ := hold c
  simp only [List.flatMap_cons, List.count_append] at h₁ h₂ ⊢
  omega

/-- Each client the factory returned is installed, owned by an operation,
closed or leaked, and that once. -/
def Placed (s : Sys) (leaked : List Client) : Prop :=
  (s.mgr.installed ++ (s.ops.flatMap Op.owned ++ (s.closed ++ leaked))).Perm
    (s.created.map Prod.snd)

theorem Custody.isPlaced {s : Sys} (h : Custody s) : Placed s [] := by
  unfold Placed
  rw [List.append_nil]
  exact h.placed

theorem start_placed {s : Sys} {leaked : List Client} (h : Placed s leaked) (r : Request) :
    Placed (s.start r) leaked := by
  have hbegin := begin_conserves s.mgr r
  unfold Placed at h
  show (_ ++ ((s.ops ++ [_]).flatMap Op.owned ++ (s.closed ++ leaked))).Perm (s.created.map Prod.snd)
  rw [List.perm_iff_count] at hbegin h ⊢
  intro c
  have h₁ := hbegin c
  have h₂ := h c
  simp only [List.flatMap_append, List.flatMap_singleton, List.count_append] at h₁ h₂ ⊢
  show List.count c (s.mgr.begin r).1.installed + _ = _
  omega

theorem apply_placed {s : Sys} {leaked more : List Client} (h : Placed s leaked) {o : Nat} {op : Op}
    (hop : s.ops[o]? = some op) {e : Effect}
    (hmove : (s.mgr.installed ++ (op.owned ++ e.created)).Perm
      (e.mgr.installed ++ (e.op.owned ++ (e.closed ++ more)))) :
    Placed (s.apply o e) (leaked ++ more) := by
  have hset := flatMap_set_perm hop e.op
  unfold Placed at h
  show (e.mgr.installed ++ ((s.ops.set o e.op).flatMap Op.owned ++
      (s.closed ++ e.closed ++ (leaked ++ more)))).Perm
    ((s.created ++ e.created.map fun c => (o, c)).map Prod.snd)
  have hsnd : (e.created.map fun c => (o, c)).map Prod.snd = e.created := by
    simp [Function.comp_def]
  rw [List.map_append, hsnd]
  rw [List.perm_iff_count] at hmove hset h ⊢
  intro c
  have h₁ := hmove c
  have h₂ := hset c
  have h₃ := h c
  simp only [List.count_append] at h₁ h₂ h₃ ⊢
  omega

theorem start_custody {s : Sys} (h : Custody s) {r : Request}
    (hids : ∀ clusters, r = .apply clusters → DistinctIDs clusters) :
    Custody (s.start r) := by
  obtain ⟨hnil, hev⟩ := begin_noNil h.noNil r
  refine ⟨hnil, fun op hmem => ?_, ?_, fun p hp => ?_, fun o op hop hfail c hc => ?_⟩
  · rcases List.mem_append.1 hmem with hold | hnew
    · exact (h.ops op hold).mono hev
    · rw [List.mem_singleton.1 hnew]
      exact begin_custody h.noNil hids
  · have hplaced := start_placed h.isPlaced r
    unfold Placed at hplaced
    rwa [List.append_nil] at hplaced
  · have hlt := h.known p hp
    show p.1 < (s.ops ++ [_]).length
    rw [List.length_append]
    omega
  · have hlt : o < s.ops.length := h.known (o, c) hc
    have hop' : s.ops[o]? = some op := by
      rw [← hop]
      exact (List.getElem?_append_left hlt).symm
    exact h.failed o op hop' hfail c hc

theorem succeeded_move {m : Manager} {op : Op} (h : op.Succeeded) {v : Move} {e : Effect}
    (he : op.move m v = some e) : e.op.Succeeded := by
  obtain ⟨pending, rfl⟩ := h
  cases Op.moves he with
  | closed => exact ⟨_, rfl⟩

/-- An operation that has not succeeded owns or has closed what it created,
also after one more move. -/
theorem move_failed {s : Sys} (h : Custody s) {o : Nat} {op : Op} (hop : s.ops[o]? = some op)
    {v : Move} {e : Effect} (he : op.move s.mgr v = some e) (hfail : ¬ e.op.Succeeded) {c : Client}
    (hc : (o, c) ∈ (s.apply o e).created) : c ∈ e.op.owned ∨ c ∈ s.closed ++ e.closed := by
  have hmove := move_conserves (h.ops op (List.mem_of_getElem? hop)) he
  have hfail' : ¬ op.Succeeded := fun hs => hfail (succeeded_move hs he)
  have hsame : e.mgr = s.mgr := by
    rcases move_mgr he with hsame | ⟨l, old, -, -, -, hdone⟩ |
      ⟨generation, cfg, client, old, pending, -, -, hdone⟩
    · exact hsame
    · exact absurd ⟨_, hdone⟩ hfail
    · exact absurd ⟨_, hdone⟩ hfail
  rw [hsame, List.perm_append_left_iff] at hmove
  have hmem : c ∈ op.owned ++ e.created ∨ c ∈ s.closed := by
    rcases List.mem_append.1 hc with hold | hnew
    · rcases h.failed o op hop hfail' c hold with hown | hclosed
      · exact .inl (List.mem_append_left _ hown)
      · exact .inr hclosed
    · obtain ⟨c', hc', heq⟩ := List.mem_map.1 hnew
      obtain rfl := (Prod.mk.inj heq).2
      exact .inl (List.mem_append_right _ hc')
  rcases hmem with hmem | hclosed
  · rcases List.mem_append.1 (hmove.mem_iff.1 hmem) with hown | hclosed
    · exact .inl hown
    · exact .inr (List.mem_append_right _ hclosed)
  · exact .inr (List.mem_append_left _ hclosed)

theorem move_custody_sys {s : Sys} (h : Custody s) (o : Nat) (v : Move) :
    Custody (s.move o v) := by
  rcases s.move_cases o v with heq | ⟨op, e, hop, he, heq⟩
  · rw [heq]
    exact h
  · rw [heq]
    obtain ⟨hlt, -⟩ := List.getElem?_eq_some_iff.1 hop
    have hcust := h.ops op (List.mem_of_getElem? hop)
    obtain ⟨hnil, hev⟩ := move_noNil h.noNil hcust he
    obtain ⟨leaked, hmove, hnone⟩ := move_places hcust.locals hcust.reuses he
    rw [hnone hcust.lists] at hmove
    refine ⟨hnil, fun op' hmem => ?_, ?_, fun p hp => ?_, fun o' op' hop' hfail c hc => ?_⟩
    · rcases List.mem_or_eq_of_mem_set hmem with hold | rfl
      · exact (h.ops op' hold).mono hev
      · exact move_custody h.noNil hcust he
    · have hplaced := apply_placed h.isPlaced hop hmove
      unfold Placed at hplaced
      rwa [List.append_nil, List.append_nil] at hplaced
    · have hlen : p.1 < s.ops.length := by
        rcases List.mem_append.1 hp with hold | hnew
        · exact h.known p hold
        · obtain ⟨c, -, rfl⟩ := List.mem_map.1 hnew
          exact hlt
      show p.1 < (s.ops.set o e.op).length
      rw [List.length_set]
      exact hlen
    · by_cases ho : o = o'
      · subst ho
        have hnew : e.op = op' := by
          have hself : (s.ops.set o e.op)[o]? = some e.op := List.getElem?_set_self hlt
          exact Option.some.inj (hself.symm.trans hop')
        rw [← hnew] at hfail ⊢
        exact move_failed h hop he hfail hc
      · have hop'' : s.ops[o']? = some op' := by
          rw [← hop']
          exact (List.getElem?_set_ne ho).symm
        have hold : (o', c) ∈ s.created := by
          rcases List.mem_append.1 hc with hold | hnew
          · exact hold
          · obtain ⟨c', -, heq'⟩ := List.mem_map.1 hnew
            exact absurd (Prod.mk.inj heq').1 ho
        rcases h.failed o' op' hop'' hfail c hold with hown | hclosed
        · exact .inl hown
        · exact .inr (List.mem_append_left _ hclosed)

/-- The ids in the list of an `Apply` are distinct. -/
def Action.IDsDistinct (a : Action) : Prop :=
  ∀ clusters, a = .start (.apply clusters) → DistinctIDs clusters

theorem run_custody {as : List Action} (hids : ∀ a ∈ as, a.IDsDistinct) :
    Custody (run Sys.step Sys.init as) := by
  refine run_invariant_of (P := Custody) (A := Action.IDsDistinct) ?_ init_custody hids
  intro s a ha h
  cases a with
  | start r => exact start_custody h fun clusters hr => ha clusters (by rw [hr])
  | move o v => exact move_custody_sys h o v

/-- A step that writes to the pool belongs to an operation that returns no
error. -/
theorem writes_succeeded {s : Sys} {a : Action} (hw : (s.step a).mgr ≠ s.mgr) :
    ∃ op, (s.step a).ops[s.actor a]? = some op ∧ op.Succeeded := by
  cases a with
  | start r =>
      refine ⟨(s.mgr.begin r).2, by simp [Sys.step, Sys.start, Sys.actor], ?_⟩
      cases r with
      | apply clusters => exact absurd rfl hw
      | upsert cfg => exact absurd (begin_upsert_mgr s.mgr cfg) hw
      | setDesired clusters => exact ⟨_, rfl⟩
      | retain active => exact ⟨_, rfl⟩
      | close => exact ⟨_, rfl⟩
  | move o v =>
      rcases s.move_cases o v with heq | ⟨op, e, hop, he, heq⟩
      · exact absurd (by rw [Sys.step, heq]) hw
      · obtain ⟨hlt, -⟩ := List.getElem?_eq_some_iff.1 hop
        refine ⟨e.op, ?_, ?_⟩
        · rw [Sys.step, heq]
          exact List.getElem?_set_self hlt
        · rcases move_mgr he with hsame | ⟨l, old, -, -, -, hdone⟩ |
            ⟨generation, cfg, client, old, pending, -, -, hdone⟩
          · exact absurd (by rw [Sys.step, heq]; exact hsame) hw
          · exact ⟨_, hdone⟩
          · exact ⟨_, hdone⟩

theorem succeeded_step {s : Sys} {o : Nat} {op : Op} (hop : s.ops[o]? = some op)
    (hs : op.Succeeded) (a : Action) :
    ∃ op', (s.step a).ops[o]? = some op' ∧ op'.Succeeded := by
  obtain ⟨hlt, -⟩ := List.getElem?_eq_some_iff.1 hop
  cases a with
  | start r =>
      refine ⟨op, ?_, hs⟩
      show (s.ops ++ _)[o]? = some op
      rw [List.getElem?_append_left hlt, hop]
  | move o' v =>
      rcases s.move_cases o' v with heq | ⟨op', e, hop', he, heq⟩
      · exact ⟨op, by rw [Sys.step, heq, hop], hs⟩
      · have hops : (s.step (.move o' v)).ops = s.ops.set o' e.op := by
          rw [Sys.step, heq]
          rfl
        rw [hops]
        by_cases ho : o' = o
        · subst ho
          rw [hop] at hop'
          obtain rfl := Option.some.inj hop'
          exact ⟨e.op, List.getElem?_set_self hlt, succeeded_move hs he⟩
        · exact ⟨op, by rw [List.getElem?_set_ne ho, hop], hs⟩

theorem succeeded_run {s : Sys} {o : Nat} {op : Op} (hop : s.ops[o]? = some op)
    (hs : op.Succeeded) (as : List Action) :
    ∃ op', (run Sys.step s as).ops[o]? = some op' ∧ op'.Succeeded :=
  run_invariant (P := fun t : Sys => ∃ op', t.ops[o]? = some op' ∧ op'.Succeeded)
    (fun _ a ⟨_, hop', hs'⟩ => succeeded_step hop' hs' a) ⟨op, hop, hs⟩ as

/-! ## The statement -/

/-- No client is leaked and none is closed twice: each is in exactly one
place, none is closed again or while it is installed, and what an operation
that returned an error created is closed. -/
structure Accounted (s : Sys) : Prop where
  place : ∀ c ∈ s.created.map Prod.snd,
    s.held.count c + s.mgr.installed.count c + (s.pending.count c + s.closed.count c) = 1
  closedOnce : (s.closed.map Client.serial).Nodup
  installedOpen : ∀ (id : String) (c : Client), s.mgr.clients[id]? = some (some c) →
    c.serial ∉ s.closed.map Client.serial
  returned : ∀ (o : Nat) (err : OpError), s.ops[o]? = some (.closing [] (some err)) →
    ∀ c, (o, c) ∈ s.created → c ∈ s.closed

theorem Custody.accounted {s : Sys} (h : Custody s)
    (hfresh : (s.created.map fun p => p.2.serial).Nodup) : Accounted s := by
  have hserials : ((s.created.map Prod.snd).map Client.serial).Nodup := by
    rw [List.map_map]
    exact hfresh
  have hnodup : ((s.mgr.installed ++ (s.ops.flatMap Op.owned ++ s.closed)).map
      Client.serial).Nodup := (h.placed.map Client.serial).nodup_iff.2 hserials
  rw [List.map_append, List.map_append] at hnodup
  refine ⟨fun c hc => ?_, ?_, fun id c hid hclosed => ?_, fun o err hop c hc => ?_⟩
  · have hone : (s.created.map Prod.snd).count c = 1 :=
      List.count_eq_one_of_mem (List.Nodup.of_map _ hserials) hc
    have hplaced := h.placed.count_eq c
    have hsplit := (List.flatMap_append_perm s.ops Op.held Op.pending).count_eq c
    simp only [List.count_append, Sys.held, Sys.pending] at hplaced hsplit ⊢
    show List.count c (s.ops.flatMap Op.held) + _ + _ = 1
    have howned : List.count c (s.ops.flatMap Op.owned) =
        List.count c (s.ops.flatMap fun op => op.held ++ op.pending) := rfl
    omega
  · exact (List.nodup_append.1 (List.nodup_append.1 hnodup).2.1).2.1
  · have hinst : c ∈ s.mgr.installed :=
      List.mem_filterMap.2 ⟨some c, (GoMap.mem_vals _ _).2 ⟨id, hid⟩, rfl⟩
    exact (List.nodup_append.1 hnodup).2.2 c.serial (List.mem_map_of_mem hinst) c.serial
      (List.mem_append_right _ hclosed) rfl
  · rcases h.failed o _ hop (fun ⟨_, hs⟩ => by simp at hs) c hc with hown | hclosed
    · simp [Op.owned, Op.held, Op.pending] at hown
    · exact hclosed

/-- Whatever the interleaving, clients are accounted for, and an operation
that returns an error has written nothing at any of its steps. -/
theorem clients_accounted (as : List Action) (hids : ∀ a ∈ as, a.IDsDistinct)
    (hfresh : ((run Sys.step Sys.init as).created.map fun p => p.2.serial).Nodup) :
    Accounted (run Sys.step Sys.init as) ∧
      ∀ (bs cs : List Action) (a : Action), as = bs ++ a :: cs →
        ∀ (pending : List (Option Client)) (err : OpError),
          (run Sys.step Sys.init as).ops[(run Sys.step Sys.init bs).actor a]? =
            some (.closing pending (some err)) →
          ((run Sys.step Sys.init bs).step a).mgr = (run Sys.step Sys.init bs).mgr := by
  refine ⟨(run_custody hids).accounted hfresh, fun bs cs a has pending err hop => ?_⟩
  by_contra hw
  obtain ⟨op, hop', hs⟩ := writes_succeeded hw
  obtain ⟨op'', hop'', pending', rfl⟩ := succeeded_run hop' hs cs
  rw [has, run_append, run_cons, hop''] at hop
  simp at hop

/-- One `Apply` installs a client, a second one fails to ping the client of
the changed address. -/
theorem clients_accounted_failed_ping :
    let as : List Action := [.start (.apply [plainCluster "a" "k1:9092"]),
      .move 0 (.create (some (1, true))), .move 0 (.ping true), .move 0 .commit,
      .start (.apply [plainCluster "a" "k2:9092"]),
      .move 1 (.create (some (2, true))), .move 1 (.ping false), .move 1 .close]
    Accounted (run Sys.step Sys.init as) := by
  intro as
  refine (clients_accounted as (fun a ha clusters heq => ?_) (by decide)).1
  subst heq
  simp only [as, List.mem_cons, Action.start.injEq, Request.apply.injEq, List.not_mem_nil,
    reduceCtorEq, false_or, or_false] at ha
  rcases ha with rfl | rfl <;> exact List.nodup_singleton _

end KafkaManager.Cluster
