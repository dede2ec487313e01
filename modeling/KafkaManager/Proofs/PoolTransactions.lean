import KafkaManager.Proofs.PoolInvariant

/-!
# The pool under one transaction

While a transaction is the only caller of `Apply` and `SetDesired`, what is
desired changes in two places only: in the commit of its own `Apply` and in
its own `SetDesired`. The sampler's `Upsert` calls, however many and however
old, leave it as it is, because an allowed one writes the connection that is
there already, and they leave the generation as it is, so that the `Apply` is
never stale.

`Idle` and `Busy` are the two situations, between two calls of the transaction
and during one. Each is kept by what the sampler begins and by every move of
every operation.
-/

namespace KafkaManager.Cluster

open Lib

/-- The connections a list of clusters asks for. -/
def wanted (clusters : List ClusterConfig) : String → Option Connection :=
  connections (enabledConfigs clusters)

/-! ## The test `Matches` -/

theorem matchesClusters_iff {m : Manager} (hset : m.desiredSet = true)
    (clusters : List ClusterConfig) :
    m.matchesClusters clusters = true ↔ connections m.desired = wanted clusters := by
  -- the test of the loop, one cluster at a time
  obtain ⟨test, htest, hloop⟩ : ∃ test : String × ClusterConfig → Bool,
      (∀ p, test p = true ↔ connections m.desired p.1 = some p.2.connection) ∧
        m.matchesClusters clusters =
          if (!m.desiredSet || (enabledConfigs clusters).size != m.desired.size) = true then false
          else (enabledConfigs clusters).toList.all test := by
    refine ⟨_, fun p => ?_, rfl⟩
    unfold connections
    cases hd : m.desired[p.1]? with
    | none => simp [hd]
    | some active =>
        simp only [hd, Option.map_some, Option.some.injEq]
        exact sameConnection_iff
  have hall : (enabledConfigs clusters).toList.all test = true ↔
      ∀ (id : String) (cfg : ClusterConfig), (enabledConfigs clusters)[id]? = some cfg →
        connections m.desired id = some cfg.connection := by
    rw [List.all_eq_true]
    refine ⟨fun h id cfg hcfg => ?_, fun h p hp => ?_⟩
    · exact (htest _).1 (h (id, cfg) ((GoMap.mem_toList _ _).2 hcfg))
    · exact (htest p).2 (h p.1 p.2 ((GoMap.mem_toList _ _).1 hp))
  have hmatches : m.matchesClusters clusters = true ↔
      (enabledConfigs clusters).size = m.desired.size ∧
        ∀ (id : String) (cfg : ClusterConfig), (enabledConfigs clusters)[id]? = some cfg →
          connections m.desired id = some cfg.connection := by
    rw [← hall, hloop]
    by_cases hsize : (enabledConfigs clusters).size = m.desired.size
    · rw [if_neg (by simp [hset, hsize])]
      exact (and_iff_right hsize).symm
    · rw [if_pos (by simp [hsize])]
      simp [hsize]
  rw [hmatches]
  refine ⟨fun ⟨hsize, hconn⟩ => funext fun id => ?_, fun h => ⟨?_, fun id cfg hcfg => ?_⟩⟩
  · show connections m.desired id = connections (enabledConfigs clusters) id
    cases hcfg : (enabledConfigs clusters)[id]? with
    | some cfg =>
        rw [hconn id cfg hcfg, connections, hcfg]
        rfl
    | none =>
        -- The sizes agree, so no key of `desired` is left over.
        have hnone : m.desired[id]?.isSome ≠ true := by
          intro hsome
          have hback := GoMap.get_isSome_of_size_eq hsize (fun k hk => by
            obtain ⟨cfg, hcfg⟩ := Option.isSome_iff_exists.1 hk
            have hk' := hconn k cfg hcfg
            obtain ⟨active, hactive, -⟩ := mem_of_connections hk'
            rw [hactive]
            rfl) id hsome
          rw [hcfg] at hback
          exact absurd hback (by simp)
        rw [connections, connections, hcfg, Option.not_isSome_iff_eq_none.1 hnone]
  · refine GoMap.size_eq_of_isSome fun id => ?_
    have hid := congrArg Option.isSome (congrFun h id)
    simpa [wanted, connections] using hid.symm
  · rw [h, wanted, connections, hcfg]
    rfl

/-! ## Lists with distinct ids -/

/-- The connection wanted under an id is that of the entry a lookup finds. -/
theorem wanted_find {clusters : List ClusterConfig} (h : DistinctIDs clusters) {id : String}
    {conn : Connection} (hw : wanted clusters id = some conn) :
    ∃ cfg, clusters.find? (fun c => c.id == id) = some cfg ∧ cfg.connection = conn ∧
      cfg.disabled = false := by
  obtain ⟨cfg, hcfg, hconn⟩ := mem_of_connections hw
  obtain ⟨hmem, hid, hen⟩ := enabledConfigs_mem hcfg
  refine ⟨cfg, ?_, hconn, hen⟩
  cases hf : clusters.find? fun c => c.id == id with
  | none =>
      have hno := List.find?_eq_none.1 hf cfg hmem
      exact absurd (by simpa using hid) hno
  | some c =>
      have hc : c.id = id := by simpa using List.find?_some hf
      rw [List.inj_on_of_nodup_map h (List.mem_of_find?_eq_some hf) hmem (hc.trans hid.symm)]

/-! ## Between two calls -/

/-- No `Apply` is under way and the pool is to have the connections `D`. -/
structure Idle (D : String → Option Connection) (p : Sys) : Prop where
  quiet : ∀ op ∈ p.ops, op.applying = false
  desired : connections p.mgr.desired = D

/-- What an operation that is not an `Apply` leaves as it is. -/
structure SameDesired (m m' : Manager) : Prop where
  generation : m'.generation = m.generation
  desired : connections m'.desired = connections m.desired

theorem SameDesired.refl (m : Manager) : SameDesired m m := ⟨rfl, rfl⟩

variable {D : String → Option Connection} {p : Sys} {clusters : List ClusterConfig}

theorem upsertCommit_desired {m m' : Manager} (h : Agrees m) {generation : Nat}
    {cfg : ClusterConfig} {client : Client} {old : Option Client}
    (hc : m.upsertCommit generation cfg client = some (m', old)) : SameDesired m m' := by
  obtain ⟨-, hallowed, rfl, -⟩ := upsertCommit_some hc
  have hallow : connections m.desired cfg.id = some cfg.connection :=
    (desiredAllowsLocked_iff h.set).1 hallowed
  exact ⟨rfl, funext fun id => desired_setConfig hallow id⟩

theorem move_desired {m : Manager} (h : Agrees m) {op : Op} (hop : op.applying = false) {v : Move}
    {e : Effect} (he : op.move m v = some e) :
    SameDesired m e.mgr ∧ e.op.applying = false := by
  refine ⟨?_, ?_⟩
  · rcases move_mgr he with hsame | ⟨l, old, rfl, -⟩ | ⟨_, _, _, _, _, -, hcommit, -⟩
    · rw [hsame]
      exact SameDesired.refl m
    · exact absurd hop (by simp [Op.applying])
    · exact upsertCommit_desired h hcommit
  · cases Op.moves he with
    | uncreated | created | answered | unanswered | stale | applied => cases hop
    | upsertUncreated | upsertCreated | upsertAnswered | upsertUnanswered | upsertStale => rfl
    | upserted | closed => rfl

theorem begin_upsert_applying (m : Manager) (cfg : ClusterConfig) :
    (m.begin (.upsert cfg)).2.applying = false := by
  rcases begin_upsert m cfg with h | h
  · rw [h]
    rfl
  · rw [h]
    rfl

theorem Idle.upsert (h : Idle D p) (cfg : ClusterConfig) : Idle D (p.start (.upsert cfg)) := by
  refine ⟨fun op hmem => ?_, ?_⟩
  · rcases List.mem_append.1 hmem with hold | hnew
    · exact h.quiet op hold
    · rw [List.mem_singleton.1 hnew]
      exact begin_upsert_applying ..
  · show connections (p.mgr.begin (.upsert cfg)).1.desired = D
    rw [begin_upsert_mgr]
    exact h.desired

theorem Idle.move (h : Idle D p) (hgood : Good p) (o : Nat) (v : Move) : Idle D (p.move o v) := by
  rcases p.move_cases o v with heq | ⟨op, e, hop, he, heq⟩
  · rw [heq]
    exact h
  · obtain ⟨hsame, hop'⟩ := move_desired hgood.mgr (h.quiet op (List.mem_of_getElem? hop)) he
    rw [heq]
    refine ⟨fun op' hmem => ?_, hsame.desired.trans h.desired⟩
    rcases List.mem_or_eq_of_mem_set hmem with hold | rfl
    · exact h.quiet op' hold
    · exact hop'

theorem Idle.setDesired (h : Idle D p) (clusters : List ClusterConfig) :
    Idle (wanted clusters) (p.start (.setDesired clusters)) := by
  refine ⟨fun op hmem => ?_, rfl⟩
  rcases List.mem_append.1 hmem with hold | hnew
  · exact h.quiet op hold
  · rw [List.mem_singleton.1 hnew]
    rfl

theorem Idle.matchesClusters (h : Idle D p) (hgood : Good p) (clusters : List ClusterConfig) :
    p.mgr.matchesClusters clusters = true ↔ D = wanted clusters := by
  rw [matchesClusters_iff hgood.mgr.set, h.desired]

/-- An installed client was created for the connection desired under its id. -/
theorem Idle.installed (h : Idle D p) (hgood : Good p) {id : String} {c : Client}
    (hc : p.mgr.clients[id]? = some (some c)) : D id = some c.connection := by
  rcases hgood.mgr.agree id with ⟨hnone, -⟩ | ⟨c', hc', -, hwant⟩
  · rw [hnone] at hc
    exact absurd hc (by simp)
  · rw [hc'] at hc
    obtain rfl := Option.some.inj (Option.some.inj hc)
    rw [← h.desired, hwant]

theorem kafka_installed {m : Manager} {id : String} {c : Client} (h : m.kafka id = some c) :
    m.clients[id]? = some (some c) := by
  unfold Manager.kafka Manager.get at h
  split at h
  · next hget =>
      split at h
      · rw [hget, Option.some.inj h]
      · simp at h
  · simp at h

/-! ## During one `Apply` -/

/-- How far an `Apply` of `clusters` has come: it has not committed and cannot
be stale, it has succeeded, or it has failed, and then `lost` holds. -/
def Progress (clusters : List ClusterConfig) (D : String → Option Connection) (lost : Prop)
    (m : Manager) : Op → Prop
  | .apply l | .applyPing l _ _ =>
      l.clusters = clusters ∧ l.generation = m.generation ∧ connections m.desired = D
  | .closing _ none => connections m.desired = wanted clusters
  | .closing _ (some _) => connections m.desired = D ∧ lost
  | _ => False

/-- Operation `o` is the only `Apply`. -/
structure Busy (o : Nat) (clusters : List ClusterConfig) (D : String → Option Connection)
    (lost : Prop) (p : Sys) : Prop where
  others : ∀ o' op, o' ≠ o → p.ops[o']? = some op → op.applying = false
  own : ∃ op, p.ops[o]? = some op ∧ Progress clusters D lost p.mgr op

variable {lost : Prop}

theorem Progress.mono {lost' : Prop} {m m' : Manager} {op : Op}
    (h : Progress clusters D lost m op) (hsame : SameDesired m m') (hlost : lost → lost') :
    Progress clusters D lost' m' op := by
  cases op with
  | apply l => exact ⟨h.1, h.2.1.trans hsame.generation.symm, hsame.desired.trans h.2.2⟩
  | applyPing l cfg client =>
      exact ⟨h.1, h.2.1.trans hsame.generation.symm, hsame.desired.trans h.2.2⟩
  | closing pending result =>
      cases result with
      | none => exact hsame.desired.trans h
      | some e => exact ⟨hsame.desired.trans h.1, hlost h.2⟩
  | upsert generation cfg => exact h.elim
  | upsertPing generation cfg client => exact h.elim
  | upsertReady generation cfg client => exact h.elim

/-- The moves of the `Apply` itself. -/
theorem Progress.move {m : Manager} {op : Op} (h : Progress clusters D lost m op)
    (hloc : OpLocal op) {v : Move} (hfail : op.applying = true → v.fails = true → lost)
    {e : Effect} (he : op.move m v = some e) : Progress clusters D lost e.mgr e.op := by
  cases Op.moves he with
  | uncreated | unanswered => exact ⟨h.2.2, hfail rfl rfl⟩
  | created | answered => exact h
  | stale hnil hcommit =>
      simp [Manager.applyCommit, h.2.1] at hcommit
  | @applied l m' old hnil hcommit =>
      obtain ⟨done, hconn⟩ := hloc
      obtain ⟨-, rfl, -⟩ := applyCommit_some hcommit
      show connections l.desired = wanted clusters
      rw [hconn.desired, h.1]
      rfl
  | upsertUncreated | upsertCreated | upsertAnswered => exact h.elim
  | upsertUnanswered | upsertStale | upserted => exact h.elim
  | @closed client pending result => cases result <;> exact h

/-- An `Apply` begins. -/
theorem Idle.apply (h : Idle D p) (clusters : List ClusterConfig) (lost : Prop) :
    Busy p.ops.length clusters D lost (p.start (.apply clusters)) := by
  refine ⟨fun o op hne hop => ?_, (p.mgr.begin (.apply clusters)).2, ?_, rfl, rfl, h.desired⟩
  · have hget : (p.ops ++ [(p.mgr.begin (.apply clusters)).2])[o]? = some op := hop
    obtain ⟨hlt, -⟩ := List.getElem?_eq_some_iff.1 hget
    rw [List.length_append, List.length_singleton] at hlt
    rw [List.getElem?_append_left (by omega)] at hget
    exact h.quiet op (List.mem_of_getElem? hget)
  · show (p.ops ++ [_])[p.ops.length]? = some _
    rw [List.getElem?_append_right (Nat.le_refl _), Nat.sub_self]
    rfl

theorem Busy.mono {o : Nat} {lost' : Prop} (h : Busy o clusters D lost p)
    (hlost : lost → lost') : Busy o clusters D lost' p := by
  obtain ⟨op, hop, hprog⟩ := h.own
  exact ⟨h.others, op, hop, hprog.mono (SameDesired.refl _) hlost⟩

theorem Busy.upsert {o : Nat} (h : Busy o clusters D lost p) (cfg : ClusterConfig) :
    Busy o clusters D lost (p.start (.upsert cfg)) := by
  obtain ⟨own, hown, hprog⟩ := h.own
  obtain ⟨hlt, -⟩ := List.getElem?_eq_some_iff.1 hown
  refine ⟨fun o' op hne hop => ?_, own, ?_, ?_⟩
  · have hget : (p.ops ++ [(p.mgr.begin (.upsert cfg)).2])[o']? = some op := hop
    by_cases hlt' : o' < p.ops.length
    · rw [List.getElem?_append_left hlt'] at hget
      exact h.others o' op hne hget
    · rw [List.getElem?_append_right (by omega)] at hget
      rw [List.mem_singleton.1 (List.mem_of_getElem? hget)]
      exact begin_upsert_applying ..
  · show (p.ops ++ _)[o]? = some own
    rw [List.getElem?_append_left hlt, hown]
  · show Progress clusters D lost (p.mgr.begin (.upsert cfg)).1 own
    rw [begin_upsert_mgr]
    exact hprog

theorem Busy.move {o : Nat} (h : Busy o clusters D lost p) (hgood : Good p) (o' : Nat) (v : Move)
    (hfail : (p.ops[o']?).any Op.applying = true → v.fails = true → lost) :
    Busy o clusters D lost (p.move o' v) := by
  rcases p.move_cases o' v with heq | ⟨op, e, hop, he, heq⟩
  · rw [heq]
    exact h
  obtain ⟨own, hown, hprog⟩ := h.own
  obtain ⟨hlt, -⟩ := List.getElem?_eq_some_iff.1 hop
  rw [heq]
  by_cases ho : o' = o
  · -- The `Apply` itself moves; nobody else's phase changes.
    subst ho
    rw [hown] at hop
    obtain rfl := Option.some.inj hop
    have hprog' := hprog.move (hgood.ops own (List.mem_of_getElem? hown)).1
      (fun happ hv => hfail (by simp [hown, happ]) hv) he
    refine ⟨fun o op hne hget => ?_, e.op, List.getElem?_set_self hlt, hprog'⟩
    have hset : (p.ops.set o' e.op)[o]? = some op := hget
    rw [List.getElem?_set_ne (Ne.symm hne)] at hset
    exact h.others o op hne hset
  · obtain ⟨hsame, hop'⟩ := move_desired hgood.mgr (h.others o' op ho hop) he
    refine ⟨fun o₁ op₁ hne hget => ?_, own, ?_, hprog.mono hsame id⟩
    · have hset : (p.ops.set o' e.op)[o₁]? = some op₁ := hget
      by_cases ho₁ : o' = o₁
      · subst ho₁
        rw [List.getElem?_set_self hlt] at hset
        rw [← Option.some.inj hset]
        exact hop'
      · rw [List.getElem?_set_ne ho₁] at hset
        exact h.others o₁ op₁ hne hset
    · show (p.ops.set o' e.op)[o]? = some own
      rw [List.getElem?_set_ne ho, hown]

/-- An `Apply` returns: it has succeeded and what it was given is desired, or
it has failed and nothing has changed. -/
theorem Busy.returned {o : Nat} (h : Busy o clusters D lost p) {r : Option OpError}
    (hr : p.ops[o]? = some (.closing [] r)) :
    (r = none ∧ Idle (wanted clusters) p) ∨ (r.isSome = true ∧ lost ∧ Idle D p) := by
  obtain ⟨own, hown, hprog⟩ := h.own
  rw [hr] at hown
  obtain rfl := Option.some.inj hown
  have hquiet : ∀ op ∈ p.ops, op.applying = false := by
    intro op hmem
    obtain ⟨o', ho'⟩ := List.mem_iff_getElem?.1 hmem
    by_cases hne : o' = o
    · subst hne
      rw [hr] at ho'
      rw [← Option.some.inj ho']
      rfl
    · exact h.others o' op hne ho'
  cases r with
  | none => exact Or.inl ⟨rfl, hquiet, hprog⟩
  | some e => exact Or.inr ⟨rfl, hprog.2, hquiet, hprog.1⟩

end KafkaManager.Cluster
