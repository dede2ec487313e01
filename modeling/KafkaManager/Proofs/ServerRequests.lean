import KafkaManager.Proofs.ServerTransactions

/-!
# Polls and requests keep the protocol

The thread that polls knows what the watcher has recorded, because nobody else
writes it, and so knows at the end which of three things happened: the text it
read is not a configuration, or it is the one recorded and nothing is pending,
or the reload failed and the server has gone astray.

A lookup holds the lock shared, and so the configuration it has read stays in
force until it unlocks; that the client it finds belongs to it is what the
settled pool says. A guard moreover leaves a mark in the log, which is all
that a mutating handler has to show for the calls it makes later.

`server_respects` collects the handlers.
-/

namespace KafkaManager.Api

open Lib Cluster Dashboard

variable {d : Setting} {t : Nat} {α : Type} {s : State} {h : Holder} {cfg : Config}

/-! ## Reloads -/

variable {text : List Char}

/-- The thread polls, and the watcher holds the hash of the text. -/
structure Recorded (d : Setting) (t : Nat) (text : List Char) (pending : Bool) (s : State) :
    Prop where
  polling : s.polling = some t
  hash : s.hash = d.sum256 text
  pending : s.pending = pending
  mem : text ∈ s.contents

theorem recorded_stable {pending : Bool} : Stable t (Recorded d t text pending) := by
  intro s s' hs hr
  have hw := hr.watching hs.polling
  exact ⟨hw.polling.trans hs.polling, hw.hash.trans hs.hash, hw.pending.trans hs.pending,
    hr.contents hs.mem⟩

/-- What a reload leaves. -/
def Reloaded (d : Setting) (t : Nat) (text : List Char) (s : State) : Option OpError → Prop
  | none => Recorded d t text false s
  | some _ => Recorded d t text true s ∧ s.astray = true

theorem reloaded_stable (r : Option OpError) : Stable t fun s => Reloaded d t text s r := by
  intro s s' hs hr
  cases r with
  | none => exact recorded_stable s s' hs hr
  | some e => exact ⟨recorded_stable s s' hs.1 hr, hr.astray hs.2⟩

theorem reconcileLocked_safe (hload : d.loadRuntime text = some cfg)
    (hdist : DistinctIDs cfg.clusters) (ht : h.thread = t) (htxn : h.txn = .reconcile cfg)
    (hu : Untouched h s) (hidle : Idle (wanted h.cfg.clusters) s.pool)
    (hrec : Recorded d t text true s) :
    Safe d t (fun r s => Ended h r.isSome s ∧ Reloaded d t text s r) (reconcileLocked cfg) s := by
  have hre : ∀ s : State, s.writer = some h → s.reloading = true := by
    intro s hw
    show s.writer.any (fun h => h.txn.reload) = true
    rw [hw, Option.any_some, htxn]
    rfl
  refine (apply_untouched_safe ht recorded_stable (fun s p hs => ⟨hs.polling, hs.hash, hs.pending,
    hs.mem⟩) hu hrec hidle).bind fun r s₁ _ ⟨happ, hu₁, hrec₁⟩ => ?_
  cases r with
  | error e =>
      have hastray : s₁.astray = true := happ.1 (hre s₁ hu₁.writer)
      have hs₁ : (Untouched h s₁ ∧ Resting h (wanted h.cfg.clusters) s₁) ∧
          Reloaded d t text s₁ (some e) := ⟨⟨hu₁, happ.2⟩, hrec₁, hastray⟩
      exact safe_ret (((untouched_stable ht).and (resting_stable ht)).and (reloaded_stable _)) hs₁
        fun s' _ ⟨⟨hu', hrest'⟩, hrel⟩ => ⟨hu'.ended hrest'.2, hrel⟩
  | ok changed =>
      have hmay : MayRun d t cfg s₁ :=
        .reload text hrec₁.polling hrec₁.hash hrec₁.mem hload
      have htarget : cfg = h.txn.target h.cfg := by
        rw [htxn]
        rfl
      have hwrite : ∀ s, Recorded d t text true s → s.writer = some h →
          Recorded d t text false (s.setConfig cfg) := by
        intro s hs hw
        refine ⟨hs.polling, hs.hash, ?_, hs.mem⟩
        show (s.pending && !s.reloading) = false
        rw [hre s hw, Bool.not_true, Bool.and_false]
      refine (updateConfig_safe ht recorded_stable recorded_stable hwrite
        (fun s m hs => ⟨hs.polling, hs.hash, hs.pending, hs.mem⟩) htarget hdist happ.1 hmay
        hrec₁).bind fun _ s₂ _ ⟨hend, hrec₂⟩ => ?_
      exact safe_ret ((ended_stable ht).and recorded_stable) ⟨hend, hrec₂⟩ fun s' _ hs' => hs'

theorem reconcileConfig_safe (hload : d.loadRuntime text = some cfg)
    (hdist : DistinctIDs cfg.clusters) (hrec : Recorded d t text true s) :
    Safe d t (fun r s => Reloaded d t text s r) (reconcileConfig cfg) s :=
  transaction_safe recorded_stable reloaded_stable
    (fun _ hs => ⟨hs.polling, hs.hash, hs.pending, hs.mem⟩)
    (fun r s hs => by
      cases r with
      | none => exact ⟨hs.polling, hs.hash, hs.pending, hs.mem⟩
      | some e => exact ⟨⟨hs.1.polling, hs.1.hash, hs.1.pending, hs.1.mem⟩, hs.2⟩)
    (fun h s ht htxn hu hidle hrec => reconcileLocked_safe hload hdist ht htxn hu hidle hrec) hrec

/-! ## Polls -/

/-- The polling thread has dealt with the text. -/
structure Polled (d : Setting) (t : Nat) (text : List Char) (s : State) : Prop where
  polling : s.polling = some t
  pending : s.pending = false
  dealt : d.loadRuntime text = none ∨ s.hash = d.sum256 text ∨ s.astray = true

theorem polled_stable : Stable t (Polled d t text) := by
  intro s s' hs hr
  have hw := hr.watching hs.polling
  refine ⟨hw.polling.trans hs.polling, hw.pending.trans hs.pending, ?_⟩
  rcases hs.dealt with hnone | hhash | hastray
  · exact Or.inl hnone
  · exact Or.inr (Or.inl (hw.hash.trans hhash))
  · exact Or.inr (Or.inr (hr.astray hastray))

theorem Recorded.polled (hs : Recorded d t text false s) : Polled d t text s :=
  ⟨hs.polling, hs.pending, Or.inr (Or.inl hs.hash)⟩

/-- A step of the polling thread on the watcher, seen by the others. -/
theorem rely_of_polling (hp : s.polling = some t) (s' : State) (hkept : Kept s s')
    (hreaders : s'.readers = s.readers) (hlog : s'.log = s.log)
    (hcontents : s'.contents = s.contents) (hastray : s'.astray = s.astray) {t' : Nat}
    (hne : t' ≠ t) : Rely t' s s' := by
  refine Rely.of_same s' hkept (fun hr => hreaders ▸ hr) (fun hp' => ?_) ?_ hcontents hastray
  · rw [hp] at hp'
    exact absurd (Option.some.inj hp').symm hne
  · rw [hlog]

theorem inv_record (hi : Inv d s) (hp : s.polling = some t) (hash : List UInt8) :
    Inv d (s.record hash) where
  pool := hi.pool
  distinct := hi.distinct
  exclusive := hi.exclusive
  settled hw := ⟨(hi.settled hw).idle, (hi.settled hw).configs, (hi.settled hw).saved⟩
  logged := hi.logged
  inForce := hi.inForce
  polled hnone := by
    have hnone' : s.polling = none := hnone
    rw [hp] at hnone'
    exact absurd hnone' (by simp)
  file := hi.file
  inStep _ _ hpending := absurd hpending (by simp [State.record])

/-- A text whose configuration is not applied leaves the server in step if it
has none, or if the server has gone astray. -/
theorem inv_reject (hi : Inv d s) (hrec : Recorded d t text true s)
    (hwhy : d.loadRuntime text = none ∨ s.astray = true) : Inv d s.reject where
  pool := hi.pool
  distinct := hi.distinct
  exclusive := hi.exclusive
  settled hw := ⟨(hi.settled hw).idle, (hi.settled hw).configs, (hi.settled hw).saved⟩
  logged := hi.logged
  inForce := hi.inForce
  polled _ := rfl
  file := hi.file
  inStep hcalm hcol _ hhash cfg hcfg := by
    rcases hwhy with hnone | hastray
    · have hsame : s.file = text := hcol s.file hi.file text hrec.mem (hhash.trans hrec.hash)
      have hcfg' : d.loadRuntime s.file = some cfg := hcfg
      rw [hsame, hnone] at hcfg'
      exact absurd hcfg' (by simp)
    · have hcalm' : s.astray = false := hcalm
      rw [hastray] at hcalm'
      exact absurd hcalm' (by simp)

theorem rejected_safe {problem : Problem} (hrec : Recorded d t text true s)
    (hwhy : d.loadRuntime text = none ∨ s.astray = true) :
    Safe d t (fun _ s => Polled d t text s) (Cmd.perform (.rejected problem)) s := by
  have hstable : Stable t fun s => Recorded d t text true s ∧
      (d.loadRuntime text = none ∨ s.astray = true) := by
    intro s s' ⟨hrec, hwhy⟩ hr
    exact ⟨recorded_stable s s' hrec hr, hwhy.imp_right hr.astray⟩
  refine safe_cmd hstable ⟨hrec, hwhy⟩ fun s₁ hi ⟨hrec₁, hwhy₁⟩ => ⟨trivial, fun o r s₂ he => ?_⟩
  obtain ⟨-, rfl⟩ := Prod.mk.inj (Option.some.inj he)
  refine ⟨inv_reject hi hrec₁ hwhy₁, fun t' hne => rely_of_polling hrec₁.polling
    s₁.reject (Kept.of_same rfl rfl rfl rfl rfl rfl rfl) rfl rfl rfl rfl hne, ?_⟩
  have hpolled : Polled d t text s₁.reject :=
    ⟨hrec₁.polling, rfl, hwhy₁.imp_right Or.inr⟩
  exact safe_ret polled_stable hpolled fun s' _ hs' => hs'

theorem onChange_safe {updated : Config} (hload : load d.yaml d.env text = .ok updated)
    (hrec : Recorded d t text true s) :
    Safe d t (fun _ s => Polled d t text s) (onChange d updated) s := by
  unfold onChange
  cases hrun : runtime d.gcm updated d.secret with
  | error e =>
      have hnone : d.loadRuntime text = none := by
        unfold Setting.loadRuntime
        rw [hload]
        simp only
        rw [hrun]
        rfl
      exact rejected_safe hrec (Or.inl hnone)
  | ok cfg =>
      have hcfg : d.loadRuntime text = some cfg := by
        unfold Setting.loadRuntime
        rw [hload]
        simp only
        rw [hrun]
        rfl
      have hdist := runtime_ids hrun (Config.validate_ids (load_valid hload))
      refine (reconcileConfig_safe hcfg hdist hrec).bind fun r s₁ _ hrel => ?_
      cases r with
      | none =>
          have hpolled : Polled d t text s₁ := Recorded.polled hrel
          exact safe_ret polled_stable hpolled fun s' _ hs' => hs'
      | some e => exact rejected_safe hrel.1 (Or.inr hrel.2)

/-- The thread polls and has read the text. -/
structure HasRead (t : Nat) (text : List Char) (s : State) : Prop where
  polling : s.polling = some t
  pending : s.pending = false
  mem : text ∈ s.contents

theorem hasRead_stable : Stable t (HasRead t text) := by
  intro s s' hs hr
  have hw := hr.watching hs.polling
  exact ⟨hw.polling.trans hs.polling, hw.pending.trans hs.pending, hr.contents hs.mem⟩

theorem pollText_safe {known : List UInt8} (hs : HasRead t text s) (hknown : s.hash = known) :
    Safe d t (fun _ s => Polled d t text s) (pollText d text known) s := by
  unfold pollText
  split
  · next hsame =>
      have hpolled : Polled d t text s :=
        ⟨hs.polling, hs.pending, Or.inr (Or.inl (hknown.trans hsame.symm))⟩
      exact safe_ret polled_stable hpolled fun s' _ hs' => hs'
  · cases hload : load d.yaml d.env text with
    | error e =>
        have hnone : d.loadRuntime text = none := by
          unfold Setting.loadRuntime
          rw [hload]
        have hpolled : Polled d t text s := ⟨hs.polling, hs.pending, Or.inl hnone⟩
        exact safe_ret polled_stable hpolled fun s' _ hs' => hs'
    | ok updated =>
        refine safe_cmd hasRead_stable hs fun s₁ hi₁ hs₁ => ⟨trivial, fun o r s₂ he => ?_⟩
        obtain ⟨-, rfl⟩ := Prod.mk.inj (Option.some.inj he)
        refine ⟨inv_record hi₁ hs₁.polling _, fun t' hne => rely_of_polling hs₁.polling
          (s₁.record _) (Kept.of_same rfl rfl rfl rfl rfl rfl rfl) rfl rfl rfl rfl hne, ?_⟩
        exact onChange_safe hload ⟨hs₁.polling, rfl, rfl, hs₁.mem⟩

theorem Polled.caughtUp (hs : Polled d t text s) (hi : Inv d s) : CaughtUp d text s := by
  intro hcalm hcol hw hfile cfg hcfg
  rcases hs.dealt with hnone | hhash | hastray
  · rw [hfile, hnone] at hcfg
    exact absurd hcfg (by simp)
  · have heq := hi.inStep hcalm hcol hs.pending (by rw [hfile, hhash]) cfg hcfg
    rw [heq, State.coming, (hi.settled hw).saved]
    rfl
  · rw [hastray] at hcalm
    exact absurd hcalm (by simp)

theorem inv_endPoll (hi : Inv d s) (hp : s.pending = false) : Inv d s.endPoll where
  pool := hi.pool
  distinct := hi.distinct
  exclusive := hi.exclusive
  settled hw := ⟨(hi.settled hw).idle, (hi.settled hw).configs, (hi.settled hw).saved⟩
  logged := hi.logged
  inForce := hi.inForce
  polled _ := hp
  file := hi.file
  inStep := hi.inStep

/-- The last command of a poll; `A` says that it may end. -/
theorem pollEnd_safe {A : State → Prop} {text : Option (List Char)} (hA : Stable t A) (ha : A s)
    (hmay : ∀ s, Inv d s → A s → s.polling = some t ∧ s.pending = false ∧
      (Cmd.pollEnd text).Meets d t s) :
    Safe d t (fun _ _ => True) (Cmd.perform (.pollEnd text)) s := by
  refine safe_cmd hA ha fun s₁ hi ha₁ => ?_
  obtain ⟨hpoll, hpending, hmeets⟩ := hmay s₁ hi ha₁
  refine ⟨hmeets, fun o r s₂ he => ?_⟩
  obtain ⟨-, rfl⟩ := Prod.mk.inj (Option.some.inj he)
  exact ⟨inv_endPoll hi hpending, fun t' hne => rely_of_polling hpoll
    s₁.endPoll (Kept.of_same rfl rfl rfl rfl rfl rfl rfl) rfl rfl rfl rfl hne, fun _ _ _ => trivial⟩

theorem inv_beginPoll (hi : Inv d s) : Inv d (s.beginPoll t) where
  pool := hi.pool
  distinct := hi.distinct
  exclusive := hi.exclusive
  settled hw := ⟨(hi.settled hw).idle, (hi.settled hw).configs, (hi.settled hw).saved⟩
  logged := hi.logged
  inForce := hi.inForce
  polled hnone := absurd hnone (by simp [State.beginPoll])
  file := hi.file
  inStep := hi.inStep

theorem rely_beginPoll (hp : s.polling = none) (t' : Nat) : Rely t' s (s.beginPoll t) := by
  refine Rely.of_same _ (Kept.of_same rfl rfl rfl rfl rfl rfl rfl) id (fun hp' => ?_)
    (List.suffix_refl _) rfl rfl
  rw [hp] at hp'
  exact absurd hp' (by simp)

theorem poll_safe : Safe d t (fun _ _ => True) (poll d) s := by
  refine safe_cmd (stable_const True) trivial fun s₁ hi _ => ⟨trivial, fun o r s₂ he => ?_⟩
  simp only [Cmd.exec] at he
  split at he
  · next hfree =>
      obtain ⟨-, rfl⟩ := Prod.mk.inj (Option.some.inj he)
      have hnone := Option.isNone_iff_eq_none.1 hfree
      refine ⟨inv_beginPoll hi, fun t' _ => rely_beginPoll hnone t', ?_⟩
      have hstable : Stable t fun s : State => s.polling = some t ∧ s.pending = false := by
        intro s s' h hr
        have hw := hr.watching h.1
        exact ⟨hw.polling.trans h.1, hw.pending.trans h.2⟩
      refine safe_quiet rfl hstable ⟨rfl, hi.polled hnone⟩ fun o r s₃ hi₃ hs₃ he₃ => ?_
      cases r with
      | error e =>
          exact pollEnd_safe hstable hs₃ fun s' _ hs' => ⟨hs'.1, hs'.2, trivial⟩
      | ok text =>
          have htext : text = s₃.file := by
            simp only [Cmd.exec, Option.map_eq_some_iff] at he₃
            obtain ⟨a, -, ha⟩ := he₃
            cases a with
            | error e => exact absurd (Prod.mk.inj ha).1 (by simp)
            | ok x => exact (Except.ok.inj (Prod.mk.inj ha).1).symm
          have hread : HasRead t text s₃ := ⟨hs₃.1, hs₃.2, htext ▸ hi₃.file⟩
          refine safe_quiet rfl hasRead_stable hread fun o known s₄ _ hread₄ he₄ => ?_
          obtain ⟨hknown, -⟩ := Prod.mk.inj (Option.some.inj he₄)
          refine (pollText_safe hread₄ hknown).bind fun _ s₅ _ hpolled => ?_
          exact pollEnd_safe polled_stable hpolled fun s' hi' hs' =>
            ⟨hs'.polling, hs'.pending, hs'.caughtUp hi'⟩
  · simp at he

/-! ## The log -/

theorem inv_note (hi : Inv d s) {m : Mark} (hlog : Logged (m :: s.log))
    (hforce : inForce (m :: s.log) = inForce s.log) : Inv d (s.note m) where
  pool := hi.pool
  distinct := hi.distinct
  exclusive := hi.exclusive
  settled hw := ⟨(hi.settled hw).idle, (hi.settled hw).configs, (hi.settled hw).saved⟩
  logged := hlog
  inForce := hforce.trans hi.inForce
  polled := hi.polled
  file := hi.file
  inStep := hi.inStep

theorem rely_note (t' : Nat) (m : Mark) : Rely t' s (s.note m) :=
  Rely.of_same _ (Kept.of_same rfl rfl rfl rfl rfl rfl rfl) id (fun _ => ⟨rfl, rfl, rfl⟩)
    (List.suffix_cons ..) rfl rfl

theorem allowed_stable {id : String} : Stable t fun s => Allowed t id s.log :=
  fun _ _ h hr => h.later hr.log

theorem clusterConfig_safe {A : State → Prop} {Q : α → State → Prop} {id : String}
    {k : Option ClusterConfig → ServerProg α} (hA : Stable t A) (ha : A s)
    (hk : ∀ s', A s' → Safe d t Q (k (s'.cfg.cluster id))
      (s'.note (.lookup t id (s'.cfg.cluster id)))) :
    Safe d t Q (.cmd (.clusterConfig id) k) s := by
  refine safe_cmd hA ha fun s₁ hi ha₁ => ⟨trivial, fun o r s₂ he => ?_⟩
  obtain ⟨rfl, rfl⟩ := Prod.mk.inj (Option.some.inj he)
  refine ⟨inv_note hi ⟨?_, hi.logged⟩ rfl, fun t' _ => rely_note t' _, hk s₁ ha₁⟩
  rw [hi.inForce]
  rfl

/-! ## Lookups -/

/-- The thread holds the lock shared. -/
def Reading (t : Nat) (s : State) : Prop := t ∈ s.readers

theorem reading_stable : Stable t (Reading t) := fun _ _ h hr => (hr.reading h).1

/-- It has found the entry of the cluster. -/
theorem entry_stable {id : String} {entry : ClusterConfig} :
    Stable t fun s => Reading t s ∧ s.cfg.cluster id = some entry := by
  intro s s' ⟨hread, hentry⟩ hr
  obtain ⟨hread', hcfg⟩ := hr.reading hread
  exact ⟨hread', by rw [hcfg, hentry]⟩

/-- What is returned from under the shared lock belongs together. -/
def Matched {ε : Type} (id : String) (s : State) (r : Except ε (Client × ClusterConfig)) : Prop :=
  ∀ found, r = .ok found → Paired ⟨id, found.1, found.2⟩ s

theorem matched_stable {ε : Type} {id : String} {r : Except ε (Client × ClusterConfig)} :
    Stable t fun s => Reading t s ∧ Matched id s r := by
  intro s s' ⟨hread, hm⟩ hr
  obtain ⟨hread', hcfg⟩ := hr.reading hread
  refine ⟨hread', fun found hfound => ⟨?_, (hm found hfound).client⟩⟩
  rw [hcfg]
  exact (hm found hfound).entry

theorem matched_error {ε : Type} {id : String} {e : ε} : Matched id s (.error e) :=
  fun _ hfound => absurd hfound (by simp)

theorem Inv.unlocked (hi : Inv d s) (hread : Reading t s) : s.writer = none := by
  cases hw : s.writer with
  | none => rfl
  | some h =>
      have hnil := hi.exclusive (by rw [hw]; rfl)
      unfold Reading at hread
      rw [hnil] at hread
      exact absurd hread (by simp)

/-- A client that is installed while the lock is held shared has the
connection of the entry. -/
theorem installed_entry (hi : Inv d s) (hread : Reading t s) {id : String} {entry : ClusterConfig}
    (hentry : s.cfg.cluster id = some entry) {client : Client}
    (hclient : s.pool.mgr.kafka id = some client) :
    Cluster.sameConnection client.createdFrom entry = true := by
  have hsettled := hi.settled (hi.unlocked hread)
  have hwant := hsettled.idle.installed hi.pool (kafka_installed hclient)
  obtain ⟨cfg, hfind, hconn, -⟩ := wanted_find hi.distinct hwant
  have hsame : some cfg = some entry := hfind.symm.trans hentry
  rw [← Option.some.inj hsame]
  exact sameConnection_iff.2 hconn.symm

theorem kafkaClientLocked_safe {id : String} {F : State → Prop} (hF : Stable t F)
    (hnote : ∀ s m, F s → F (s.note m)) (hread : Reading t s) (hf : F s) :
    Safe d t (fun r s => (Reading t s ∧ Matched id s r) ∧ F s) (kafkaClientLocked id) s := by
  refine clusterConfig_safe (reading_stable.and hF) ⟨hread, hf⟩ fun s₁ ⟨hread₁, hf₁⟩ => ?_
  cases hentry : s₁.cfg.cluster id with
  | none =>
      have hs : (Reading t (s₁.note (.lookup t id none)) ∧ True) ∧ F (s₁.note (.lookup t id none)) :=
        ⟨⟨hread₁, trivial⟩, hnote _ _ hf₁⟩
      exact safe_ret ((reading_stable.and (stable_const True)).and hF) hs
        fun s' _ hs' => ⟨⟨hs'.1.1, matched_error⟩, hs'.2⟩
  | some entry =>
      refine safe_quiet rfl (entry_stable.and hF) ⟨⟨hread₁, hentry⟩, hnote _ _ hf₁⟩
        fun o r s₂ hi₂ ⟨⟨hread₂, hentry₂⟩, hf₂⟩ he => ?_
      obtain ⟨hr, -⟩ := Prod.mk.inj (Option.some.inj he)
      cases r with
      | none =>
          exact safe_ret (reading_stable.and hF) ⟨hread₂, hf₂⟩
            fun s' _ hs' => ⟨⟨hs'.1, matched_error⟩, hs'.2⟩
      | some client =>
          have hmatched : Matched (ε := Problem) id s₂ (.ok (client, entry)) := by
            intro found hfound
            obtain rfl := Except.ok.inj hfound
            exact ⟨hentry₂, installed_entry hi₂ hread₂ hentry₂ hr⟩
          exact safe_ret (matched_stable.and hF) ⟨⟨hread₂, hmatched⟩, hf₂⟩ fun s' _ hs' => hs'

theorem inv_enter (hi : Inv d s) (hw : s.writer = none) : Inv d (s.enter t) where
  pool := hi.pool
  distinct := hi.distinct
  exclusive hsome := by
    have hsome' : s.writer.isSome = true := hsome
    rw [hw] at hsome'
    exact absurd hsome' (by simp)
  settled _ := ⟨(hi.settled hw).idle, (hi.settled hw).configs, (hi.settled hw).saved⟩
  logged := hi.logged
  inForce := hi.inForce
  polled := hi.polled
  file := hi.file
  inStep := hi.inStep

theorem inv_leave (hi : Inv d s) : Inv d (s.leave t) where
  pool := hi.pool
  distinct := hi.distinct
  exclusive hsome := by
    show s.readers.erase t = []
    rw [hi.exclusive hsome, List.erase_nil]
  settled hw := ⟨(hi.settled hw).idle, (hi.settled hw).configs, (hi.settled hw).saved⟩
  logged := hi.logged
  inForce := hi.inForce
  polled := hi.polled
  file := hi.file
  inStep := hi.inStep

/-- A step on the shared side of the lock, seen by the others. -/
theorem rely_readers (s' : State) (hkept : Kept s s') (hwatch : Watching s s')
    (hlog : s'.log = s.log) (hcontents : s'.contents = s.contents)
    (hastray : s'.astray = s.astray) {t' : Nat} (hreaders : t' ∈ s.readers → t' ∈ s'.readers) :
    Rely t' s s' := by
  refine Rely.of_same s' hkept hreaders (fun _ => hwatch) ?_ hcontents hastray
  rw [hlog]

theorem readLocked_safe {ε : Type} {id : String}
    {body : ServerProg (Except ε (Client × ClusterConfig))}
    {G : Except ε (Client × ClusterConfig) → State → Prop} (hG : ∀ r, Stable t (G r))
    (hleave : ∀ r s, G r s → G r (s.leave t))
    (hbody : ∀ s, Reading t s →
      Safe d t (fun r s => (Reading t s ∧ Matched id s r) ∧ G r s) body s) :
    Safe d t G (readLocked id body) s := by
  refine safe_cmd (stable_const True) trivial fun s₁ hi _ => ⟨trivial, fun o r s₂ he => ?_⟩
  simp only [Cmd.exec] at he
  split at he
  · next hfree =>
      obtain ⟨-, rfl⟩ := Prod.mk.inj (Option.some.inj he)
      have hkept : Kept s₁ (s₁.enter t) := Kept.of_same rfl rfl rfl rfl rfl rfl rfl
      refine ⟨inv_enter hi (Option.isNone_iff_eq_none.1 hfree), fun t' _ => rely_readers _ hkept
        ⟨rfl, rfl, rfl⟩ rfl rfl rfl (List.mem_cons_of_mem _), ?_⟩
      refine (hbody _ List.mem_cons_self).bind fun r s₃ _ hs₃ => ?_
      refine safe_cmd (matched_stable.and (hG r)) hs₃ fun s₄ hi₄ hs₄ => ⟨?_, fun o _ s₅ he₅ => ?_⟩
      · cases r with
        | error e => trivial
        | ok found => exact hs₄.1.2 found rfl
      · obtain ⟨-, rfl⟩ := Prod.mk.inj (Option.some.inj he₅)
        have hkept : Kept s₄ (s₄.leave t) := Kept.of_same rfl rfl rfl rfl rfl rfl rfl
        refine ⟨inv_leave hi₄, fun t' hne => rely_readers _ hkept ⟨rfl, rfl, rfl⟩ rfl rfl rfl
          (List.mem_erase_of_ne hne).2, ?_⟩
        exact safe_ret (hG r) (hleave r _ hs₄.2) fun s' _ hg' => hg'
  · simp at he

/-- A lookup that nothing depends on later. -/
theorem lookup_safe {id : String} :
    Safe d t (fun _ _ => True) (readLocked id (kafkaClientLocked id)) s :=
  readLocked_safe (fun _ => stable_const True) (fun _ _ _ => trivial) fun _ hread =>
    kafkaClientLocked_safe (stable_const True) (fun _ _ _ => trivial) hread trivial

/-! ## Guards -/

/-- What a guard that lets the request pass leaves in the log. -/
def Passed (t : Nat) (id : String) (r : Except Reply (Client × ClusterConfig)) (s : State) : Prop :=
  ∀ found, r = .ok found → Allowed t id s.log

theorem passed_stable {id : String} (r : Except Reply (Client × ClusterConfig)) :
    Stable t (Passed t id r) :=
  fun _ _ h hr found hfound => (h found hfound).later hr.log

theorem passed_error {id : String} {reply : Reply} : Passed t id (.error reply) s :=
  fun _ hfound => absurd hfound (by simp)

theorem refused_safe {id : String} {reply : Reply} (hread : Reading t s) :
    Safe d t (fun r s => (Reading t s ∧ Matched id s r) ∧ Passed t id r s)
      (.ret (.error reply)) s :=
  safe_ret reading_stable hread fun _ _ hread' => ⟨⟨hread', matched_error⟩, passed_error⟩

theorem writable_safe {id action resource : String} :
    Safe d t (Passed t id) (writable id action resource (kafkaClientLocked id)) s := by
  refine readLocked_safe passed_stable (fun _ _ h => h) fun s₁ hread => ?_
  refine clusterConfig_safe reading_stable hread fun s₂ hread₂ => ?_
  cases hentry : s₂.cfg.cluster id with
  | none => exact refused_safe hread₂
  | some entry =>
      show Safe d t _ (if entry.readOnly then _ else _) _
      cases hro : entry.readOnly with
      | true =>
          rw [if_pos rfl]
          refine safe_quiet rfl reading_stable hread₂ fun o r s₃ _ hread₃ _ => ?_
          exact refused_safe hread₃
      | false =>
          rw [if_neg (by simp)]
          have hallowed : Allowed t id (s₂.note (.lookup t id (some entry))).log :=
            ⟨entry, List.mem_cons_self, hro⟩
          have hread₃ : Reading t (s₂.note (.lookup t id (some entry))) := hread₂
          refine (kafkaClientLocked_safe allowed_stable
            (fun s m h => h.later (List.suffix_cons ..)) hread₃ hallowed).bind
            fun r s₄ _ ⟨⟨hread₄, hm⟩, hallowed₄⟩ => ?_
          cases r with
          | error e => exact refused_safe hread₄
          | ok found =>
              have hm' : Matched (ε := Reply) id s₄ (.ok found) := fun found' hfound' =>
                hm found' (by rw [Except.ok.inj hfound'])
              exact safe_ret (matched_stable.and allowed_stable) ⟨⟨hread₄, hm'⟩, hallowed₄⟩
                fun s' _ ⟨hs', hallowed'⟩ => ⟨hs', fun _ _ => hallowed'⟩

/-! ## Mutating handlers -/

theorem through_safe {id : String} {client : Client} {p : Kafka.KafkaProg α}
    (hallowed : Allowed t id s.log) :
    Safe d t (fun _ s => Allowed t id s.log) (through id client p) s := by
  induction p generalizing s with
  | ret a => exact safe_ret allowed_stable hallowed fun _ _ h => h
  | cmd call k ih =>
      refine safe_cmd allowed_stable hallowed fun s₁ hi hallowed₁ => ⟨trivial, fun o r s₂ he => ?_⟩
      simp only [Cmd.exec, Option.map_eq_some_iff, Prod.mk.injEq] at he
      obtain ⟨-, -, -, rfl⟩ := he
      exact ⟨inv_note hi ⟨fun _ => hallowed₁, hi.logged⟩ rfl, fun t' _ => rely_note t' _,
        ih r (hallowed₁.later (List.suffix_cons ..))⟩

theorem answer_safe {action resource : String} {problem : Option Problem} {reply : Reply} :
    Safe d t (fun _ _ => True) (answer action resource problem reply) s := by
  refine safe_quiet rfl (stable_const True) trivial fun o r s₁ _ _ _ => ?_
  cases problem with
  | none => exact safe_reply _
  | some e => exact safe_reply _

/-- A service call behind a guard, whatever is made of its result. -/
theorem service_safe {id : String} {client : Client} {p : Kafka.KafkaProg α}
    {k : α → ServerProg Reply} (hk : ∀ a s, Safe d t (fun _ _ => True) (k a) s)
    (hallowed : Allowed t id s.log) :
    Safe d t (fun _ _ => True) (through id client p >>= k) s :=
  (through_safe hallowed).bind fun a s' _ _ => hk a s'

theorem guarded_safe {id action resource : String}
    {next : Client → ClusterConfig → ServerProg Reply}
    (hnext : ∀ client cfg s, Allowed t id s.log → Safe d t (fun _ _ => True) (next client cfg) s) :
    Safe d t (fun _ _ => True)
      (guarded (writable id action resource (kafkaClientLocked id)) next) s := by
  refine writable_safe.bind fun r s₁ _ hpassed => ?_
  cases r with
  | error reply => exact safe_reply _
  | ok found => exact hnext found.1 found.2 s₁ (hpassed found rfl)

theorem decodeJSON_safe {id : String} {b : Body} {next : b.Value → ServerProg Reply}
    (hnext : ∀ request s, Allowed t id s.log → Safe d t (fun _ _ => True) (next request) s)
    (hallowed : Allowed t id s.log) : Safe d t (fun _ _ => True) (decodeJSON b next) s := by
  refine safe_quiet rfl allowed_stable hallowed fun o r s₁ _ hallowed₁ _ => ?_
  cases r with
  | none => exact safe_reply _
  | some request => exact hnext request s₁ hallowed₁

theorem createTopic_safe {cluster : String} :
    Safe d t (fun _ _ => True) (createTopic cluster) s :=
  guarded_safe fun _ _ _ => decodeJSON_safe fun _ _ => service_safe fun _ _ => answer_safe

theorem deleteTopic_safe {cluster name : String} :
    Safe d t (fun _ _ => True) (deleteTopic cluster name) s :=
  guarded_safe fun _ _ _ => service_safe fun _ _ => answer_safe

theorem addPartitions_safe {cluster topic : String} :
    Safe d t (fun _ _ => True) (addPartitions cluster topic) s :=
  guarded_safe fun _ _ _ => decodeJSON_safe fun _ _ => service_safe fun _ _ => answer_safe

theorem alterTopicConfigs_safe {cluster topic : String} :
    Safe d t (fun _ _ => True) (alterTopicConfigs cluster topic) s :=
  guarded_safe fun _ _ _ => decodeJSON_safe fun _ _ => service_safe fun _ _ => answer_safe

theorem produceMessage_safe {cluster : String} :
    Safe d t (fun _ _ => True) (produceMessage cluster) s :=
  guarded_safe fun _ _ _ => decodeJSON_safe fun _ _ => service_safe fun result _ => by
    cases result with
    | error e => exact answer_safe
    | ok record => exact answer_safe

theorem resetConsumerGroup_safe {cluster group : String} :
    Safe d t (fun _ _ => True) (resetConsumerGroup cluster group) s :=
  guarded_safe fun _ _ _ => decodeJSON_safe fun _ _ => service_safe fun _ _ => answer_safe

theorem deleteConsumerGroup_safe {cluster group : String} :
    Safe d t (fun _ _ => True) (deleteConsumerGroup cluster group) s :=
  guarded_safe fun _ _ _ => service_safe fun _ _ => answer_safe

/-! ## The system -/

theorem replied_safe {p : ServerProg Reply} (hp : Safe d t (fun _ _ => True) p s) :
    Safe d t (fun _ _ => True) (replied p) s :=
  hp.bind fun _ _ _ _ _ _ _ => trivial

theorem ended_safe {p : ServerProg α} (hp : Safe d t (fun _ _ => True) p s) :
    Safe d t (fun _ _ => True) (ended p) s :=
  hp.bind fun _ _ _ _ _ _ _ => trivial

theorem task_safe (task : Task) : Safe d t (fun _ _ => True) (task.prog d) s := by
  cases task with
  | putConfig => exact replied_safe putConfig_safe
  | restoreConfigBackup backup => exact replied_safe restoreConfigBackup_safe
  | poll => exact ended_safe poll_safe
  | kafka cluster => exact ended_safe lookup_safe
  | kafkaClient cluster => exact ended_safe lookup_safe
  | createTopic cluster => exact replied_safe createTopic_safe
  | deleteTopic cluster topic => exact replied_safe deleteTopic_safe
  | addPartitions cluster topic => exact replied_safe addPartitions_safe
  | alterTopicConfigs cluster topic => exact replied_safe alterTopicConfigs_safe
  | produceMessage cluster => exact replied_safe produceMessage_safe
  | resetConsumerGroup cluster group => exact replied_safe resetConsumerGroup_safe
  | deleteConsumerGroup cluster group => exact replied_safe deleteConsumerGroup_safe

theorem server_respects (d : Setting) :
    (server d).Respects (serverProtocol d) fun _ _ _ => True where
  env e _ hi := outside_keeps hi e
  prog task _ _ _ := task_safe task

/-- The calls of `main` to the pool before the server is built. -/
def BeforeServer (as : List Action) : Prop := ∀ a ∈ as, ∀ clusters, a ≠ .start (.apply clusters)

/-- What a server that is built on clusters with distinct ids, as `Validate`
makes them, can come to: its state and the threads started in it. -/
def Reachable (d : Setting) (p : ServerPool) : Prop :=
  ∃ (cfg : Config) (as : List Action) (file : List Char) (es : List ServerEvent),
    DistinctIDs cfg.clusters ∧ BeforeServer as ∧
      p = run (server d).step
        (started d cfg (run Sys.step (Sys.initWith cfg.clusters) as) file) es

/-- It keeps the protocol. -/
theorem Reachable.ok {p : ServerPool} (hp : Reachable d p) :
    p.Ok (serverProtocol d) (server d) fun _ _ _ => True := by
  obtain ⟨cfg, as, file, es, hdist, has, rfl⟩ := hp
  have hpool : Good (run Sys.step (Sys.initWith cfg.clusters) as) ∧
      ∀ op ∈ (run Sys.step (Sys.initWith cfg.clusters) as).ops, op.applying = false :=
    run_quiet has
  have hok : (started d cfg (run Sys.step (Sys.initWith cfg.clusters) as) file).Ok
      (serverProtocol d) (server d) fun _ _ _ => True :=
    ⟨newServer_inv hdist hpool.1 hpool.2 file, fun t prog ht => absurd ht (by simp [started])⟩
  exact Pool.run_ok (server_respects d) hok es

theorem Reachable.run {p : ServerPool} (hp : Reachable d p) (es : List ServerEvent) :
    Reachable d (Lib.run (server d).step p es) := by
  obtain ⟨cfg, as, file, es', hdist, has, rfl⟩ := hp
  exact ⟨cfg, as, file, es' ++ es, hdist, has, (run_append ..).symm⟩

theorem Reachable.step {p : ServerPool} (hp : Reachable d p) (e : ServerEvent) :
    Reachable d ((server d).step p e) :=
  hp.run [e]

end KafkaManager.Api
