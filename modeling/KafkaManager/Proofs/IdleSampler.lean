import KafkaManager.Dashboard.Run
import KafkaManager.Proofs.Sampling

/-!
# No update is slept through

The loop of the sampler sleeps on a timer, and an `Update` may come at any
point of it: before the loop captures the configurations, while the source is
working, between the end of a refresh and the `select`. `Awake` is the
invariant that no such update is lost. Unless the loop is at its call of
`Refresh`, the newest configurations have been captured, or a token is there,
or an `Update` is about to send one.

So a loop that waits for its timer alone has nothing left to find out: every
cluster has been measured through its present connection, and the timer runs
on the present interval (`idle_sampled`).
-/

namespace KafkaManager.Dashboard

open Lib

/-! ## What the source answers -/

theorem KafkaSource.recordLag_status (result : Snapshot) (lag : Except String Int) :
    (KafkaSource.recordLag result lag).status = result.status := by
  cases lag <;> rfl

/-- A status that a measurement ends with. -/
def Status.Settled (status : Status) : Prop := status = .online ∨ status = .offline

theorem KafkaSource.measure_settled {client : Cluster.Client} {snapshot : Snapshot}
    (h : (KafkaSource.measure client).Runs (fun _ _ _ _ => True) () snapshot ()) :
    snapshot.status.Settled := by
  obtain ⟨start, ⟨⟩, -, brokers, ⟨⟩, -, h⟩ := h
  cases brokers with
  | error e =>
      obtain ⟨rfl, -⟩ := h
      exact Or.inr rfl
  | ok brokers =>
      obtain ⟨topics, ⟨⟩, -, h⟩ := h
      cases topics with
      | error e =>
          obtain ⟨rfl, -⟩ := h
          exact Or.inr rfl
      | ok topics =>
          obtain ⟨groups, ⟨⟩, -, h⟩ := h
          cases groups with
          | error e =>
              obtain ⟨rfl, -⟩ := h
              exact Or.inr rfl
          | ok groups =>
              obtain ⟨finish, ⟨⟩, -, h⟩ := h
              simp only at h
              split at h
              · obtain ⟨rfl, -⟩ := h
                exact Or.inl rfl
              · obtain ⟨lags, ⟨⟩, -, rfl, -⟩ := h
                exact Or.inl (KafkaSource.recordLag_status _ _)

theorem KafkaSource.Returns.settled {snapshot : Snapshot} (h : KafkaSource.Returns snapshot) :
    snapshot.status.Settled := by
  obtain ⟨cfg, client, ⟨⟩, -, h⟩ := h
  cases client with
  | some client => exact KafkaSource.measure_settled h
  | none =>
      obtain ⟨o, ⟨⟩, -, err, ⟨⟩, -, h⟩ := h
      cases err with
      | some err =>
          obtain ⟨text, ⟨⟩, -, rfl, -⟩ := h
          exact Or.inr rfl
      | none =>
          obtain ⟨client, ⟨⟩, -, h⟩ := h
          cases client with
          | some client => exact KafkaSource.measure_settled h
          | none =>
              obtain ⟨rfl, -⟩ := h
              exact Or.inr rfl

theorem normalizeSnapshot_settled {snapshot : Snapshot} (h : snapshot.status.Settled)
    (cfg : ClusterConfig) (now : Int) : (normalizeSnapshot snapshot cfg now).status.Settled := by
  have hset : snapshot.status ≠ .unset := by
    rintro hunset
    rcases h with hstatus | hstatus <;> rw [hunset] at hstatus <;> cases hstatus
  show Status.Settled (if snapshot.status = .unset then _ else _)
  rw [if_neg hset]
  exact h

/-- Every answer in the log is one of the source. -/
def Sourced (log : List Moment) : Prop :=
  ∀ cfg raw now, Moment.answered cfg raw now ∈ log → raw.status.Settled

theorem Sourced.cons {log : List Moment} (h : Sourced log) {x : Moment}
    (hx : ∀ cfg raw now, x = .answered cfg raw now → raw.status.Settled) : Sourced (x :: log) := by
  intro cfg raw now hmem
  rcases List.mem_cons.1 hmem with heq | hmem
  · exact hx cfg raw now heq.symm
  · exact h cfg raw now hmem

/-! ## The invariant -/

/-- The configurations of the last `Update` have been captured. -/
def capturedIn : List Moment → Bool
  | [] => false
  | .updated .. :: _ => false
  | .started _ :: _ => true
  | .ended :: rest | .called _ :: rest | .answered .. :: rest | .committed _ :: rest
  | .finished :: rest => capturedIn rest

/-- A result for the cluster's present connection has been stored. -/
def Measures (m : Sampling) (cfg : ClusterConfig) : Prop := commits cfg.id m.log ≠ []

/-- A `Refresh` under way whose context lasts. Its goroutines do not give up,
and each cluster it leaves out has been measured. -/
structure Working (m : Sampling) (r : Refresh) : Prop where
  lasts : r.ended = false
  stays : ∀ w ∈ r.workers, w.progress ≠ .gaveUp
  result : ∀ w ∈ r.workers, w.progress = .returned → ∃ x ∈ r.results, x.cfg = w.cfg
  covers : capturedIn m.log = true → ∀ cfg ∈ m.sampler.configs,
    (∃ w ∈ r.workers, w.cfg = cfg) ∨ Measures m cfg

namespace Runner

/-- A token is there or will be. -/
def Due (R : Runner) : Prop := R.sampling.sampler.wake = true ∨ 0 < R.updates

/-- The loop is at its call of `Refresh`. -/
def AtRefresh (R : Runner) : Prop := R.loop = .refresh ∧ R.sampling.refresh = none

end Runner

structure Awake (R : Runner) : Prop where
  known : Known R.sampling
  sourced : Sourced R.sampling.log
  under : ∀ r, R.sampling.refresh = some r → R.loop = .refresh
  captured : ¬R.AtRefresh → R.ended = false → R.Due ∨ capturedIn R.sampling.log = true
  interval : ∀ i fired, R.loop = .waiting i fired →
    R.Due ∨ i = R.sampling.sampler.options.interval
  returned : R.loop = .returned → R.ended = true
  working : ∀ r, R.sampling.refresh = some r → R.ended = false → Working R.sampling r
  measured : R.loop ≠ .refresh → R.ended = false → capturedIn R.sampling.log = true →
    ∀ cfg ∈ R.sampling.sampler.configs, Measures R.sampling cfg

/-! ## The log -/

theorem Moment.Quiet.measures {m : Sampling} {x : Moment} (hx : x.Quiet) {cfg : ClusterConfig} :
    Measures (m.note x) cfg ↔ Measures m cfg := by
  unfold Measures
  rw [show (m.note x).log = x :: m.log from rfl, commits_quiet hx]

theorem measures_commitResult {m : Sampling} {cfg : ClusterConfig} (h : Measures m cfg)
    (result : Result) (now : Int) : Measures (m.commitResult result now) cfg := by
  unfold Sampling.commitResult
  split
  · exact h
  · show commits cfg.id (.committed _ :: m.log) ≠ []
    unfold commits
    split
    · exact List.cons_ne_nil _ _
    · exact h

theorem measures_commitResults {m : Sampling} {cfg : ClusterConfig} (h : Measures m cfg)
    (clock : Nat → Int) (xs : List (Result × Nat)) : Measures (m.commitResults clock xs) cfg :=
  run_invariant (P := fun n : Sampling => Measures n cfg)
    (fun _ x hn => measures_commitResult hn x.1 (clock x.2)) h xs

/-- A result for a cluster that is configured as it was measured is stored. -/
theorem measures_own {m : Sampling} (hd : DistinctIDs m.sampler.configs) {result : Result}
    (hcfg : result.cfg ∈ m.sampler.configs) (now : Int) :
    Measures (m.commitResult result now) result.cfg := by
  have hcurrent : m.sampler.currentConfig result.cfg = some result.cfg := by
    unfold Sampler.currentConfig
    rw [show m.sampler.configs.find? (fun cfg => cfg.id == result.cfg.id) = some result.cfg from
      entry_of_mem hd hcfg]
    exact if_pos (sameConnection_iff.2 ⟨rfl, rfl⟩)
  unfold Sampling.commitResult
  rw [hcurrent]
  show commits result.cfg.id (.committed _ :: m.log) ≠ []
  unfold commits
  rw [if_pos rfl]
  exact List.cons_ne_nil _ _

theorem measures_commitResults_own {m : Sampling} (hd : DistinctIDs m.sampler.configs)
    {cfg : ClusterConfig} (hcfg : cfg ∈ m.sampler.configs) (clock : Nat → Int)
    {xs : List (Result × Nat)} (hxs : ∃ x ∈ xs, x.1.cfg = cfg) :
    Measures (m.commitResults clock xs) cfg := by
  induction xs generalizing m with
  | nil =>
      obtain ⟨x, hx, -⟩ := hxs
      exact absurd hx List.not_mem_nil
  | cons y ys ih =>
      have hconfigs : (m.commitResult y.1 (clock y.2)).sampler.configs = m.sampler.configs :=
        Sampling.commitResult_configs m y.1 (clock y.2)
      obtain ⟨x, hx, hxcfg⟩ := hxs
      rcases List.mem_cons.1 hx with rfl | hx
      · subst hxcfg
        exact measures_commitResults (measures_own hd hcfg (clock x.2)) clock ys
      · exact ih (hconfigs ▸ hd) (hconfigs ▸ hcfg) ⟨x, hx, hxcfg⟩

theorem capturedIn_commitResults (m : Sampling) (clock : Nat → Int) (xs : List (Result × Nat)) :
    capturedIn (m.commitResults clock xs).log = capturedIn m.log := by
  refine run_invariant (P := fun n : Sampling => capturedIn n.log = capturedIn m.log)
    (fun n x hn => ?_) rfl xs
  rw [← hn]
  unfold Sampling.commitResult
  split
  · rfl
  · rfl

theorem sourced_commitResults {m : Sampling} (h : Sourced m.log) (clock : Nat → Int)
    (xs : List (Result × Nat)) : Sourced (m.commitResults clock xs).log := by
  refine run_invariant (P := fun n : Sampling => Sourced n.log) (fun n x hn => ?_) h xs
  unfold Sampling.commitResult
  split
  · exact hn
  · exact hn.cons fun _ _ _ heq => nomatch heq

/-- A cluster that is backed off has been measured. -/
theorem Known.backedOff {m : Sampling} (h : Known m) {cfg : ClusterConfig}
    (hcfg : cfg ∈ m.sampler.configs) {now : Int} (hback : m.sampler.backedOff now cfg = true) :
    Measures m cfg := by
  intro hnone
  have hretry := h.follows.retry cfg.id
  rw [entry_of_mem h.follows.distinct hcfg, Option.bind_some, hnone] at hretry
  have hempty : m.sampler.retries[cfg.id]? = none := hretry
  unfold Sampler.backedOff at hback
  rw [hempty] at hback
  cases hback

theorem Known.setWake {m : Sampling} (h : Known m) (wake : Bool) : Known (m.setWake wake) where
  follows := ⟨h.follows.distinct, h.follows.configs, h.follows.options, h.follows.normal,
    h.follows.limit, h.follows.source, h.follows.item, h.follows.kept, h.follows.dropped,
    h.follows.retry⟩
  pending := h.pending

/-! ## Updates and the end of the context -/

theorem endContext_sampler (m : Sampling) : m.endContext.sampler = m.sampler := by
  unfold Sampling.endContext
  split <;> rfl

section Steps

variable {R : Runner} (h : Awake R)

include h

theorem Awake.replace {configs : List ClusterConfig} (hd : DistinctIDs configs)
    (options : Options) : Awake (R.replace configs options) where
  known := (h.known.update hd options).setWake _
  sourced := h.sourced.cons fun _ _ _ heq => nomatch heq
  under := h.under
  captured _ _ := .inl (.inr (Nat.succ_pos _))
  interval _ _ _ := .inl (.inr (Nat.succ_pos _))
  returned := h.returned
  working r hr hlasts :=
    have hworking := h.working r hr hlasts
    ⟨hworking.lasts, hworking.stays, hworking.result, fun hcaptured => nomatch hcaptured⟩
  measured _ _ hcaptured := nomatch hcaptured

theorem Awake.send : Awake R.send := by
  unfold Runner.send
  split
  · exact h
  · exact
      { known := h.known.setWake true
        sourced := h.sourced
        under := h.under
        captured := fun _ _ => .inl (.inl rfl)
        interval := fun _ _ _ => .inl (.inl rfl)
        returned := h.returned
        working := fun r hr hlasts =>
          have hworking := h.working r hr hlasts
          ⟨hworking.lasts, hworking.stays, hworking.result, hworking.covers⟩
        measured := h.measured }

theorem Awake.endContext : Awake R.endContext where
  known := h.known.endContext
  sourced := by
    show Sourced R.sampling.endContext.log
    unfold Sampling.endContext
    split
    · exact h.sourced
    · exact h.sourced.cons fun _ _ _ heq => nomatch heq
  under r hr := by
    have hended : R.sampling.endContext.refresh = some r := hr
    unfold Sampling.endContext at hended
    split at hended
    · exact h.under r hended
    · next r' hr' => exact h.under r' hr'
  captured _ hlasts := nomatch hlasts
  interval i fired hi := by
    show (R.sampling.endContext.sampler.wake = true ∨ _) ∨
      i = R.sampling.endContext.sampler.options.interval
    rw [endContext_sampler]
    exact h.interval i fired hi
  returned _ := rfl
  working _ _ hlasts := nomatch hlasts
  measured _ hlasts := nomatch hlasts

end Steps

/-! ## A refresh -/

theorem start_due {m : Sampling} (hm : m.refresh = none) (now : Int) :
    let configs := m.sampler.configs.filter fun cfg => !m.sampler.backedOff now cfg
    (configs = [] ∧ m.start now = (m.note (.started now)).note .finished) ∨
      (configs ≠ [] ∧ m.start now =
        { m.note (.started now) with
          refresh := some
            { maximum := m.sampler.options.maxConcurrent
              workers := configs.map fun cfg => ⟨cfg, .waiting⟩
              results := []
              ended := false } }) := by
  intro configs
  unfold Sampling.start
  rw [hm]
  by_cases hempty : configs.isEmpty = true
  · exact Or.inl ⟨List.isEmpty_iff.1 hempty, if_pos hempty⟩
  · exact Or.inr ⟨fun hnil => hempty (List.isEmpty_iff.2 hnil), if_neg hempty⟩

/-- What is not due has been measured. -/
theorem Known.due_or_measured {m : Sampling} (h : Known m) (now : Int) {cfg : ClusterConfig}
    (hcfg : cfg ∈ m.sampler.configs) :
    cfg ∈ m.sampler.configs.filter (fun cfg => !m.sampler.backedOff now cfg) ∨
      Measures m cfg := by
  cases hback : m.sampler.backedOff now cfg with
  | true => exact Or.inr (h.backedOff hcfg hback)
  | false => exact Or.inl (List.mem_filter.2 ⟨hcfg, by rw [hback]; rfl⟩)

theorem Awake.start {R : Runner} (h : Awake R) (now : Int) : Awake (R.start now) := by
  unfold Runner.start
  split
  · next hloop hnone =>
      split
      · next hended =>
          exact
            { known := h.known
              sourced := h.sourced
              under := fun r hr => nomatch hnone.symm.trans hr
              captured := fun _ hlasts => nomatch hended.symm.trans hlasts
              interval := fun _ _ hi => nomatch hi
              returned := fun hr => nomatch hr
              working := fun r hr => nomatch hnone.symm.trans hr
              measured := fun _ hlasts => nomatch hended.symm.trans hlasts }
      · have hknown := h.known.start now
        have hstarted : Sourced (Moment.started now :: R.sampling.log) :=
          h.sourced.cons fun _ _ _ heq => nomatch heq
        have hquiet : Moment.Quiet (.started now) := trivial
        have hfinished : Moment.Quiet .finished := trivial
        rcases start_due hnone now with ⟨hnil, heq⟩ | ⟨-, heq⟩
        · rw [heq] at hknown
          simp only [heq]
          refine
            { known := hknown
              sourced := hstarted.cons fun _ _ _ heq => nomatch heq
              under := fun r hr => nomatch hnone.symm.trans hr
              captured := fun _ _ => .inr rfl
              interval := fun i fired hi => ?_
              returned := fun hr => ?_
              working := fun r hr => nomatch hnone.symm.trans hr
              measured := fun _ _ _ cfg hcfg => ?_ }
          · rw [show ((R.sampling.note (.started now)).note .finished).refresh = none from hnone]
              at hi
            cases hi
          · rw [show ((R.sampling.note (.started now)).note .finished).refresh = none from hnone]
              at hr
            cases hr
          · refine hfinished.measures.2 (hquiet.measures.2 ?_)
            rcases h.known.due_or_measured now hcfg with hdue | hmeasured
            · rw [hnil] at hdue
              exact absurd hdue List.not_mem_nil
            · exact hmeasured
        · rw [heq] at hknown
          simp only [heq]
          refine
            { known := hknown
              sourced := hstarted
              under := fun _ _ => rfl
              captured := fun _ _ => .inr rfl
              interval := fun _ _ hi => nomatch hi
              returned := fun hr => nomatch hr
              working := fun r hr _ => ?_
              measured := fun hloop => absurd rfl hloop }
          obtain rfl := Option.some.inj hr
          have hwaiting : ∀ w ∈ ((R.sampling.sampler.configs.filter fun cfg =>
              !R.sampling.sampler.backedOff now cfg).map fun cfg => Worker.mk cfg .waiting),
              w.progress = .waiting := by
            intro w hw
            obtain ⟨cfg, -, rfl⟩ := List.mem_map.1 hw
            rfl
          refine ⟨rfl, fun w hw hgone => ?_, fun w hw hgone => ?_, fun _ cfg hcfg => ?_⟩
          · rw [hwaiting w hw] at hgone
            cases hgone
          · rw [hwaiting w hw] at hgone
            cases hgone
          · rcases h.known.due_or_measured now hcfg with hdue | hmeasured
            · exact .inl ⟨⟨cfg, .waiting⟩, List.mem_map.2 ⟨cfg, hdue, rfl⟩, rfl⟩
            · exact .inr (hquiet.measures.2 hmeasured)
  · exact h

/-- A step of a goroutine of `Refresh`: the sampler stays, and the log has at
most one moment more. -/
theorem Awake.goroutine {R : Runner} (h : Awake R) {m : Sampling} {r r' : Refresh}
    (hr : R.sampling.refresh = some r) (hr' : m.refresh = some r')
    (hsampler : m.sampler = R.sampling.sampler)
    (hlog : m.log = R.sampling.log ∨ ∃ x : Moment, x.Quiet ∧ capturedIn (x :: R.sampling.log) =
      capturedIn R.sampling.log ∧ m.log = x :: R.sampling.log)
    (hknown : Known m) (hsourced : Sourced m.log)
    (hworking : Working R.sampling r → (capturedIn m.log = true → ∀ cfg ∈ m.sampler.configs,
      (∃ w ∈ r.workers, w.cfg = cfg) ∨ Measures m cfg) → Working m r') :
    Awake { R with sampling := m } := by
  have hcaptured : capturedIn m.log = capturedIn R.sampling.log := by
    rcases hlog with hlog | ⟨x, -, hx, hlog⟩
    · rw [hlog]
    · rw [hlog, hx]
  have hmeasures : ∀ cfg, Measures m cfg ↔ Measures R.sampling cfg := by
    intro cfg
    unfold Measures
    rcases hlog with hlog | ⟨x, hx, -, hlog⟩
    · rw [hlog]
    · rw [hlog, commits_quiet hx]
  have hloop : R.loop = .refresh := h.under r hr
  have hbusy : ¬R.AtRefresh := fun hat => nomatch hat.2.symm.trans hr
  exact
    { known := hknown
      sourced := hsourced
      under := fun _ _ => hloop
      captured := fun _ hlasts => by
        show (m.sampler.wake = true ∨ _) ∨ capturedIn m.log = true
        rw [hsampler, hcaptured]
        exact h.captured hbusy hlasts
      interval := fun _ _ hi => nomatch hloop.symm.trans hi
      returned := h.returned
      working := fun r'' hr'' hlasts => by
        obtain rfl := Option.some.inj (hr'.symm.trans hr'')
        refine hworking (h.working r hr hlasts) fun hnew cfg hcfg => ?_
        rw [hmeasures]
        exact (h.working r hr hlasts).covers (hcaptured ▸ hnew) cfg (hsampler ▸ hcfg)
      measured := fun hne => absurd hloop hne }

/-- The goroutines after one of them has gone on. -/
theorem setProgress_covers {r : Refresh} {k : Nat} {w : Worker} (hw : r.workers[k]? = some w)
    (progress : Progress) {cfg : ClusterConfig} (h : ∃ w' ∈ r.workers, w'.cfg = cfg) :
    ∃ w' ∈ (r.setProgress k w progress).workers, w'.cfg = cfg := by
  obtain ⟨hlt, hget⟩ := List.getElem?_eq_some_iff.1 hw
  obtain ⟨w', hmem, hcfg⟩ := h
  obtain ⟨j, hj, rfl⟩ := List.getElem_of_mem hmem
  by_cases hkj : k = j
  · subst hkj
    refine ⟨{ w with progress := progress }, List.mem_iff_getElem?.2 ⟨k, ?_⟩, ?_⟩
    · exact List.getElem?_set_self hlt
    · rw [← hcfg, hget]
  · refine ⟨r.workers[j], List.mem_iff_getElem?.2 ⟨j, ?_⟩, hcfg⟩
    show (r.workers.set k _)[j]? = _
    rw [List.getElem?_set_ne hkj]
    exact List.getElem?_eq_getElem hj

/-- What a goroutine can do when its turn comes. -/
theorem call_cases (m : Sampling) (k : Nat) : m.call k = m ∨ ∃ r w, m.refresh = some r ∧
    r.workers[k]? = some w ∧
    m.call k = { m.note (.called w.cfg) with refresh := some (r.setProgress k w .calling) } := by
  unfold Sampling.call
  split
  · exact .inl rfl
  · next r hr =>
      split
      · exact .inl rfl
      · next w hw =>
          split
          · exact .inr ⟨r, w, hr, hw, rfl⟩
          · exact .inl rfl

theorem giveUp_cases (m : Sampling) (k : Nat) : m.giveUp k = m ∨ ∃ r r', m.refresh = some r ∧
    r.ended = true ∧ m.giveUp k = { m with refresh := some r' } := by
  unfold Sampling.giveUp
  split
  · exact .inl rfl
  · next r hr =>
      split
      · exact .inl rfl
      · split
        · next hready => exact .inr ⟨r, _, hr, hready.2, rfl⟩
        · exact .inl rfl

theorem answer_cases (m : Sampling) (k : Nat) (snapshot : Snapshot)
    (via : Option Cluster.Client) (now : Int) : m.answer k snapshot via now = m ∨
    ∃ r w result, m.refresh = some r ∧ r.workers[k]? = some w ∧ result.cfg = w.cfg ∧
      m.answer k snapshot via now =
        { m.note (.answered w.cfg snapshot now) with
          refresh := some
            { r.setProgress k w .returned with results := r.results ++ [result] } } := by
  unfold Sampling.answer
  split
  · exact .inl rfl
  · next r hr =>
      split
      · exact .inl rfl
      · next w hw =>
          split
          · exact .inr ⟨r, w, _, hr, hw, rfl, rfl⟩
          · exact .inl rfl

theorem Awake.call {R : Runner} (h : Awake R) (k : Nat) :
    Awake (R.onSampling fun m => m.call k) := by
  have hknown := h.known.call k
  show Awake { R with sampling := R.sampling.call k }
  rcases call_cases R.sampling k with heq | ⟨r, w, hr, hw, heq⟩
  · rw [heq]
    exact h
  · rw [heq] at hknown ⊢
    refine h.goroutine hr rfl rfl (.inr ⟨.called w.cfg, trivial, rfl, rfl⟩) hknown
      (h.sourced.cons fun _ _ _ heq => nomatch heq) fun hworking hcovers => ?_
    refine ⟨hworking.lasts, fun w' hw' => ?_, fun w' hw' hreturned => ?_,
      fun hcaptured cfg hcfg => ?_⟩
    · rcases List.mem_or_eq_of_mem_set hw' with hold | rfl
      · exact hworking.stays w' hold
      · exact fun hgone => nomatch hgone
    · rcases List.mem_or_eq_of_mem_set hw' with hold | rfl
      · exact hworking.result w' hold hreturned
      · cases hreturned
    · exact (hcovers hcaptured cfg hcfg).imp_left (setProgress_covers hw .calling)

theorem Awake.giveUp {R : Runner} (h : Awake R) (k : Nat) :
    Awake (R.onSampling fun m => m.giveUp k) := by
  have hknown := h.known.giveUp k
  show Awake { R with sampling := R.sampling.giveUp k }
  rcases giveUp_cases R.sampling k with heq | ⟨r, r', hr, hended, heq⟩
  · rw [heq]
    exact h
  · rw [heq] at hknown ⊢
    refine h.goroutine hr rfl rfl (.inl rfl) hknown h.sourced fun hworking _ => ?_
    exact absurd (hworking.lasts.symm.trans hended) Bool.false_ne_true

theorem Awake.answer {R : Runner} (h : Awake R) (k : Nat) {snapshot : Snapshot}
    (hsource : KafkaSource.Returns snapshot) (via : Option Cluster.Client) (now : Int) :
    Awake (R.onSampling fun m => m.answer k snapshot via now) := by
  have hknown := h.known.answer k snapshot via now
  show Awake { R with sampling := R.sampling.answer k snapshot via now }
  rcases answer_cases R.sampling k snapshot via now with
    heq | ⟨r, w, result, hr, hw, hresult, heq⟩
  · rw [heq]
    exact h
  · rw [heq] at hknown ⊢
    refine h.goroutine hr rfl rfl (.inr ⟨.answered w.cfg snapshot now, trivial, rfl, rfl⟩) hknown
      (h.sourced.cons fun _ _ _ heq => ?_) fun hworking hcovers => ?_
    · obtain ⟨-, rfl, -⟩ := Moment.answered.inj heq
      exact hsource.settled
    · refine ⟨hworking.lasts, fun w' hw' => ?_, fun w' hw' hreturned => ?_,
        fun hcaptured cfg hcfg => ?_⟩
      · rcases List.mem_or_eq_of_mem_set hw' with hold | rfl
        · exact hworking.stays w' hold
        · exact fun hgone => nomatch hgone
      · rcases List.mem_or_eq_of_mem_set hw' with hold | rfl
        · obtain ⟨x, hx, hcfg⟩ := hworking.result w' hold hreturned
          exact ⟨x, List.mem_append_left _ hx, hcfg⟩
        · exact ⟨result, List.mem_append_right _ (List.mem_singleton_self _), hresult⟩
      · exact (hcovers hcaptured cfg hcfg).imp_left (setProgress_covers hw .returned)

theorem commitResults_wake (m : Sampling) (clock : Nat → Int) (xs : List (Result × Nat)) :
    (m.commitResults clock xs).sampler.wake = m.sampler.wake := by
  refine run_invariant (P := fun n : Sampling => n.sampler.wake = m.sampler.wake)
    (fun n x hn => ?_) rfl xs
  rw [← hn]
  unfold Sampling.commitResult
  split
  · rfl
  · show (n.sampler.keepResult _ _ _).wake = _
    unfold Sampler.keepResult
    split
    · split <;> rfl
    · split <;> rfl

/-- Every goroutine of a complete refresh has sent its result. -/
theorem Working.result_of_complete {m : Sampling} {r : Refresh} (h : Working m r)
    (hcomplete : r.complete = true) {w : Worker} (hw : w ∈ r.workers) :
    ∃ x ∈ r.results.zipIdx, x.1.cfg = w.cfg := by
  have hended : (w.progress == .returned || w.progress == .gaveUp) = true :=
    List.all_eq_true.1 hcomplete w hw
  have hreturned : w.progress = .returned := by
    rcases Bool.or_eq_true_iff.1 hended with hreturned | hgone
    · exact eq_of_beq hreturned
    · exact absurd (eq_of_beq hgone) (h.stays w hw)
  obtain ⟨x, hx, hcfg⟩ := h.result w hw hreturned
  obtain ⟨i, hi, rfl⟩ := List.getElem_of_mem hx
  refine ⟨(r.results[i], i), List.mem_iff_getElem?.2 ⟨i, ?_⟩, hcfg⟩
  rw [List.getElem?_zipIdx, List.getElem?_eq_getElem hi]
  simp

/-- The end of a refresh. If no `Update` came in between, every cluster that
was due has a result, and it is stored. -/
theorem Awake.commit {R : Runner} (h : Awake R) (clock : Nat → Int) : Awake (R.commit clock) := by
  unfold Runner.commit
  split
  · exact h
  · next r hr =>
      split
      · next hcomplete =>
          have hknown := h.known.commit clock
          have hloop := h.under r hr
          have hbusy : ¬R.AtRefresh := fun hat => nomatch hat.2.symm.trans hr
          set m := R.sampling.commitResults clock r.results.zipIdx with hm
          have heq : R.sampling.commit clock = { m.note .finished with refresh := none } := by
            unfold Sampling.commit
            rw [hr]
            exact if_pos hcomplete
          have hcapturedIn : capturedIn m.log = capturedIn R.sampling.log :=
            capturedIn_commitResults ..
          have hconfigs : m.sampler.configs = R.sampling.sampler.configs := by
            rw [show m.sampler = _ from R.sampling.commitResults_sampled clock r.results.zipIdx]
            rfl
          have hquiet : Moment.Quiet .finished := trivial
          rw [heq] at hknown ⊢
          refine
            { known := hknown
              sourced := (sourced_commitResults h.sourced clock _).cons fun _ _ _ heq => nomatch heq
              under := fun _ hnone => nomatch hnone
              captured := fun _ hlasts => ?_
              interval := fun _ _ hi => nomatch hi
              returned := fun hreturned => nomatch hreturned
              working := fun _ hnone => nomatch hnone
              measured := fun _ hlasts hcaptured cfg hcfg => ?_ }
          · show (m.sampler.wake = true ∨ _) ∨ capturedIn m.log = true
            rw [commitResults_wake, hcapturedIn]
            exact h.captured hbusy hlasts
          · have hworking := h.working r hr hlasts
            have hcfg' : cfg ∈ R.sampling.sampler.configs := hconfigs ▸ hcfg
            refine hquiet.measures.2 ?_
            rcases hworking.covers (hcapturedIn ▸ hcaptured) cfg hcfg' with ⟨w, hw, rfl⟩ | hbefore
            · exact measures_commitResults_own h.known.follows.distinct hcfg' clock
                (hworking.result_of_complete hcomplete hw)
            · exact measures_commitResults hbefore clock _
      · exact h

/-! ## The loop -/

section Steps

variable {R : Runner} (h : Awake R)

include h

theorem Awake.readInterval : Awake R.readInterval := by
  unfold Runner.readInterval
  split
  · next hloop =>
      have hbusy : ¬R.AtRefresh := fun hat => nomatch hloop.symm.trans hat.1
      exact
        { known := h.known
          sourced := h.sourced
          under := fun r hr => nomatch hloop.symm.trans (h.under r hr)
          captured := fun _ hlasts => h.captured hbusy hlasts
          interval := fun i fired hi => .inr (Loop.waiting.inj hi).1.symm
          returned := fun hreturned => nomatch hreturned
          working := h.working
          measured := fun _ hlasts => h.measured (fun hr => nomatch hloop.symm.trans hr) hlasts }
  · exact h

theorem Awake.fire : Awake R.fire := by
  unfold Runner.fire
  split
  · next interval fired hloop =>
      have hbusy : ¬R.AtRefresh := fun hat => nomatch hloop.symm.trans hat.1
      exact
        { known := h.known
          sourced := h.sourced
          under := fun r hr => nomatch hloop.symm.trans (h.under r hr)
          captured := fun _ hlasts => h.captured hbusy hlasts
          interval := fun i _ hi => by
            obtain ⟨rfl, -⟩ := Loop.waiting.inj hi
            exact h.interval interval fired hloop
          returned := fun hreturned => nomatch hreturned
          working := h.working
          measured := fun _ hlasts => h.measured (fun hr => nomatch hloop.symm.trans hr) hlasts }
  · exact h

/-- The loop goes back to its call of `Refresh`. -/
theorem Awake.again {m : Sampling} (hloop : R.loop ≠ .refresh) (hknown : Known m)
    (hlog : m.log = R.sampling.log) (hrefresh : m.refresh = R.sampling.refresh) :
    Awake { R with sampling := m, loop := .refresh } := by
  have hnone : ∀ r, m.refresh ≠ some r := fun r hr => hloop (h.under r (hrefresh ▸ hr))
  exact
    { known := hknown
      sourced := hlog ▸ h.sourced
      under := fun _ _ => rfl
      captured := fun hbusy => absurd ⟨rfl, Option.eq_none_iff_forall_ne_some.2 hnone⟩ hbusy
      interval := fun _ _ hi => nomatch hi
      returned := fun hreturned => nomatch hreturned
      working := fun r hr => absurd hr (hnone r)
      measured := fun hne => absurd rfl hne }

theorem Awake.woken : Awake R.woken := by
  unfold Runner.woken
  split
  · next hloop =>
      split
      · exact h.again (fun hr => nomatch hloop.symm.trans hr) (h.known.setWake false) rfl rfl
      · exact h
  · exact h

theorem Awake.ticked : Awake R.ticked := by
  unfold Runner.ticked
  split
  · next hloop => exact h.again (fun hr => nomatch hloop.symm.trans hr) h.known rfl rfl
  · exact h

theorem Awake.done : Awake R.done := by
  unfold Runner.done
  split
  · next hloop =>
      split
      · next hended =>
          exact
            { known := h.known
              sourced := h.sourced
              under := fun r hr => nomatch hloop.symm.trans (h.under r hr)
              captured := fun _ hlasts => nomatch hended.symm.trans hlasts
              interval := fun _ _ hi => nomatch hi
              returned := fun _ => hended
              working := h.working
              measured := fun _ hlasts => nomatch hended.symm.trans hlasts }
      · exact h
  · exact h

theorem Awake.step {e : RunEvent} (he : e.Real) : Awake (R.step e) := by
  cases e with
  | replace configs options => exact h.replace he options
  | send => exact h.send
  | endContext => exact h.endContext
  | start now => exact h.start now
  | call k => exact h.call k
  | giveUp k => exact h.giveUp k
  | answer k snapshot via now => exact h.answer k he via now
  | commit clock => exact h.commit clock
  | readInterval => exact h.readInterval
  | fire => exact h.fire
  | woken => exact h.woken
  | ticked => exact h.ticked
  | done => exact h.done

end Steps

theorem Awake.new {configs : List ClusterConfig} (hd : DistinctIDs configs) (options : Options) :
    Awake (Runner.new configs options) where
  known := Known.new hd options
  sourced _ _ _ hmem := nomatch List.mem_singleton.1 hmem
  under _ hr := nomatch hr
  captured hbusy := absurd ⟨rfl, rfl⟩ hbusy
  interval _ _ hi := nomatch hi
  returned hreturned := nomatch hreturned
  working _ hr := nomatch hr
  measured hne := absurd rfl hne

/-! ## The result -/

theorem Awake.settled {R : Runner} (h : Awake R) {cfg : ClusterConfig}
    (hmeasured : Measures R.sampling cfg) {s : Snapshot} (hs : Shows R.sampling.log cfg s) : s.status.Settled := by
  rcases hs.content with ⟨hnone, -⟩ | ⟨c, rest, -, hshown, -, raw, now, hanswered, hraw⟩
  · exact absurd hnone hmeasured
  · rw [hshown]
    show c.result.snapshot.status.Settled
    rw [hraw]
    exact normalizeSnapshot_settled (h.sourced _ raw now hanswered) _ _

/-- However updates, the goroutines of a refresh, the source and the timer
interleave with the loop: when it waits with no token there and no `Update` on
the way, its timer runs on the present interval, and every cluster that is
enabled is shown as it was measured last through its present connection, online
or offline and not as loading. -/
theorem idle_sampled {configs : List ClusterConfig} (hd : DistinctIDs configs) (options : Options)
    {events : List RunEvent} (hevents : ∀ e ∈ events, e.Real) {i : Int} {fired : Bool}
    (hloop : (run Runner.step (Runner.new configs options) events).loop = .waiting i fired)
    (hended : (run Runner.step (Runner.new configs options) events).ended = false)
    (hdue : ¬(run Runner.step (Runner.new configs options) events).Due) :
    let m := (run Runner.step (Runner.new configs options) events).sampling
    i = m.sampler.options.interval ∧
      List.Forall₂ (fun cfg s => Shows m.log cfg s ∧ commits cfg.id m.log ≠ [] ∧ s.status.Settled)
        (enabledIn m.log) m.sampler.read.1 := by
  intro m
  have h : Awake (run Runner.step (Runner.new configs options) events) :=
    run_invariant_of (P := Awake) (A := RunEvent.Real) (fun _ _ he hR => Awake.step hR he)
      (Awake.new hd options) hevents
  refine ⟨(h.interval i fired hloop).resolve_left hdue, ?_⟩
  have hbusy : ¬(run Runner.step (Runner.new configs options) events).AtRefresh :=
    fun hat => nomatch hloop.symm.trans hat.1
  have hcaptured := (h.captured hbusy hended).resolve_left hdue
  rw [← h.known.follows.configs, Sampler.read, List.forall₂_map_right_iff, List.forall₂_same]
  intro cfg hcfg
  have hmeasured := h.measured (fun hr => nomatch hloop.symm.trans hr) hended hcaptured cfg hcfg
  have hshows := h.known.shows hcfg
  exact ⟨hshows, hmeasured, h.settled hmeasured hshows⟩

/-! An `Update` comes while the source is working. The loop refreshes once more
before it rests. -/

def updatedMeanwhile : List RunEvent :=
  [.start 0, .call 0, .replace [localCluster "b:9092"] ⟨0, 0, 0⟩, .send,
    .answer 0 (KafkaSource.offline "closed") none 5000000, .commit fun _ => 6, .readInterval,
    .woken, .start 7, .call 0, .answer 0 (KafkaSource.offline "refused") none 8000000,
    .commit fun _ => 9, .readInterval]

theorem offline_returns (error : String) :
    KafkaSource.Returns (KafkaSource.offline error) :=
  ⟨localCluster "a:9092", none, (), trivial, (0 : Nat), (), trivial, some .stale, (), trivial,
    error, (), trivial, rfl, rfl⟩

theorem updatedMeanwhile_real : ∀ e ∈ updatedMeanwhile, e.Real := by
  simp [updatedMeanwhile, RunEvent.Real, localCluster_distinct, offline_returns]

theorem idle_sampled_updatedMeanwhile :
    let m := (run Runner.step (Runner.new [localCluster "a:9092"] ⟨0, 0, 0⟩)
      updatedMeanwhile).sampling
    m.sampler.read.1.map Snapshot.error = ["refused"] ∧
      List.Forall₂ (fun cfg s => Shows m.log cfg s ∧ commits cfg.id m.log ≠ [] ∧ s.status.Settled)
        [localCluster "b:9092"] m.sampler.read.1 := by
  have hwaits : (run Runner.step (Runner.new [localCluster "a:9092"] ⟨0, 0, 0⟩)
      updatedMeanwhile).loop = .waiting (15 * second) false := rfl
  exact ⟨rfl, (idle_sampled (localCluster_distinct "a:9092") ⟨0, 0, 0⟩ updatedMeanwhile_real
    hwaits rfl (by simp [Runner.Due]; decide)).2⟩

end KafkaManager.Dashboard
