import KafkaManager.Proofs.Sampling

/-!
# When the source is called again

A cluster that is offline is tried again after the interval, doubled with each
failure and at most five minutes. The retry entry says so in every state of
every run (`Follows.retry`); this file is about what a `Refresh` makes of it.

The log is cut at the starts. What follows a start, up to the next one, is a
round. A round calls the source for nothing that is backed off at its start,
and if it finishes without its context ending, for all the rest. The invariant
compares the goroutines of the `Refresh` under way with the round so far.
-/

namespace KafkaManager.Dashboard

open Lib

/-- A `Refresh` that starts now is to call the source for this cluster. -/
def Due (log : List Moment) (now : Int) (cfg : ClusterConfig) : Prop :=
  cfg ∈ enabledIn log ∧ ∀ retry, retryOf (commits cfg.id log) = some retry → retry.after ≤ now

def Moment.Starts : Moment → Prop
  | .started _ => True
  | .updated .. | .ended | .called _ | .answered .. | .committed _ | .finished => False

/-- A round of what happened since a start. -/
structure Fair (round earlier : List Moment) (now : Int) : Prop where
  only : ∀ cfg, Moment.called cfg ∈ round → Due earlier now cfg
  all : Moment.finished ∈ round → Moment.ended ∉ round → ∀ cfg, Due earlier now cfg →
    Moment.called cfg ∈ round

def FairLog (log : List Moment) : Prop :=
  ∀ newest round now earlier, log = newest ++ (round ++ .started now :: earlier) →
    (∀ x ∈ round, ¬x.Starts) → Fair round earlier now

/-- The `Refresh` under way has done what its round says. -/
structure Round (r : Refresh) (round earlier : List Moment) (now : Int) : Prop where
  due : ∀ cfg, cfg ∈ r.workers.map Worker.cfg ↔ Due earlier now cfg
  called : ∀ w ∈ r.workers, w.progress = .calling ∨ w.progress = .returned →
    Moment.called w.cfg ∈ round
  gaveUp : ∀ w ∈ r.workers, w.progress = .gaveUp → Moment.ended ∈ round
  ended : r.ended = true → Moment.ended ∈ round

structure Rounds (m : Sampling) : Prop where
  fair : FairLog m.log
  maximum : ∀ r, m.refresh = some r → 1 ≤ r.maximum
  current : ∀ r, m.refresh = some r → ∀ round now earlier,
    m.log = round ++ .started now :: earlier → (∀ x ∈ round, ¬x.Starts) → Round r round earlier now

/-! ## Rounds that grow -/

/-- A new moment is in the last round, and says something new of that one only. -/
theorem FairLog.cons {log : List Moment} (h : FairLog log) {x : Moment}
    (hx : ¬x.Starts → ∀ round now earlier, log = round ++ .started now :: earlier →
      (∀ y ∈ round, ¬y.Starts) → Fair (x :: round) earlier now) : FairLog (x :: log) := by
  intro newest round now earlier hlog hround
  cases newest with
  | cons y newest => exact h newest round now earlier (List.cons.inj hlog).2 hround
  | nil =>
      cases round with
      | nil => exact ⟨fun _ hmem => (nomatch hmem), fun hmem => (nomatch hmem)⟩
      | cons y round =>
          obtain ⟨rfl, hrest⟩ := List.cons.inj hlog
          exact hx (hround _ List.mem_cons_self) round now earlier hrest fun z hz =>
            hround z (List.mem_cons_of_mem _ hz)

/-- What is neither a call nor the end of a `Refresh`. -/
def Moment.Idle : Moment → Prop
  | .called _ | .finished => False
  | .updated .. | .started _ | .ended | .answered .. | .committed _ => True

theorem Fair.idle {round earlier : List Moment} {now : Int} (h : Fair round earlier now)
    {x : Moment} (hx : x.Idle) : Fair (x :: round) earlier now where
  only cfg hmem := by
    rcases List.mem_cons.1 hmem with rfl | hmem
    · exact hx.elim
    · exact h.only cfg hmem
  all hfinished hended cfg hdue := by
    have hround : Moment.ended ∉ round := fun hmem => hended (List.mem_cons_of_mem _ hmem)
    rcases List.mem_cons.1 hfinished with rfl | hfinished
    · exact hx.elim
    · exact List.mem_cons_of_mem _ (h.all hfinished hround cfg hdue)

theorem FairLog.idle {log : List Moment} (h : FairLog log) {x : Moment} (hx : x.Idle) :
    FairLog (x :: log) :=
  h.cons fun _ round now earlier hlog hround => (h [] round now earlier hlog hround).idle hx

theorem Round.cons {r : Refresh} {round earlier : List Moment} {now : Int}
    (h : Round r round earlier now) (x : Moment) : Round r (x :: round) earlier now where
  due := h.due
  called w hw hp := List.mem_cons_of_mem _ (h.called w hw hp)
  gaveUp w hw hp := List.mem_cons_of_mem _ (h.gaveUp w hw hp)
  ended hended := List.mem_cons_of_mem _ (h.ended hended)

/-- One goroutine goes on. -/
theorem Round.setProgress {r : Refresh} {round earlier : List Moment} {now : Int}
    (h : Round r round earlier now) {k : Nat} {w : Worker} (hk : r.workers[k]? = some w)
    {progress : Progress}
    (hcalled : progress = .calling ∨ progress = .returned → Moment.called w.cfg ∈ round)
    (hgaveUp : progress = .gaveUp → Moment.ended ∈ round) :
    Round (r.setProgress k w progress) round earlier now where
  due := by
    have hcfgs : (r.workers.set k { w with progress }).map Worker.cfg =
        r.workers.map Worker.cfg := by
      rw [List.map_set]
      refine List.ext_getElem? fun i => ?_
      rw [List.getElem?_set]
      split
      · next hi =>
          subst hi
          rw [List.getElem?_map, hk]
          split
          · rfl
          · next hlen =>
              rw [List.length_map, Nat.not_lt] at hlen
              rw [List.getElem?_eq_none hlen] at hk
              cases hk
      · rfl
    show ∀ cfg, cfg ∈ (r.workers.set k { w with progress }).map Worker.cfg ↔ _
    rw [hcfgs]
    exact h.due
  called v hv hp := by
    rcases List.mem_or_eq_of_mem_set hv with hv | rfl
    · exact h.called v hv hp
    · exact hcalled hp
  gaveUp v hv hp := by
    rcases List.mem_or_eq_of_mem_set hv with hv | rfl
    · exact h.gaveUp v hv hp
    · exact hgaveUp hp
  ended := h.ended

/-- The end of a `Refresh`. -/
theorem Round.finish {r : Refresh} {round earlier : List Moment} {now : Int}
    (h : Round r round earlier now) (hfair : Fair round earlier now)
    (hcomplete : r.complete = true) : Fair (.finished :: round) earlier now where
  only cfg hmem := by
    rcases List.mem_cons.1 hmem with heq | hmem
    · cases heq
    · exact hfair.only cfg hmem
  all _ hended cfg hdue := by
    refine List.mem_cons_of_mem _ ?_
    obtain ⟨w, hw, rfl⟩ := List.mem_map.1 ((h.due cfg).2 hdue)
    have hprogress := List.all_eq_true.1 hcomplete w hw
    rw [Bool.or_eq_true, beq_iff_eq, beq_iff_eq] at hprogress
    rcases hprogress with hreturned | hgaveUp
    · exact h.called w hw (.inr hreturned)
    · exact absurd (List.mem_cons_of_mem _ (h.gaveUp w hw hgaveUp)) hended

/-! ## Steps -/

/-- What is not a start is in the last round. -/
theorem round_cons {log : List Moment} {x : Moment} (hx : ¬x.Starts) {round : List Moment}
    {now : Int} {earlier : List Moment} (hlog : x :: log = round ++ .started now :: earlier) :
    ∃ rest, round = x :: rest ∧ log = rest ++ .started now :: earlier := by
  cases round with
  | nil =>
      obtain ⟨rfl, -⟩ := List.cons.inj hlog
      exact absurd trivial hx
  | cons y rest =>
      obtain ⟨rfl, hrest⟩ := List.cons.inj hlog
      exact ⟨rest, rfl, hrest⟩

section Steps

variable {m : Sampling} (h : Rounds m)

include h

/-- Something happened that is not the work of the `Refresh`. -/
theorem Rounds.idle {x : Moment} (hidle : x.Idle) (hx : ¬x.Starts) (s : Sampler) :
    Rounds { sampler := s, refresh := m.refresh, log := x :: m.log } where
  fair := h.fair.idle hidle
  maximum := h.maximum
  current r hr round now earlier hlog hround := by
    obtain ⟨rest, rfl, hrest⟩ := round_cons hx hlog
    refine (h.current r hr rest now earlier hrest fun y hy => ?_).cons x
    exact hround y (List.mem_cons_of_mem _ hy)

/-- The `Refresh` went on and something happened. -/
theorem Rounds.grow {r r' : Refresh} (hr : m.refresh = some r) (hmax : r'.maximum = r.maximum)
    {x : Moment} (hx : ¬x.Starts)
    (hstep : ∀ round earlier now, Round r round earlier now → Fair round earlier now →
      Round r' (x :: round) earlier now ∧ Fair (x :: round) earlier now) :
    Rounds { m.note x with refresh := some r' } where
  fair := h.fair.cons fun _ round now earlier hlog hround =>
    (hstep round earlier now (h.current r hr round now earlier hlog hround)
      (h.fair [] round now earlier hlog hround)).2
  maximum q hq := by
    obtain rfl := Option.some.inj hq
    rw [hmax]
    exact h.maximum r hr
  current q hq round now earlier hlog hround := by
    obtain rfl := Option.some.inj hq
    obtain ⟨rest, rfl, hrest⟩ := round_cons hx hlog
    have hrounds : ∀ y ∈ rest, ¬y.Starts := fun y hy => hround y (List.mem_cons_of_mem _ hy)
    exact (hstep rest earlier now (h.current r hr rest now earlier hrest hrounds)
      (h.fair [] rest now earlier hrest hrounds)).1

theorem Rounds.endContext : Rounds m.endContext := by
  unfold Sampling.endContext
  split
  · exact h
  · next r hr =>
      have hidle : Moment.ended.Idle := trivial
      refine h.grow hr ?_ (x := .ended) not_false fun round earlier now hround hfair =>
        ⟨?_, hfair.idle hidle⟩
      · rfl
      have hgrown := hround.cons .ended
      exact ⟨hgrown.due, hgrown.called, hgrown.gaveUp, fun _ => List.mem_cons_self⟩

theorem Rounds.call (k : Nat) : Rounds (m.call k) := by
  unfold Sampling.call
  split
  · exact h
  · next r hr =>
      split
      · exact h
      · next w hw =>
          split
          · refine h.grow hr ?_ (x := .called w.cfg) not_false
              fun round earlier now hround hfair => ⟨?_, ?_⟩
            · rfl
            · exact (hround.cons (.called w.cfg)).setProgress hw (fun _ => List.mem_cons_self)
                fun hp => nomatch hp
            · refine ⟨fun cfg hmem => ?_, fun hfinished hended cfg hdue => ?_⟩
              · rcases List.mem_cons.1 hmem with heq | hmem
                · obtain rfl := Moment.called.inj heq
                  exact (hround.due w.cfg).1
                    (List.mem_map_of_mem (List.mem_of_getElem? hw))
                · exact hfair.only cfg hmem
              · rcases List.mem_cons.1 hfinished with heq | hfinished
                · cases heq
                · exact List.mem_cons_of_mem _ (hfair.all hfinished
                    (fun hmem => hended (List.mem_cons_of_mem _ hmem)) cfg hdue)
          · exact h

theorem Rounds.giveUp (k : Nat) : Rounds (m.giveUp k) := by
  unfold Sampling.giveUp
  split
  · exact h
  · next r hr =>
      split
      · exact h
      · next w hw =>
          split
          · next hp =>
              refine ⟨h.fair, fun q hq => ?_, fun q hq round now earlier hlog hround => ?_⟩
              · obtain rfl := Option.some.inj hq
                exact h.maximum r hr
              · obtain rfl := Option.some.inj hq
                have hbefore := h.current r hr round now earlier hlog hround
                refine hbefore.setProgress hw (fun hp' => ?_) fun _ => hbefore.ended hp.2
                rcases hp' with hp' | hp' <;> cases hp'
          · exact h

theorem Rounds.answer (k : Nat) (snapshot : Snapshot) (via : Option Cluster.Client) (now : Int) :
    Rounds (m.answer k snapshot via now) := by
  unfold Sampling.answer
  split
  · exact h
  · next r hr =>
      split
      · exact h
      · next w hw =>
          split
          · next hp =>
              have hidle : (Moment.answered w.cfg snapshot now).Idle := trivial
              refine h.grow hr ?_ (x := .answered w.cfg snapshot now) not_false
                fun round earlier began hround hfair => ⟨?_, hfair.idle hidle⟩
              · rfl
              have hcalled := hround.called w (List.mem_of_getElem? hw) (.inl hp)
              have hreturned : Round (r.setProgress k w .returned) round earlier began :=
                hround.setProgress hw (fun _ => hcalled) fun hp' => nomatch hp'
              have hset := hreturned.cons (.answered w.cfg snapshot now)
              exact ⟨hset.due, hset.called, hset.gaveUp, hset.ended⟩
          · exact h

theorem Rounds.commitResult (result : Result) (now : Int) :
    Rounds (m.commitResult result now) := by
  unfold Sampling.commitResult
  split
  · exact h
  · next current _ =>
      have hidle : (Moment.committed ⟨result, now, m.sampler.options.interval⟩).Idle := trivial
      exact h.idle hidle not_false _

end Steps

/-! ## The start -/

/-- What `Refresh` captures is what is due. -/
theorem Follows.due {s : Sampler} {log : List Moment} (h : Follows s log) (now : Int)
    (cfg : ClusterConfig) :
    cfg ∈ s.configs.filter (fun cfg => !s.backedOff now cfg) ↔ Due log now cfg := by
  rw [List.mem_filter, Due, ← h.configs]
  refine and_congr_right fun hcfg => ?_
  have hretry := h.retry cfg.id
  rw [entry_of_mem h.distinct hcfg, Option.bind_some] at hretry
  unfold Sampler.backedOff
  rw [hretry]
  cases retryOf (commits cfg.id log) with
  | none => simp
  | some retry => simp

theorem round_started {log : List Moment} {now : Int} {round : List Moment} {now' : Int}
    {earlier : List Moment} (hlog : Moment.started now :: log = round ++ .started now' :: earlier)
    (hround : ∀ x ∈ round, ¬x.Starts) : round = [] ∧ now' = now ∧ earlier = log := by
  cases round with
  | nil =>
      obtain ⟨hnow, hrest⟩ := List.cons.inj hlog
      exact ⟨rfl, (Moment.started.inj hnow).symm, hrest.symm⟩
  | cons y rest =>
      obtain ⟨rfl, -⟩ := List.cons.inj hlog
      exact absurd trivial (hround _ List.mem_cons_self)

theorem Rounds.start {m : Sampling} (h : Rounds m) (hknown : Known m) (now : Int) :
    Rounds (m.start now) := by
  have hidle : (Moment.started now).Idle := trivial
  have hfair : FairLog (.started now :: m.log) := h.fair.idle hidle
  have hdue := hknown.follows.due now
  unfold Sampling.start
  split
  · exact h
  · next hnone =>
      simp only
      split
      · next hempty =>
          rw [List.isEmpty_iff] at hempty
          refine ⟨hfair.cons fun _ round now' earlier hlog hround => ?_, ?_, ?_⟩
          · obtain ⟨rfl, rfl, rfl⟩ := round_started hlog hround
            refine ⟨fun cfg hmem => ?_, fun _ _ cfg hcfg => ?_⟩
            · cases List.mem_singleton.1 hmem
            · rw [← hdue, hempty] at hcfg
              exact absurd hcfg List.not_mem_nil
          · intro r hr
            exact absurd (hnone.symm.trans hr) (by simp)
          · intro r hr
            exact absurd (hnone.symm.trans hr) (by simp)
      · next hne =>
          have hconfigs : m.sampler.configs ≠ [] := by
            rintro hnil
            rw [hnil] at hne
            exact hne rfl
          refine ⟨hfair, fun r hr => ?_, fun r hr round now' earlier hlog hround => ?_⟩
          · obtain rfl := Option.some.inj hr
            exact (hknown.follows.normal hconfigs).maxConcurrent
          · obtain rfl := Option.some.inj hr
            obtain ⟨rfl, rfl, rfl⟩ := round_started hlog hround
            constructor
            case due => simpa only [List.map_map, Function.comp_def, List.map_id'] using hdue
            case called =>
              intro w hw hp
              obtain ⟨cfg, -, rfl⟩ := List.mem_map.1 hw
              rcases hp with hp | hp <;> cases hp
            case gaveUp =>
              intro w hw hp
              obtain ⟨cfg, -, rfl⟩ := List.mem_map.1 hw
              cases hp
            case ended => exact fun hended => nomatch hended

/-! ## The end -/

theorem commitResult_refresh (m : Sampling) (result : Result) (now : Int) :
    (m.commitResult result now).refresh = m.refresh := by
  unfold Sampling.commitResult
  split <;> rfl

theorem Rounds.commitResults {m : Sampling} (h : Rounds m) (clock : Nat → Int)
    (xs : List (Result × Nat)) :
    Rounds (m.commitResults clock xs) ∧ (m.commitResults clock xs).refresh = m.refresh := by
  refine run_invariant (P := fun n : Sampling => Rounds n ∧ n.refresh = m.refresh)
    (fun n x hn => ?_) ⟨h, rfl⟩ xs
  exact ⟨hn.1.commitResult _ _, (commitResult_refresh ..).trans hn.2⟩

theorem Rounds.commit {m : Sampling} (h : Rounds m) (clock : Nat → Int) :
    Rounds (m.commit clock) := by
  unfold Sampling.commit
  split
  · exact h
  · next r hr =>
      split
      · next hcomplete =>
          obtain ⟨hloop, hrefresh⟩ := h.commitResults clock r.results.zipIdx
          refine ⟨hloop.fair.cons fun _ round now earlier hlog hround => ?_, ?_, ?_⟩
          · exact (hloop.current r (hrefresh.trans hr) round now earlier hlog hround).finish
              (hloop.fair [] round now earlier hlog hround) hcomplete
          · exact fun q hq => nomatch hq
          · exact fun q hq => nomatch hq
      · exact h

theorem Rounds.step {m : Sampling} (h : Rounds m) (hknown : Known m) (e : SamplingEvent) :
    Rounds (m.step e) := by
  cases e with
  | update configs options =>
      have hidle : (Moment.updated (enabledClusters configs) (normalizeOptions options)).Idle :=
        trivial
      exact h.idle hidle not_false _
  | start now => exact h.start hknown now
  | endContext => exact h.endContext
  | call k => exact h.call k
  | giveUp k => exact h.giveUp k
  | answer k snapshot via now => exact h.answer k snapshot via now
  | commit clock => exact h.commit clock

theorem Rounds.new (configs : List ClusterConfig) (options : Options) :
    Rounds (Sampling.new configs options) where
  fair := by
    intro newest round now earlier hlog
    have hmem : Moment.started now ∈ (Sampling.new configs options).log := by
      rw [hlog]
      simp
    cases List.mem_singleton.1 hmem
  maximum _ hr := nomatch hr
  current _ hr := nomatch hr

theorem Rounds.run {configs : List ClusterConfig} (hd : DistinctIDs configs) (options : Options)
    {events : List SamplingEvent} (hevents : ∀ e ∈ events, e.Distinct) :
    Rounds (run Sampling.step (Sampling.new configs options) events) := by
  refine (run_invariant_of (P := fun m => Known m ∧ Rounds m) (fun m e he hm => ?_)
    ⟨Known.new hd options, Rounds.new configs options⟩ hevents).2
  exact ⟨hm.1.step he, hm.2.step hm.1 e⟩

/-! ## A `Refresh` comes to its end -/

/-- The steps a goroutine has before it. -/
def Progress.left : Progress → Nat
  | .waiting => 2
  | .calling => 1
  | .returned | .gaveUp => 0

def Refresh.left (r : Refresh) : Nat := (r.workers.map fun w => w.progress.left).sum

/-- Each of those steps brings the `Refresh` nearer to its end. -/
theorem Refresh.left_setProgress {r : Refresh} {k : Nat} {w : Worker}
    (hk : r.workers[k]? = some w) {progress : Progress} (hp : progress.left < w.progress.left) :
    (r.setProgress k w progress).left < r.left := by
  have hlt : ∀ {ws : List Worker} {k : Nat}, ws[k]? = some w →
      ((ws.set k { w with progress }).map fun w => w.progress.left).sum <
        (ws.map fun w => w.progress.left).sum := by
    intro ws
    induction ws with
    | nil => intro k hk; cases hk
    | cons v ws ih =>
        intro k hk
        cases k with
        | zero =>
            obtain rfl := Option.some.inj hk
            simp only [List.set_cons_zero, List.map_cons, List.sum_cons]
            omega
        | succ k =>
            have hrest := ih (k := k) hk
            simp only [List.set_cons_succ, List.map_cons, List.sum_cons]
            omega
  exact hlt hk

/-- A goroutine takes the semaphore, or the source answers one. -/
def SamplingEvent.Own : SamplingEvent → Prop
  | .call _ | .answer .. => True
  | .update .. | .start _ | .endContext | .giveUp _ | .commit _ => False

/-- A `Refresh` that is not complete waits for the source, or a goroutine can
take the semaphore. -/
theorem Rounds.goes_on {m : Sampling} (h : Rounds m) {r : Refresh} (hr : m.refresh = some r)
    (hincomplete : r.complete = false) :
    ∃ (e : SamplingEvent) (r' : Refresh), e.Own ∧ (m.step e).refresh = some r' ∧
      r'.left < r.left := by
  have hmax := h.maximum r hr
  by_cases hcalling : ∃ w ∈ r.workers, w.progress = .calling
  · obtain ⟨w, hw, hp⟩ := hcalling
    obtain ⟨k, hk⟩ := List.getElem?_of_mem hw
    have hleft : (r.setProgress k w .returned).left < r.left :=
      Refresh.left_setProgress hk (by rw [hp]; decide)
    have hstep : (m.answer k (loadingSnapshot w.cfg) none 0).refresh =
        some { r.setProgress k w .returned with
          results := r.results ++
            [⟨w.cfg, normalizeSnapshot (loadingSnapshot w.cfg) w.cfg 0, none⟩] } := by
      simp only [Sampling.answer, hr, hk, hp, if_true]
    exact ⟨.answer k (loadingSnapshot w.cfg) none 0, _, trivial, hstep, hleft⟩
  · have hzero : r.calling = 0 := by
      rw [Refresh.calling, List.countP_eq_zero]
      intro w hw hp
      exact hcalling ⟨w, hw, by simpa using hp⟩
    obtain ⟨w, hw, hp⟩ := List.all_eq_false.1 hincomplete
    obtain ⟨k, hk⟩ := List.getElem?_of_mem hw
    have hwaiting : w.progress = .waiting := by
      cases hprogress : w.progress with
      | waiting => rfl
      | calling => exact absurd ⟨w, hw, hprogress⟩ hcalling
      | returned | gaveUp => simp [hprogress] at hp
    have hfree : w.progress = .waiting ∧ (r.calling : Int) < r.maximum := ⟨hwaiting, by omega⟩
    refine ⟨.call k, r.setProgress k w .calling, trivial, ?_, ?_⟩
    · show (m.call k).refresh = _
      simp only [Sampling.call, hr, hk]
      rw [if_pos hfree]
    · exact Refresh.left_setProgress hk (by rw [hwaiting]; decide)

/-! ## The result -/

/-- In every run: an enabled cluster has a retry entry exactly when results
were offline since the last online one, the entry counts them, and the deadline
is the last of them plus the interval then in force, doubled that many times and
at most five minutes. A `Refresh` calls the source for no cluster whose deadline
is ahead when it starts, and for every other one unless its context ends; until
it is complete it has a step to take. -/
theorem backoff_exact {configs : List ClusterConfig} (hd : DistinctIDs configs) (options : Options)
    {events : List SamplingEvent} (hevents : ∀ e ∈ events, e.Distinct) :
    let m := run Sampling.step (Sampling.new configs options) events
    (∀ cfg ∈ enabledIn m.log,
      (offlines (commits cfg.id m.log) = [] → m.sampler.retries[cfg.id]? = none) ∧
        ∀ c rest, offlines (commits cfg.id m.log) = c :: rest → 0 < c.interval ∧
          m.sampler.retries[cfg.id]? = some ⟨(rest.length + 1 : Nat),
            c.time + min (c.interval * 2 ^ (rest.length + 1)) fiveMinutes⟩) ∧
    (∀ newest round now earlier, m.log = newest ++ (round ++ .started now :: earlier) →
      (∀ x ∈ round, ¬x.Starts) →
        (∀ cfg, Moment.called cfg ∈ round → Due earlier now cfg) ∧
          (Moment.finished ∈ round → Moment.ended ∉ round → ∀ cfg, Due earlier now cfg →
            Moment.called cfg ∈ round)) ∧
    ∀ r, m.refresh = some r → r.complete = false → ∃ (e : SamplingEvent) (r' : Refresh),
      e.Own ∧ (m.step e).refresh = some r' ∧ r'.left < r.left := by
  intro m
  have hknown : Known m := Known.run hd options hevents
  have hrounds : Rounds m := Rounds.run hd options hevents
  refine ⟨fun cfg hcfg => ?_, fun newest round now earlier hlog hround => ?_, fun r hr hc => ?_⟩
  · rw [← hknown.follows.configs] at hcfg
    have hentry := entry_of_mem hknown.follows.distinct hcfg
    have hretry := hknown.follows.retry cfg.id
    rw [hentry, Option.bind_some, retryOf] at hretry
    refine ⟨fun hnone => ?_, fun c rest hsome => ⟨?_, ?_⟩⟩
    · rw [hretry, hnone]
    · have hmem : c ∈ commits cfg.id m.log := by
        have hoff : c ∈ offlines (commits cfg.id m.log) := hsome ▸ List.mem_cons_self
        exact (List.takeWhile_sublist _).subset (List.mem_of_mem_filter hoff)
      exact (hknown.follows.source cfg.id cfg hentry c hmem).2.2.2
    · simp only [hretry, hsome, delay]
  · have hfair := hrounds.fair newest round now earlier hlog hround
    exact ⟨hfair.only, hfair.all⟩
  · exact hrounds.goes_on hr hc

/-! The broker is down twice. -/

def downTwice : List SamplingEvent :=
  [.start 0, .call 0, .answer 0 { onlineSnapshot with online := false } none 1, .commit fun _ => 10,
    .start 20, .start (31 * second), .call 0, .answer 0 { onlineSnapshot with online := false } none 2,
    .commit fun _ => 40 * second]

theorem downTwice_distinct : ∀ e ∈ downTwice, e.Distinct := by
  simp [downTwice, SamplingEvent.Distinct]

theorem backoff_exact_downTwice :
    let m := run Sampling.step (Sampling.new [localCluster "a:9092"] ⟨0, 0, 0⟩) downTwice
    m.sampler.retries["local"]? = some ⟨2, 100 * second⟩ := by
  intro m
  obtain ⟨hentries, -⟩ :=
    backoff_exact (localCluster_distinct "a:9092") ⟨0, 0, 0⟩ downTwice_distinct
  obtain ⟨-, hsome⟩ := hentries (localCluster "a:9092") List.mem_cons_self
  exact (hsome _ _ rfl).2

end KafkaManager.Dashboard
