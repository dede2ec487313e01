import KafkaManager.Web.App

/-!
# What the page of a topic shows

While the topic of the route is another one than the one that is selected, the
effect loads it, and the page shows that, or the error, or in the end the
topic (`TopicShown`). The effect does nothing for the topic that is selected,
and so it does not take back a spinner or an error of another one.
`comesBack` is the step that runs into this: it makes the selected topic the
wanted one again while one of the two is there. Every run without such a step
shows what it should, and one such step is enough to show it no more.
-/

namespace KafkaManager.Web

open Lib

namespace App

/-- After the event the topic that is selected is the wanted one, and the spinner
or the error is not its own. -/
def comesBack (s : App) (e : AppEvent) : Bool :=
  let s' := (s.on e).canonical
  s'.ready && s'.wanted.any s'.holds && (s'.topicLoading || s'.topicError != "")

/-- An error has a message. -/
def AppEvent.told : AppEvent → Bool
  | .topicAnswer _ (.error message) => message != ""
  | _ => true

/-- The event does not run the effect. -/
def rests (s : App) (e : AppEvent) : Bool := decide ((s.on e).canonical.deps = s.deps)

def steady (s : App) (e : AppEvent) : Bool := !s.comesBack e && AppEvent.told e

/-- How a topic that is wanted is shown. -/
inductive TopicShown (s : App) (key : TopicKey) : Prop
  | loading (hactive : s.active = some key) (hheld : s.holds key = false)
      (hloading : s.topicLoading = true) (herror : s.topicError = "")
  | failed (hactive : s.active = none) (hheld : s.holds key = false)
      (hfailed : s.failed = some key) (hloading : s.topicLoading = false)
      (herror : s.topicError ≠ "")
  | loaded (hactive : s.active = none) (hheld : s.holds key = true)
      (hloading : s.topicLoading = false) (herror : s.topicError = "")

structure Proper (s : App) : Prop where
  idle : s.ready = false → s.active = none
  listed : s.ready = true → s.wanted = none → s.active = none
  shown : s.ready = true → ∀ key, s.wanted = some key → TopicShown s key

/-! ## The effect -/

section

variable {s s' : App}

/-- What the effect decides on is in its dependencies. -/
theorem ready_of_deps (h : s'.deps = s.deps) : s'.ready = s.ready := by
  have hauth : s'.authenticated = s.authenticated := congrArg Deps.authenticated h
  have hlength : s'.clusters.length = s.clusters.length := congrArg Deps.clusters h
  have hempty : s'.clusters.isEmpty = s.clusters.isEmpty := by
    cases hc : s.clusters with
    | nil =>
        rw [hc] at hlength
        rw [List.eq_nil_of_length_eq_zero hlength]
    | cons id rest =>
        cases hc' : s'.clusters with
        | nil =>
            rw [hc, hc'] at hlength
            cases hlength
        | cons id' rest' => rfl
  unfold ready
  rw [hauth, hempty]

theorem wanted_of_deps (h : s'.deps = s.deps) : s'.wanted = s.wanted := by
  have hname : s'.route.topicName = s.route.topicName := congrArg Deps.topicName h
  have hcluster : s'.clusterId = s.clusterId := congrArg Deps.clusterId h
  unfold wanted
  rw [hname, hcluster]

theorem holds_of_deps (h : s'.deps = s.deps) (key : TopicKey) : s'.holds key = s.holds key := by
  have hselected : s'.selected = s.selected := congrArg Deps.selected h
  unfold holds
  rw [hselected]

/-- What a run of the effect can do. -/
theorem effect_cases (s : App) :
    (s.ready = false ∧ s.effect = { s with active := none }) ∨
      (s.ready = true ∧ s.wanted = none ∧
        s.effect = { s with active := none, selected := none, topicError := ""
                            topicLoading := false }) ∨
      (∃ key, s.ready = true ∧ s.wanted = some key ∧ s.holds key = true ∧
        s.effect = { s with active := none }) ∨
      (∃ key, s.ready = true ∧ s.wanted = some key ∧ s.holds key = false ∧
        s.effect = { s with active := some key, topicLoading := true, topicError := "" }) := by
  have hready : App.ready { s with active := none } = s.ready := rfl
  have hwanted : App.wanted { s with active := none } = s.wanted := rfl
  have hholds : ∀ key, App.holds { s with active := none } key = s.holds key := fun _ => rfl
  simp only [effect, hready, hwanted, hholds]
  cases s.ready with
  | false => exact .inl ⟨rfl, rfl⟩
  | true =>
      cases s.wanted with
      | none => exact .inr (.inl ⟨rfl, rfl, rfl⟩)
      | some key =>
          cases hheld : s.holds key with
          | true => exact .inr (.inr (.inl ⟨key, rfl, rfl, hheld, by simp [hheld]⟩))
          | false => exact .inr (.inr (.inr ⟨key, rfl, rfl, hheld, by simp [hheld]⟩))

/-- The effect decides on the same as before its run. -/
theorem effect_ready (s : App) : s.effect.ready = s.ready := by
  obtain ⟨-, h⟩ | ⟨-, -, h⟩ | ⟨_, -, -, -, h⟩ | ⟨_, -, -, -, h⟩ := effect_cases s <;>
    rw [h] <;> rfl

theorem effect_wanted (s : App) : s.effect.wanted = s.wanted := by
  obtain ⟨-, h⟩ | ⟨-, -, h⟩ | ⟨_, -, -, -, h⟩ | ⟨_, -, -, -, h⟩ := effect_cases s <;>
    rw [h] <;> rfl

/-- After the effect has run, the page is right, unless the topic has come
back. -/
theorem effect_proper (h : ∀ key, s.ready = true → s.wanted = some key → s.holds key = true →
    s.topicLoading = false ∧ s.topicError = "") : Proper s.effect := by
  refine ⟨fun hready => ?_, fun hready hwanted => ?_, fun hready key hwanted => ?_⟩
  · rw [effect_ready] at hready
    obtain ⟨-, he⟩ | ⟨ht, -, -⟩ | ⟨_, ht, -, -, -⟩ | ⟨_, ht, -, -, -⟩ := effect_cases s
    · rw [he]
    all_goals exact nomatch hready.symm.trans ht
  · rw [effect_wanted] at hwanted
    obtain ⟨-, he⟩ | ⟨-, -, he⟩ | ⟨_, -, hw, -, -⟩ | ⟨_, -, hw, -, -⟩ := effect_cases s
    · rw [he]
    · rw [he]
    all_goals exact nomatch hwanted.symm.trans hw
  · rw [effect_ready] at hready
    rw [effect_wanted] at hwanted
    obtain ⟨hf, -⟩ | ⟨-, hnone, -⟩ | ⟨key', -, hkey, hheld, he⟩ | ⟨key', -, hkey, hheld, he⟩ :=
      effect_cases s
    · exact nomatch hf.symm.trans hready
    · exact nomatch hnone.symm.trans hwanted
    · obtain rfl := Option.some.inj (hkey.symm.trans hwanted)
      obtain ⟨hloading, herror⟩ := h key' hready hwanted hheld
      rw [he]
      exact .loaded rfl hheld hloading herror
    · obtain rfl := Option.some.inj (hkey.symm.trans hwanted)
      rw [he]
      exact .loading rfl hheld rfl rfl

/-! ## Events -/

theorem canonical_fields (s : App) :
    s.canonical.active = s.active ∧ s.canonical.topicLoading = s.topicLoading ∧
      s.canonical.topicError = s.topicError ∧ s.canonical.failed = s.failed := by
  unfold canonical
  split <;> exact ⟨rfl, rfl, rfl, rfl⟩

/-- Only the answer to a request of the effect touches what the page shows
besides the topic. -/
theorem on_fields (s : App) {e : AppEvent} (he : ∀ expired answer, e = .topicAnswer expired answer → s.active = none) :
    (s.on e).active = s.active ∧ (s.on e).topicLoading = s.topicLoading ∧
      (s.on e).topicError = s.topicError ∧ (s.on e).failed = s.failed := by
  cases e with
  | topicAnswer expired answer =>
      have hon : s.topicAnswered answer = s := by
        unfold topicAnswered
        rw [he expired answer rfl]
      simp only [on, hon]
      split <;> exact ⟨rfl, rfl, rfl, rfl⟩
  | me ok | logout | sessionExpired | popstate route | navigate route | loadClusters =>
      exact ⟨rfl, rfl, rfl, rfl⟩
  | login | openTopic item tab =>
      unfold on
      dsimp only
      split <;> exact ⟨rfl, rfl, rfl, rfl⟩
  | dashboardAnswer request answer =>
      unfold on
      dsimp only
      unfold dashboardAnswered
      split
      · exact ⟨rfl, rfl, rfl, rfl⟩
      · cases answer <;> exact ⟨rfl, rfl, rfl, rfl⟩
  | refreshTopic =>
      unfold on
      dsimp only
      split <;> exact ⟨rfl, rfl, rfl, rfl⟩
  | refreshAnswer key answer =>
      unfold on
      dsimp only
      split
      · split <;> exact ⟨rfl, rfl, rfl, rfl⟩
      · exact ⟨rfl, rfl, rfl, rfl⟩

/-- Nothing changes that the effect depends on, and it does not run. -/
theorem Proper.same (h : Proper s) (hdeps : s'.deps = s.deps) (hactive : s'.active = s.active)
    (hloading : s'.topicLoading = s.topicLoading) (herror : s'.topicError = s.topicError)
    (hfailed : s'.failed = s.failed) : Proper s' := by
  refine ⟨fun hready => ?_, fun hready hwanted => ?_, fun hready key hwanted => ?_⟩
  · rw [hactive]
    exact h.idle (ready_of_deps hdeps ▸ hready)
  · rw [hactive]
    exact h.listed (ready_of_deps hdeps ▸ hready) (wanted_of_deps hdeps ▸ hwanted)
  · rw [ready_of_deps hdeps] at hready
    rw [wanted_of_deps hdeps] at hwanted
    have hholds := holds_of_deps hdeps key
    cases h.shown hready key hwanted with
    | loading ha hh hl he =>
        exact .loading (hactive.trans ha) (hholds.trans hh) (hloading.trans hl) (herror.trans he)
    | failed ha hh hf hl he =>
        exact .failed (hactive.trans ha) (hholds.trans hh) (hfailed.trans hf) (hloading.trans hl)
          (herror ▸ he)
    | loaded ha hh hl he =>
        exact .loaded (hactive.trans ha) (hholds.trans hh) (hloading.trans hl) (herror.trans he)

/-- The answer that is awaited fails. -/
theorem Proper.refused (h : Proper s) {key : TopicKey} {message : String}
    (hactive : s.active = some key) (hmessage : message ≠ "")
    (hdeps : s'.deps = s.deps) (hidle : s'.active = none) (hloading : s'.topicLoading = false)
    (herror : s'.topicError = message) (hfailed : s'.failed = some key) : Proper s' := by
  refine ⟨fun _ => hidle, fun _ _ => hidle, fun hready key' hwanted => ?_⟩
  rw [ready_of_deps hdeps] at hready
  rw [wanted_of_deps hdeps] at hwanted
  cases h.shown hready key' hwanted with
  | loading ha hh =>
      obtain rfl := Option.some.inj (hactive.symm.trans ha)
      exact .failed hidle ((holds_of_deps hdeps key).trans hh) hfailed hloading (herror ▸ hmessage)
  | failed ha => exact nomatch hactive.symm.trans ha
  | loaded ha => exact nomatch hactive.symm.trans ha

theorem foundTopic_name {name : String} {answer : Except String (List Topic)} {found : Topic}
    (h : foundTopic name answer = .ok found) : found.name = name := by
  cases answer with
  | error message => cases h
  | ok items =>
      simp only [foundTopic] at h
      split at h
      · cases h
      · next item hitem =>
          obtain rfl := Except.ok.inj h
          exact eq_of_beq (List.find?_some (p := fun item : Topic => item.name == name) hitem)

theorem foundTopic_told {name : String} {answer : Except String (List Topic)} {message : String}
    {expired : Bool} (htold : AppEvent.told (.topicAnswer expired answer) = true)
    (h : foundTopic name answer = .error message) : message ≠ "" := by
  cases answer with
  | error m =>
      obtain rfl := Except.error.inj h
      exact bne_iff_ne.1 htold
  | ok items =>
      simp only [foundTopic] at h
      split at h
      · obtain rfl := Except.error.inj h
        intro hempty
        exact absurd (String.append_eq_empty_iff.1 hempty).1 (by decide)
      · cases h

/-- What is awaited is the topic that is wanted. -/
theorem Proper.awaited (h : Proper s) {key : TopicKey} (hactive : s.active = some key) :
    s.ready = true ∧ s.wanted = some key ∧ s.holds key = false ∧ s.topicError = "" := by
  have hready : s.ready = true := by
    cases hr : s.ready with
    | true => rfl
    | false => exact nomatch hactive.symm.trans (h.idle hr)
  cases hwanted : s.wanted with
  | none => exact nomatch hactive.symm.trans (h.listed hready hwanted)
  | some key' =>
      cases h.shown hready key' hwanted with
      | loading ha hh _ he =>
          obtain rfl := Option.some.inj (hactive.symm.trans ha)
          exact ⟨hready, rfl, hh, he⟩
      | failed ha => exact nomatch hactive.symm.trans ha
      | loaded ha => exact nomatch hactive.symm.trans ha

theorem canonical_deps (s : App) : s.canonical.selected = s.selected ∧
    s.canonical.authenticated = s.authenticated := by
  unfold canonical
  split <;> exact ⟨rfl, rfl⟩

/-- An answer after which nothing has changed that the effect depends on is a
failed one, or nobody awaits it. -/
theorem Proper.answered (h : Proper s) {expired : Bool} {answer : Except String (List Topic)}
    (htold : AppEvent.told (.topicAnswer expired answer) = true)
    (hdeps : (s.on (.topicAnswer expired answer)).canonical.deps = s.deps) :
    Proper (s.on (.topicAnswer expired answer)).canonical := by
  obtain ⟨hca, hcl, hce, hcf⟩ := canonical_fields (s.on (.topicAnswer expired answer))
  obtain ⟨hcs, hcauth⟩ := canonical_deps (s.on (.topicAnswer expired answer))
  cases hactive : s.active with
  | none =>
      obtain ⟨ha, hl, he, hf⟩ := on_fields s (e := .topicAnswer expired answer) fun _ _ _ => hactive
      exact h.same hdeps (hca.trans ha) (hcl.trans hl) (hce.trans he) (hcf.trans hf)
  | some key =>
      obtain ⟨hready, -, hheld, -⟩ := h.awaited hactive
      cases expired with
      | true =>
          have hauth : s.authenticated = some false :=
            ((congrArg Deps.authenticated hdeps).symm.trans hcauth).trans rfl
          simp [ready, hauth] at hready
      | false =>
          have hon : s.on (.topicAnswer false answer) = s.topicAnswered answer := rfl
          rw [hon] at hdeps hca hcl hce hcf hcs ⊢
          simp only [topicAnswered, hactive] at hdeps hca hcl hce hcf hcs ⊢
          cases hfound : foundTopic key.2 answer with
          | error message =>
              simp only [hfound] at hdeps hca hcl hce hcf ⊢
              exact h.refused hactive (foundTopic_told htold hfound) hdeps hca hcl hce hcf
          | ok found =>
              simp only [hfound] at hdeps hcs
              have hselected : s.selected = some ⟨s.numbers, key.1, found⟩ :=
                (congrArg Deps.selected hdeps).symm.trans hcs
              have hholds : s.holds key = true := by
                simp [holds, hselected, foundTopic_name hfound]
              exact nomatch hheld.symm.trans hholds

theorem step_of_rests {e : AppEvent} (h : s.rests e = true) :
    (s.on e).canonical.deps = s.deps ∧ s.step e = (s.on e).canonical :=
  ⟨of_decide_eq_true h, if_pos (of_decide_eq_true h)⟩

theorem step_of_not_rests {e : AppEvent} (h : ¬s.rests e = true) :
    s.step e = (s.on e).canonical.effect :=
  if_neg fun hdeps => h (decide_eq_true hdeps)

/-- Where the effect does not run, the page stays right. -/
theorem Proper.rests (h : Proper s) {e : AppEvent} (htold : AppEvent.told e = true)
    (hrests : s.rests e = true) : Proper (s.step e) := by
  obtain ⟨hdeps, hstep⟩ := step_of_rests hrests
  rw [hstep]
  by_cases hanswer : ∃ expired answer, e = .topicAnswer expired answer
  · obtain ⟨expired, answer, rfl⟩ := hanswer
    exact h.answered htold hdeps
  · obtain ⟨ha, hl, he, hf⟩ := on_fields s fun expired answer heq =>
      absurd ⟨expired, answer, heq⟩ hanswer
    obtain ⟨hca, hcl, hce, hcf⟩ := canonical_fields (s.on e)
    exact h.same hdeps (hca.trans ha) (hcl.trans hl) (hce.trans he) (hcf.trans hf)

/-- The effect does nothing for the topic that is selected. -/
theorem effect_held {key : TopicKey} (hwanted : s.wanted = some key)
    (hheld : s.holds key = true) : s.effect = { s with active := none } := by
  obtain ⟨-, h⟩ | ⟨-, hnone, -⟩ | ⟨_, -, -, -, h⟩ | ⟨key', -, hkey, hnot, -⟩ := effect_cases s
  · exact h
  · exact nomatch hnone.symm.trans hwanted
  · exact h
  · obtain rfl := Option.some.inj (hkey.symm.trans hwanted)
    exact nomatch hnot.symm.trans hheld

theorem comesBack_iff {e : AppEvent} : s.comesBack e = true ↔
    ∃ key, (s.on e).canonical.ready = true ∧ (s.on e).canonical.wanted = some key ∧
      (s.on e).canonical.holds key = true ∧
      ((s.on e).canonical.topicLoading = true ∨ (s.on e).canonical.topicError ≠ "") := by
  simp only [comesBack, Bool.and_eq_true, Bool.or_eq_true, bne_iff_ne, Option.any_eq_true]
  constructor
  · rintro ⟨⟨hready, key, hwanted, hheld⟩, hleft⟩
    exact ⟨key, hready, hwanted, hheld, hleft⟩
  · rintro ⟨key, hready, hwanted, hheld, hleft⟩
    exact ⟨⟨hready, key, hwanted, hheld⟩, hleft⟩

/-- The state after a step that comes back. -/
theorem step_comesBack {e : AppEvent} (h : s.comesBack e = true) :
    ∃ key, (s.step e).ready = true ∧ (s.step e).wanted = some key ∧
      (s.step e).holds key = true ∧
      ((s.step e).topicLoading = true ∨ (s.step e).topicError ≠ "") := by
  obtain ⟨key, hready, hwanted, hheld, hleft⟩ := comesBack_iff.1 h
  by_cases hrests : s.rests e = true
  · rw [(step_of_rests hrests).2]
    exact ⟨key, hready, hwanted, hheld, hleft⟩
  · rw [step_of_not_rests hrests, effect_held hwanted hheld]
    exact ⟨key, hready, hwanted, hheld, hleft⟩

/-- A step keeps the page right, and exactly the steps that come back do not. -/
theorem step_proper (h : Proper s) {e : AppEvent} (htold : AppEvent.told e = true) :
    Proper (s.step e) ↔ s.comesBack e = false := by
  constructor
  · intro hproper
    cases hback : s.comesBack e with
    | false => rfl
    | true =>
        obtain ⟨key, hready, hwanted, hheld, hleft⟩ := step_comesBack hback
        cases hproper.shown hready key hwanted with
        | loading _ hh => exact nomatch hh.symm.trans hheld
        | failed _ hh => exact nomatch hh.symm.trans hheld
        | loaded _ _ hl he =>
            rcases hleft with hleft | hleft
            · exact nomatch hl.symm.trans hleft
            · exact absurd he hleft
  · intro hback
    by_cases hrests : s.rests e = true
    · exact h.rests htold hrests
    · rw [step_of_not_rests hrests]
      refine effect_proper fun key hready hwanted hheld => ?_
      have hnot := mt comesBack_iff.2 (Bool.eq_false_iff.1 hback)
      refine ⟨Bool.eq_false_iff.2 fun hloading => hnot ?_, Classical.byContradiction fun herror =>
        hnot ?_⟩
      · exact ⟨key, hready, hwanted, hheld, .inl hloading⟩
      · exact ⟨key, hready, hwanted, hheld, .inr herror⟩

/-- Before the clusters are there, nothing is wanted. -/
theorem new_proper (route : AppRoute) : Proper (App.new route) :=
  ⟨fun _ => rfl, fun _ _ => rfl, fun hready => nomatch hready⟩

theorem run_proper (route : AppRoute) {es : List AppEvent}
    (hsteady : meets App.step App.steady (App.new route) es = true) :
    Proper (run App.step (App.new route) es) := by
  have hinit : Reach App.step App.steady (fun s => s = App.new route) (App.new route) := .init rfl
  refine (hinit.run hsteady).invariant (fun s hs => hs ▸ new_proper route) fun s e h hs => ?_
  obtain ⟨hback, htold⟩ := Bool.and_eq_true_iff.1 hs
  exact (step_proper h htold).2 (Bool.not_eq_true' _ ▸ hback)

/-! ## The page -/

theorem authenticated_of_ready (h : s.ready = true) : s.authenticated = some true :=
  eq_of_beq (Bool.and_eq_true_iff.1 h).1

/-- What is wanted is the topic of the route, in the cluster that is shown. -/
theorem wanted_some {key : TopicKey} (h : s.wanted = some key) :
    key.1 = s.clusterId ∧ filled s.route.topicName = some key.2 := by
  unfold wanted at h
  split at h
  · cases h
  · next name hname =>
      split at h
      · cases h
      · obtain rfl := Option.some.inj h
        exact ⟨rfl, hname⟩

/-- The page of a topic that is wanted. -/
theorem view_wanted (hready : s.ready = true) {key : TopicKey} (hwanted : s.wanted = some key) :
    s.view =
      if s.topicLoading then .loading
      else if s.topicError ≠ "" then .error s.topicError
      else
        match s.selected with
        | none => .blank
        | some selected =>
            if selected.clusterId = key.1 ∧ selected.item.name = key.2 then
              .topic key.1 selected.item
            else .blank := by
  obtain ⟨hcluster, hname⟩ := wanted_some hwanted
  rewrite [view, authenticated_of_ready hready, hcluster]
  dsimp only
  rewrite [hname]
  rfl

theorem holds_iff {key : TopicKey} : s.holds key = true ↔
    ∃ selected, s.selected = some selected ∧ selected.clusterId = key.1 ∧
      selected.item.name = key.2 := by
  simp [holds, Option.any_eq_true]

/-- The page of a topic that is wanted, where all is right. -/
theorem Proper.view (h : Proper s) (hready : s.ready = true) {key : TopicKey}
    (hwanted : s.wanted = some key) :
    (s.view = .loading ∧ s.active = some key) ∨
      (s.view = .error s.topicError ∧ s.failed = some key ∧ s.active = none) ∨
      (∃ item, item.name = key.2 ∧ s.view = .topic key.1 item ∧ s.active = none) := by
  have hview := view_wanted hready hwanted
  cases h.shown hready key hwanted with
  | loading ha _ hl =>
      rw [hl] at hview
      exact .inl ⟨hview, ha⟩
  | failed ha _ hf hl he =>
      rw [hl, if_neg Bool.false_ne_true, if_pos he] at hview
      exact .inr (.inl ⟨hview, hf, ha⟩)
  | loaded ha hh hl he =>
      obtain ⟨selected, hselected, hcluster, hname⟩ := holds_iff.1 hh
      rw [hl, he, if_neg Bool.false_ne_true, if_neg fun hne => hne rfl, hselected] at hview
      exact .inr (.inr ⟨selected.item, hname, hview.trans (if_pos ⟨hcluster, hname⟩), ha⟩)

/-! ## A page that has gone wrong -/

/-- The topic is there, and is not shown. -/
structure Stuck (s : App) (key : TopicKey) (view : View) : Prop where
  ready : s.ready = true
  wanted : s.wanted = some key
  held : s.holds key = true
  idle : s.active = none
  shown : s.view = view

theorem Stuck.step {key : TopicKey} {view : View} (h : Stuck s key view) {e : AppEvent}
    (hrests : s.rests e = true) : Stuck (s.step e) key view := by
  obtain ⟨hdeps, hstep⟩ := step_of_rests hrests
  obtain ⟨ha, hl, he, -⟩ := on_fields s (e := e) fun _ _ _ => h.idle
  obtain ⟨hca, hcl, hce, -⟩ := canonical_fields (s.on e)
  have hready := (ready_of_deps hdeps).trans h.ready
  have hwanted := (wanted_of_deps hdeps).trans h.wanted
  have hselected : (s.on e).canonical.selected = s.selected := congrArg Deps.selected hdeps
  rw [hstep]
  refine ⟨hready, hwanted, (holds_of_deps hdeps key).trans h.held, (hca.trans ha).trans h.idle, ?_⟩
  rw [view_wanted hready hwanted, hcl, hl, hce, he, hselected, ← view_wanted h.ready h.wanted]
  exact h.shown

theorem Stuck.run {key : TopicKey} {view : View} (h : Stuck s key view) {es : List AppEvent}
    (hrests : meets App.step App.rests s es = true) : Stuck (run App.step s es) key view := by
  have hinit : Reach App.step App.rests (fun s' => s' = s) s := .init rfl
  exact (hinit.run hrests).invariant (fun s' hs => hs ▸ h) fun s' e h' he => h'.step he

/-- After a step that comes back the page shows a spinner or an error in place
of the topic that is there. -/
theorem comesBack_stuck (h : Proper s) {e : AppEvent} (htold : AppEvent.told e = true)
    (hback : s.comesBack e = true) : ∃ key, Stuck (s.step e) key (s.step e).view ∧
      ((s.step e).view = .loading ∨ (s.step e).view = .error (s.step e).topicError) := by
  obtain ⟨key, hready, hwanted, hheld, hleft⟩ := step_comesBack hback
  have hrests : ¬s.rests e = true := by
    intro hrests
    exact nomatch hback.symm.trans ((step_proper h htold).1 (h.rests htold hrests))
  obtain ⟨key', -, hwanted', hheld', -⟩ := comesBack_iff.1 hback
  have hidle : (s.step e).active = none := by
    rw [step_of_not_rests hrests, effect_held hwanted' hheld']
  refine ⟨key, ⟨hready, hwanted, hheld, hidle, rfl⟩, ?_⟩
  rw [view_wanted hready hwanted]
  cases hloading : (s.step e).topicLoading with
  | true => exact .inl rfl
  | false =>
      obtain herror | herror := hleft
      · exact nomatch hloading.symm.trans herror
      · exact .inr ((if_neg Bool.false_ne_true).trans (if_pos herror))

end

end App

/-- In a run whose steps do not come back, the page of a topic shows the
spinner while the topic is awaited, the error of its own request, or the topic.
A step that comes back leaves the spinner or an error in place of a topic that
is there, and nothing that does not run the effect takes it away. -/
theorem topicPage_shown (route : AppRoute) (es : List AppEvent)
    (hsteady : meets App.step App.steady (App.new route) es = true) :
    let s := run App.step (App.new route) es
    (∀ key, s.ready = true → s.wanted = some key →
      (s.view = .loading ∧ s.active = some key) ∨
        (s.view = .error s.topicError ∧ s.failed = some key ∧ s.active = none) ∨
        (∃ item, item.name = key.2 ∧ s.view = .topic key.1 item ∧ s.active = none)) ∧
      ∀ e, App.AppEvent.told e = true → s.comesBack e = true →
        ∃ key, (s.step e).wanted = some key ∧ (s.step e).holds key = true ∧
          ((s.step e).view = .loading ∨ (s.step e).view = .error (s.step e).topicError) ∧
          ∀ es', meets App.step App.rests (s.step e) es' = true →
            (run App.step (s.step e) es').view = (s.step e).view := by
  have hproper := App.run_proper route hsteady
  refine ⟨fun key hready hwanted => hproper.view hready hwanted, fun e htold hback => ?_⟩
  obtain ⟨key, hstuck, hview⟩ := App.comesBack_stuck hproper htold hback
  exact ⟨key, hstuck.wanted, hstuck.held, hview, fun es' hrests => (hstuck.run hrests).shown⟩

/-! While the topic `b` is awaited, the user goes back to the topic `a`. -/

def topicRoute (name : String) : AppRoute := ⟨.topics, some "c", some name, some .overview⟩

def topicNamed (name : String) : Topic := ⟨name, false, 0, 0, 0, []⟩

def awaitingAnother : List AppEvent :=
  [.me true, .loadClusters, .dashboardAnswer 1 (some ["c"]),
    .topicAnswer false (.ok [topicNamed "a"]), .popstate (topicRoute "b")]

theorem topicPage_shown_awaitingAnother :
    let s := (run App.step (App.new (topicRoute "a")) awaitingAnother).step
      (.popstate (topicRoute "a"))
    s.selected.map SelectedTopic.item = some (topicNamed "a") ∧ s.view = .loading ∧
      (run App.step s [.topicAnswer false (.ok [topicNamed "b"]), .loadClusters,
        .dashboardAnswer 2 (some ["c"])]).view = .loading := by
  obtain ⟨_, -, -, -, hstays⟩ := (topicPage_shown (topicRoute "a") awaitingAnother (by decide)).2
    (.popstate (topicRoute "a")) rfl (by decide)
  exact ⟨by decide, by decide, (hstays _ (by decide)).trans (by decide)⟩

end KafkaManager.Web
