import KafkaManager.Kafka.Consumer

/-!
# Which topics an offset reset touches

A reset without topics is meant for the topics of the group. The topics are
read off the group's lag, and the library takes an empty list for all topics of
the cluster: so a group without offsets (`Overreaches`) gets offsets for every
topic there is, and in any other case a reset stays with its own.
`mem_reset_issued` says what is committed, and the rest is by mode.
-/

namespace KafkaManager.Consumer

open Lib Kafka

/-- What the library answers. -/
abbrev Answers : Type := (c : Call) → c.Answer

/-- An offset listing answers for the topics it is called with, and called with
none for those of the cluster. -/
structure Lists (cluster : List String)
    (list : List String → Except Kafka.Error (List Offset)) : Prop where
  named : ∀ topics offsets, list topics = .ok offsets → topics ≠ [] →
    ∀ o ∈ offsets, o.topic ∈ topics
  all : ∀ offsets, list [] = .ok offsets → ∀ t, t ∈ cluster ↔ ∃ o ∈ offsets, o.topic = t

/-- The listings of a cluster as `kadm` documents them. -/
structure Documented (cluster : List String) (answer : Answers) : Prop where
  start : Lists cluster fun topics => answer (.listStartOffsets topics)
  finish : Lists cluster fun topics => answer (.listEndOffsets topics)
  after : ∀ timestamp, Lists cluster fun topics => answer (.listOffsetsAfterMilli timestamp topics)

/-- The topics the group has offsets in. -/
def groupTopics (answer : Answers) (group : String) : List String :=
  match answer (.lag group) with
  | .ok (some lag) => lag.lag.map MemberLag.topic
  | _ => []

/-- Every offset committed is for a topic of the request or, if the request
names none, of the group. -/
def TouchesOwnTopics (answer : Answers) (r : ResetRequest) : Prop :=
  ∀ group offsets, Call.commitAllOffsets group offsets ∈ (reset r).issued answer →
    ∀ o ∈ offsets, if r.topics = [] then o.topic ∈ groupTopics answer r.group
      else o.topic ∈ r.topics

/-- The listing that the mode of the request asks for. -/
def listing (answer : Answers) (r : ResetRequest) (topics : List String) :
    Except Kafka.Error (List Offset) :=
  if r.mode = "earliest" then answer (.listStartOffsets topics)
  else if r.mode = "latest" then answer (.listEndOffsets topics)
  else answer (.listOffsetsAfterMilli r.timestamp topics)

/-- A stopped group without offsets in a cluster with topics, a request without
topics, and a mode that asks for a listing, which succeeds. -/
structure Overreaches (cluster : List String) (answer : Answers) (r : ResetRequest) : Prop where
  unnamed : r.topics = []
  lists : r.mode ≠ "absolute"
  topics : cluster ≠ []
  stopped : ∃ lag, answer (.lag r.group) = .ok (some lag) ∧ GroupLag.stopped lag = true ∧
    lag.lag = []
  listed : ∃ offsets, listing answer r [] = .ok offsets

theorem listing_lists {cluster : List String} {answer : Answers}
    (h : Documented cluster answer) (r : ResetRequest) : Lists cluster (listing answer r) := by
  unfold listing
  split
  · exact h.start
  · split
    · exact h.finish
    · exact h.after r.timestamp

/-! ## The topics of the lag -/

theorem lagTopics_subset (seen : List String) (lag : List MemberLag) :
    ∀ t ∈ lagTopics seen lag, t ∈ lag.map MemberLag.topic := by
  induction lag generalizing seen with
  | nil => exact fun t ht => ht
  | cons p rest ih =>
      intro t ht
      rw [lagTopics] at ht
      rw [List.map_cons]
      split at ht
      · exact List.mem_cons_of_mem _ (ih seen t ht)
      · rcases List.mem_cons.1 ht with rfl | ht
        · exact List.mem_cons_self
        · exact List.mem_cons_of_mem _ (ih _ t ht)

/-- The first partition's topic is always new. -/
theorem lagTopics_ne_nil {lag : List MemberLag} (h : lag ≠ []) : lagTopics [] lag ≠ [] := by
  cases lag with
  | nil => exact absurd rfl h
  | cons p rest => simp [lagTopics]

theorem resetTopics_unnamed {r : ResetRequest} {lag : GroupLag} (h : r.topics = []) :
    resetTopics r lag = lagTopics [] lag.lag := by
  rw [resetTopics, if_pos (by simp [h])]

theorem resetTopics_named {r : ResetRequest} {lag : GroupLag} (h : r.topics ≠ []) :
    resetTopics r lag = r.topics := by
  rw [resetTopics, if_neg (by simpa using h)]

/-! ## What is committed -/

theorem resetOffsets_issued {answer : Answers} {r : ResetRequest} {lag : GroupLag}
    {topics : List String} {c : Call} (h : c ∈ (resetOffsets r lag topics).issued answer) :
    c.mutates = false := by
  unfold resetOffsets at h
  split at h
  · rw [List.mem_singleton.1 h]
    rfl
  · split at h
    · rw [List.mem_singleton.1 h]
      rfl
    · split at h
      · rw [List.mem_singleton.1 h]
        rfl
      · split at h
        · exact absurd h (by simp)
        · exact absurd h (by simp)

/-- The four modes that `Service.Reset` lets through. -/
theorem mode_of_valid {r : ResetRequest} (hr : r.validate = none) :
    r.mode = "earliest" ∨ r.mode = "latest" ∨ r.mode = "absolute" ∨ r.mode = "timestamp" := by
  unfold ResetRequest.validate at hr
  split at hr
  · exact absurd hr (by simp)
  · split at hr
    · next hmode => exact hmode.elim Or.inl fun h => Or.inr (Or.inl h)
    · split at hr
      · next hmode => exact Or.inr (Or.inr (Or.inl hmode))
      · split at hr
        · next hmode => exact Or.inr (Or.inr (Or.inr hmode))
        · exact absurd hr (by simp)

theorem resetOffsets_result {answer : Answers} {r : ResetRequest} (hr : r.validate = none)
    (lag : GroupLag) (topics : List String) :
    (resetOffsets r lag topics).result answer =
      if r.mode = "absolute" then .ok (absoluteOffsets r lag) else listing answer r topics := by
  unfold resetOffsets listing
  rcases mode_of_valid hr with h | h | h | h
  · simp only [h, String.reduceEq, if_true, if_false]
    rfl
  · simp only [h, String.reduceEq, if_true, if_false]
    rfl
  · simp only [h, String.reduceEq, if_true, if_false]
    rfl
  · simp only [h, String.reduceEq, if_true, if_false]
    rfl

/-- What a reset commits: the offsets it arrived at, for a group that is
stopped. -/
theorem mem_reset_issued {answer : Answers} {r : ResetRequest} (hr : r.validate = none)
    {group : String} {offsets : List Offset} :
    Call.commitAllOffsets group offsets ∈ (reset r).issued answer ↔
      group = r.group ∧ ∃ lag, answer (.lag r.group) = .ok (some lag) ∧
        GroupLag.stopped lag = true ∧
        (resetOffsets r lag (resetTopics r lag)).result answer = .ok offsets := by
  have hreset : reset r = backendReset r := by
    unfold reset
    rw [hr]
  rw [hreset]
  unfold backendReset
  rw [Prog.call_bind, Prog.issued_cmd, List.mem_cons]
  simp only [reduceCtorEq, false_or]
  cases hlag : answer (.lag r.group) with
  | error e => simp
  | ok found =>
      cases found with
      | none => simp
      | some lag =>
          cases hstopped : GroupLag.stopped lag with
          | false => simp [hstopped]
          | true =>
              have hread : Call.commitAllOffsets group offsets ∉
                  (resetOffsets r lag (resetTopics r lag)).issued answer := by
                intro hmem
                exact absurd (resetOffsets_issued hmem) (by simp [Call.mutates])
              simp only [hstopped, Bool.not_true, Bool.false_eq_true, if_false,
                Prog.issued_bind, List.mem_append, hread, false_or]
              cases hresult : (resetOffsets r lag (resetTopics r lag)).result answer with
              | error e => simp [hresult]
              | ok found =>
                  constructor
                  · intro hmem
                    rcases List.mem_cons.1 hmem with heq | htail
                    · obtain ⟨rfl, rfl⟩ := Call.commitAllOffsets.inj heq
                      exact ⟨rfl, lag, rfl, hstopped, hresult⟩
                    · cases hcommitted : answer (.commitAllOffsets r.group found) with
                      | none =>
                          rw [hcommitted] at htail
                          exact absurd htail List.not_mem_nil
                      | some e =>
                          rw [hcommitted] at htail
                          exact absurd htail List.not_mem_nil
                  · rintro ⟨rfl, lag', hlag', -, hresult'⟩
                    obtain rfl := Option.some.inj (Except.ok.inj hlag')
                    rw [hresult] at hresult'
                    obtain rfl := Except.ok.inj hresult'
                    exact List.mem_cons_self

/-! ## The two halves -/

theorem absoluteOffsets_own {r : ResetRequest} {lag : GroupLag} {o : Offset}
    (ho : o ∈ absoluteOffsets r lag) :
    o.topic ∈ lag.lag.map MemberLag.topic ∧ (r.topics ≠ [] → o.topic ∈ r.topics) := by
  obtain ⟨p, hp, rfl⟩ := List.mem_map.1 ho
  obtain ⟨hmem, hkeep⟩ := List.mem_filter.1 hp
  refine ⟨List.mem_map_of_mem hmem, fun hne => ?_⟩
  have hpos : r.topics.length > 0 := List.length_pos_of_ne_nil hne
  have hcontains : contains r.topics p.topic = true := by simpa [hpos] using hkeep
  obtain ⟨v, hv, heq⟩ := List.any_eq_true.1 hcontains
  rwa [← beq_iff_eq.1 heq]

/-- A listing for the topics a reset decided on lists those, unless it decided
on none. -/
theorem listing_own {cluster : List String} {answer : Answers} (hdoc : Documented cluster answer)
    {r : ResetRequest} {lag : GroupLag} {offsets : List Offset}
    (hlisted : listing answer r (resetTopics r lag) = .ok offsets)
    (hsome : r.topics ≠ [] ∨ lag.lag ≠ []) :
    ∀ o ∈ offsets, if r.topics = [] then o.topic ∈ lag.lag.map MemberLag.topic
      else o.topic ∈ r.topics := by
  intro o ho
  by_cases hunnamed : r.topics = []
  · rw [if_pos hunnamed]
    rw [resetTopics_unnamed hunnamed] at hlisted
    have hlag : lag.lag ≠ [] := hsome.resolve_left fun h => h hunnamed
    exact lagTopics_subset [] lag.lag _
      ((listing_lists hdoc r).named _ _ hlisted (lagTopics_ne_nil hlag) o ho)
  · rw [if_neg hunnamed]
    rw [resetTopics_named hunnamed] at hlisted
    exact (listing_lists hdoc r).named _ _ hlisted hunnamed o ho

theorem groupTopics_of_lag {answer : Answers} {group : String} {lag : GroupLag}
    (h : answer (.lag group) = .ok (some lag)) :
    groupTopics answer group = lag.lag.map MemberLag.topic := by
  rw [groupTopics, h]

theorem own_of_not_overreaches {cluster : List String} {answer : Answers}
    (hdoc : Documented cluster answer) {r : ResetRequest} (hr : r.validate = none)
    (h : ¬ Overreaches cluster answer r) : TouchesOwnTopics answer r := by
  intro group offsets hmem o ho
  obtain ⟨-, lag, hlag, hstopped, hresult⟩ := (mem_reset_issued hr).1 hmem
  rw [groupTopics_of_lag hlag]
  rw [resetOffsets_result hr] at hresult
  split at hresult
  · obtain rfl := Except.ok.inj hresult
    obtain ⟨hown, hnamed⟩ := absoluteOffsets_own ho
    split
    · exact hown
    · next hne => exact hnamed hne
  · next hmode =>
      by_cases hsome : r.topics ≠ [] ∨ lag.lag ≠ []
      · exact listing_own hdoc hresult hsome o ho
      · -- Then the whole cluster is listed, and must be empty.
        obtain ⟨hunnamed, hempty⟩ : r.topics = [] ∧ lag.lag = [] := by
          simpa [not_or] using hsome
        rw [resetTopics_unnamed hunnamed, hempty] at hresult
        have hcluster : cluster = [] := by
          by_contra hne
          exact h ⟨hunnamed, hmode, hne, ⟨lag, hlag, hstopped, hempty⟩, offsets, hresult⟩
        have htopic := ((listing_lists hdoc r).all offsets hresult o.topic).2 ⟨o, ho, rfl⟩
        rw [hcluster] at htopic
        exact absurd htopic (by simp)

theorem not_own_of_overreaches {cluster : List String} {answer : Answers}
    (hdoc : Documented cluster answer) {r : ResetRequest} (hr : r.validate = none)
    (h : Overreaches cluster answer r) : ¬ TouchesOwnTopics answer r := by
  intro hown
  obtain ⟨lag, hlag, hstopped, hempty⟩ := h.stopped
  obtain ⟨offsets, hlisted⟩ := h.listed
  have hcommit : Call.commitAllOffsets r.group offsets ∈ (reset r).issued answer := by
    refine (mem_reset_issued hr).2 ⟨rfl, lag, hlag, hstopped, ?_⟩
    rw [resetOffsets_result hr, if_neg h.lists, resetTopics_unnamed h.unnamed, hempty]
    exact hlisted
  obtain ⟨t, ht⟩ := List.exists_mem_of_ne_nil cluster h.topics
  obtain ⟨o, ho, -⟩ := ((listing_lists hdoc r).all offsets hlisted t).1 ht
  have htopic := hown _ _ hcommit o ho
  rw [if_pos h.unnamed, groupTopics_of_lag hlag, hempty] at htopic
  exact absurd htopic (by simp)

/-- A reset that the service accepts touches only the topics it is meant for,
except when it overreaches. -/
theorem reset_own_topics (cluster : List String) (answer : Answers)
    (hdoc : Documented cluster answer) (r : ResetRequest) (hr : r.validate = none) :
    TouchesOwnTopics answer r ↔ ¬ Overreaches cluster answer r :=
  ⟨fun hown h => not_own_of_overreaches hdoc hr h hown, own_of_not_overreaches hdoc hr⟩

/-! ## A cluster with one topic and a group without offsets -/

def listOrders (topics : List String) : Except Kafka.Error (List Offset) :=
  if topics = [] ∨ "orders" ∈ topics then .ok [⟨"orders", 0, 0⟩] else .ok []

def ordersAnswer : Answers
  | .lag _ => .ok (some { state := "Dead", lag := [] })
  | .listStartOffsets topics => listOrders topics
  | .listEndOffsets topics => listOrders topics
  | .listOffsetsAfterMilli _ topics => listOrders topics
  | .listTopics topic => .ok (if topic = "orders" then some 1 else none)
  | .createTopic .. | .deleteTopic _ | .commitAllOffsets .. | .deleteGroup _ | .newClient _ => none
  | .createPartitions .. => .ok none
  | .alterTopicConfigs .. => .ok (.ok none)
  | .closeClient => ()
  | .produceSync .. => .error "not available"

theorem ordersAnswer_documented : Documented ["orders"] ordersAnswer := by
  have hlists : Lists ["orders"] listOrders := by
    constructor
    · intro topics offsets hlisted hne o ho
      unfold listOrders at hlisted
      split at hlisted
      · next hor =>
          obtain rfl := Except.ok.inj hlisted
          rw [List.mem_singleton.1 ho]
          exact hor.resolve_left hne
      · obtain rfl := Except.ok.inj hlisted
        exact absurd ho (by simp)
    · intro offsets hlisted t
      obtain rfl := Except.ok.inj hlisted
      simp [eq_comm]
  exact ⟨hlists, hlists, fun _ => hlists⟩

def resetRequest (topics : List String) : ResetRequest :=
  { group := "billing", mode := "earliest", offset := 0, timestamp := 0, topics := topics }

theorem resetRequest_valid (topics : List String) : (resetRequest topics).validate = none := by
  have hgroup : isBlank "billing" = false := by
    rw [isBlank, toList_eq rfl]
    decide
  simp [ResetRequest.validate, resetRequest, hgroup]

theorem reset_own_topics_named : TouchesOwnTopics ordersAnswer (resetRequest ["orders"]) :=
  (reset_own_topics ["orders"] ordersAnswer ordersAnswer_documented (resetRequest ["orders"])
    (resetRequest_valid _)).2 fun h => absurd h.unnamed (by simp [resetRequest])

/-- The group gets an offset for a topic it has nothing to do with. -/
theorem reset_own_topics_not :
    Documented ["orders"] ordersAnswer ∧ (resetRequest []).validate = none ∧
      Call.commitAllOffsets "billing" [⟨"orders", 0, 0⟩] ∈
        (reset (resetRequest [])).issued ordersAnswer ∧
      groupTopics ordersAnswer "billing" = [] ∧
      ¬ TouchesOwnTopics ordersAnswer (resetRequest []) := by
  have hcommit : Call.commitAllOffsets "billing" [⟨"orders", 0, 0⟩] ∈
      (reset (resetRequest [])).issued ordersAnswer :=
    (mem_reset_issued (resetRequest_valid [])).2 ⟨rfl, _, rfl, by decide, rfl⟩
  refine ⟨ordersAnswer_documented, resetRequest_valid [], hcommit, rfl, fun hown => ?_⟩
  exact absurd (hown _ _ hcommit ⟨"orders", 0, 0⟩ (by simp)) (by
    simp [resetRequest, groupTopics, ordersAnswer])

end KafkaManager.Consumer
