import KafkaManager.Api.Auth

/-!
# How many guesses the login limiter lets through

The limiter looks at the failures recorded so far and lets a request go on;
the failure is recorded when the password has been compared. So it bounds the
guesses of a client only if the failures counted and the requests still at
work are five at most together whenever one more request is let through.

`LimitInv` is what the steps keep under that condition: every failed check is
recorded or its request is still to record it, and both together fit in the
budget.
-/

namespace Lib

variable {α : Type}

/-- What `find?` finds is what `eraseP` removes. -/
theorem perm_eraseP {p : α → Bool} {l : List α} {a : α} (h : l.find? p = some a) :
    l.Perm (a :: l.eraseP p) := by
  induction l with
  | nil => cases h
  | cons b l ih =>
      rw [List.find?_cons] at h
      rw [List.eraseP_cons]
      cases hb : p b with
      | true =>
          rw [hb] at h
          obtain rfl := Option.some.inj h
          exact List.Perm.refl _
      | false =>
          rw [hb] at h
          exact ((ih h).cons b).trans (List.Perm.swap a b _)

theorem countP_eraseP {p q : α → Bool} {l : List α} {a : α} (h : l.find? p = some a) :
    l.countP q = (l.eraseP p).countP q + if q a then 1 else 0 := by
  rw [(perm_eraseP h).countP_eq, List.countP_cons]

end Lib

namespace KafkaManager.Api

open Lib Auth

namespace AuthState

variable (s : AuthState)

/-- The failures counted. -/
def count (client : String) : Int :=
  match s.failures[client]? with
  | some failure => failure.count
  | none => 0

/-- The requests between the limiter and the end of their work. -/
def inFlight (client : String) : Nat := s.attempts.countP fun a => a.client == client

/-- Those whose check has failed since then. -/
def unrecorded (client : String) (since : Int) : Nat :=
  s.attempts.countP fun a => a.client == client && a.failedAt.any fun time => decide (since ≤ time)

def failedSince (client : String) (since : Int) : Nat :=
  s.failed.countP fun f => f.1 == client && decide (since ≤ f.2)

def recordedSince (client : String) (since : Int) : Nat :=
  s.recorded.countP fun f => f.1 == client && decide (since ≤ f.2)

/-- The checks that failed within five minutes of a first failure. -/
def failedIn (w : String × Int) : Nat :=
  s.failed.countP fun f => f.1 == w.1 && decide (w.2 ≤ f.2 ∧ f.2 < w.2 + failureWindow)

/-- The attempt a thread is at. -/
def attemptOf (t : Nat) : Option Attempt := s.attempts.find? fun a => a.thread == t

end AuthState

/-- What is known of five minutes from a first failure on: while they last,
their failed checks are counted or about to be. -/
def WindowOk (s : AuthState) (w : String × Int) : Prop :=
  w.2 ≤ s.clock ∧
    ((s.clock < w.2 + failureWindow ∧ ∃ failure, s.failures[w.1]? = some failure ∧
        failure.firstAt = w.2 ∧ (s.failedSince w.1 w.2 : Int) ≤ failure.count + s.unrecorded w.1 w.2) ∨
      (w.2 + failureWindow ≤ s.clock ∧ s.failedIn w ≤ 5))

structure LimitInv (s : AuthState) : Prop where
  counts : ∀ client, 0 ≤ s.count client
  budget : ∀ client, s.count client + s.inFlight client ≤ 5
  accounted : ∀ client since,
    s.failedSince client since ≤ s.recordedSince client since + s.unrecorded client since
  windows : ∀ w ∈ s.opened, WindowOk s w

section

variable {s : AuthState} {w : String × Int} {client : String}

theorem failedIn_le : s.failedIn w ≤ s.failedSince w.1 w.2 := by
  refine List.countP_mono_left fun f _ hf => ?_
  simp only [Bool.and_eq_true, decide_eq_true_eq] at hf ⊢
  exact ⟨hf.1, hf.2.1⟩

theorem unrecorded_le (client : String) (since : Int) :
    s.unrecorded client since ≤ s.inFlight client := by
  refine List.countP_mono_left fun a _ ha => ?_
  exact (Bool.and_eq_true_iff.1 ha).1

theorem count_of {failure : LoginFailures} (h : s.failures[client]? = some failure) :
    s.count client = failure.count := by
  unfold AuthState.count
  rw [h]

/-- While its five minutes last, too. -/
theorem LimitInv.failedIn (h : LimitInv s) (hw : w ∈ s.opened) : s.failedIn w ≤ 5 := by
  obtain ⟨-, ⟨-, failure, hfailure, -, hcount⟩ | ⟨-, hclosed⟩⟩ := h.windows w hw
  · have hbudget := h.budget w.1
    have hflight := unrecorded_le (s := s) w.1 w.2
    have hin := failedIn_le (s := s) (w := w)
    rw [count_of hfailure] at hbudget
    omega
  · exact hclosed

/-! ## What each step keeps -/

theorem LimitInv.wait (h : LimitInv s) (d : Nat) : LimitInv (s.wait d) := by
  refine ⟨h.counts, h.budget, h.accounted, fun w hw => ?_⟩
  obtain ⟨hstart, hcase⟩ := h.windows w hw
  have hclock : (s.wait d).clock = s.clock + d := rfl
  refine ⟨by omega, ?_⟩
  rcases Int.lt_or_le (s.clock + d) (w.2 + failureWindow) with hlt | hge
  · rcases hcase with ⟨-, hopen⟩ | ⟨hclosed, -⟩
    · exact .inl ⟨hlt, hopen⟩
    · omega
  · exact .inr ⟨hge, h.failedIn hw⟩

/-- The limiter forgets what has expired and nothing else. -/
theorem get_rateLimited (failures : Failures) (client : String) (now : Int) (x : String) :
    (rateLimited failures client now).2[x]? = failures[x]? ∨
      x = client ∧ (rateLimited failures client now).2[x]? = none ∧
        ∃ failure, failures[client]? = some failure ∧ now - failure.firstAt ≥ failureWindow := by
  unfold rateLimited
  split
  · exact .inl rfl
  · next failure hfailure =>
      split
      · next hexpired =>
          simp only [GoMap.get_erase]
          by_cases hx : client = x
          · rw [if_pos hx]
            exact .inr ⟨hx.symm, rfl, failure, hfailure, hexpired⟩
          · rw [if_neg hx]
            exact .inl rfl
      · exact .inl rfl

theorem count_of_get {s s' : AuthState} (h : s'.failures[client]? = s.failures[client]?) :
    s'.count client = s.count client := by
  unfold AuthState.count
  rw [h]

theorem count_of_none (h : s.failures[client]? = none) : s.count client = 0 := by
  unfold AuthState.count
  rw [h]

theorem LimitInv.pass (h : LimitInv s) {now : Int} (hnow : now ≤ s.clock) {t : Nat}
    (hturn : (s.setFailures (rateLimited s.failures client now).2).count client +
      s.inFlight client ≤ 4) :
    LimitInv ((s.setFailures (rateLimited s.failures client now).2).begin t client) := by
  have hflight : ∀ x, ((s.setFailures (rateLimited s.failures client now).2).begin t
      client).inFlight x = s.inFlight x + if client == x then 1 else 0 := fun x =>
    List.countP_cons
  have hunrecorded : ∀ x since, ((s.setFailures (rateLimited s.failures client now).2).begin t
      client).unrecorded x since = s.unrecorded x since := by
    intro x since
    simp [AuthState.unrecorded, AuthState.begin, AuthState.setFailures]
  have hcount : ∀ x, ((s.setFailures (rateLimited s.failures client now).2).begin t
      client).count x = s.count x ∨ x = client ∧
        ((s.setFailures (rateLimited s.failures client now).2).begin t client).count x = 0 := by
    intro x
    rcases get_rateLimited s.failures client now x with
      hget | ⟨hx, hget, -⟩
    · exact .inl (count_of_get hget)
    · exact .inr ⟨hx, count_of_none hget⟩
  refine ⟨fun x => ?_, fun x => ?_, fun x since => ?_, fun w hw => ?_⟩
  · have hpos := h.counts x
    rcases hcount x with hsame | ⟨-, hzero⟩ <;> omega
  · have hbudget := h.budget x
    rw [hflight]
    by_cases hx : client = x
    · subst hx
      have hsame : ((s.setFailures (rateLimited s.failures client now).2).begin t
        client).count client = (s.setFailures (rateLimited s.failures client now).2).count client :=
        rfl
      rw [hsame, if_pos (by simp)]
      omega
    · rw [if_neg (by simpa using hx)]
      rcases hcount x with hsame | ⟨hx', -⟩
      · omega
      · exact absurd hx'.symm hx
  · have haccounted := h.accounted x since
    rw [hunrecorded]
    exact haccounted
  · obtain ⟨hstart, ⟨hopen, failure, hfailure, hfirst, hcount⟩ | hclosed⟩ := h.windows w hw
    · refine ⟨hstart, .inl ⟨hopen, failure, ?_, hfirst, ?_⟩⟩
      · rcases get_rateLimited s.failures client now w.1 with
          hget | ⟨hx, -, failure', hfailure', hexpired⟩
        · exact hget.trans hfailure
        · rw [← hx, hfailure] at hfailure'
          obtain rfl := Option.some.inj hfailure'
          omega
      · rw [hunrecorded]
        exact hcount
    · exact ⟨hstart, .inr hclosed⟩

/-! A request ends. -/

section

variable {t : Nat} {a : Attempt}

theorem inFlight_finish (ha : s.attemptOf t = some a) (x : String) :
    s.inFlight x = (s.finish t).inFlight x + if a.client == x then 1 else 0 :=
  countP_eraseP ha

theorem unrecorded_finish (ha : s.attemptOf t = some a) (x : String) (since : Int) :
    s.unrecorded x since = (s.finish t).unrecorded x since +
      if a.client == x && a.failedAt.any (fun time => decide (since ≤ time)) then 1 else 0 :=
  countP_eraseP ha

/-- One whose check has not failed has nothing to record. -/
theorem unrecorded_finish_none (ha : s.attemptOf t = some ⟨t, client, none⟩) (x : String)
    (since : Int) : (s.finish t).unrecorded x since = s.unrecorded x since := by
  rw [unrecorded_finish ha x since]
  simp

theorem LimitInv.finish (h : LimitInv s) (ha : s.attemptOf t = some ⟨t, client, none⟩) :
    LimitInv (s.finish t) := by
  have hunrecorded := unrecorded_finish_none ha
  refine ⟨h.counts, fun x => ?_, fun x since => ?_, fun w hw => ?_⟩
  · have hbudget := h.budget x
    have hflight := inFlight_finish ha x
    have hcount : (s.finish t).count x = s.count x := rfl
    omega
  · rw [hunrecorded]
    exact h.accounted x since
  · obtain ⟨hstart, ⟨hopen, failure, hfailure, hfirst, hcount⟩ | hclosed⟩ := h.windows w hw
    · refine ⟨hstart, .inl ⟨hopen, failure, hfailure, hfirst, ?_⟩⟩
      rw [hunrecorded]
      exact hcount
    · exact ⟨hstart, .inr hclosed⟩

/-- The check of a request fails. -/
theorem LimitInv.fail (h : LimitInv s) (ha : s.attemptOf t = some ⟨t, client, none⟩) :
    LimitInv (s.fail t client) := by
  have hflight : ∀ x, (s.fail t client).inFlight x = s.inFlight x := by
    intro x
    rw [inFlight_finish ha x]
    exact List.countP_cons
  have hunrecorded : ∀ x since, (s.fail t client).unrecorded x since = s.unrecorded x since +
      if client == x && decide (since ≤ s.clock) then 1 else 0 := by
    intro x since
    rw [← unrecorded_finish_none ha x since]
    exact List.countP_cons
  have hfailed : ∀ x since, (s.fail t client).failedSince x since = s.failedSince x since +
      if client == x && decide (since ≤ s.clock) then 1 else 0 := fun x since => List.countP_cons
  refine ⟨h.counts, fun x => ?_, fun x since => ?_, fun w hw => ?_⟩
  · rw [hflight]
    exact h.budget x
  · have haccounted := h.accounted x since
    have hrecorded : (s.fail t client).recordedSince x since = s.recordedSince x since := rfl
    rw [hfailed, hunrecorded, hrecorded]
    omega
  · obtain ⟨hstart, ⟨hopen, failure, hfailure, hfirst, hcount⟩ | ⟨hclosed, hin⟩⟩ := h.windows w hw
    · refine ⟨hstart, .inl ⟨hopen, failure, hfailure, hfirst, ?_⟩⟩
      rw [hfailed, hunrecorded]
      push_cast
      omega
    · refine ⟨hstart, .inr ⟨hclosed, ?_⟩⟩
      have hlate : ¬ (w.2 ≤ s.clock ∧ s.clock < w.2 + failureWindow) := by omega
      have hsame : (s.fail t client).failedIn w = s.failedIn w := by
        unfold AuthState.failedIn AuthState.fail
        rw [List.countP_cons, if_neg (by simp [hlate])]
        rfl
      rw [hsame]
      exact hin

/-- A success. -/
theorem LimitInv.clear (h : LimitInv s) (ha : s.attemptOf t = some ⟨t, client, none⟩) :
    LimitInv ((s.clear client).finish t) := by
  have hfinish := h.finish ha
  have hget : ∀ x, ((s.clear client).finish t).failures[x]? =
      if client = x then none else s.failures[x]? := fun x => GoMap.get_erase _ _ _
  have hcount : ∀ x, ((s.clear client).finish t).count x = s.count x ∨
      ((s.clear client).finish t).count x = 0 := by
    intro x
    by_cases hx : client = x
    · exact .inr (count_of_none (by rw [hget, if_pos hx]))
    · exact .inl (count_of_get (by rw [hget, if_neg hx]))
  refine ⟨fun x => ?_, fun x => ?_, hfinish.accounted, fun w hw => ?_⟩
  · have hpos := h.counts x
    rcases hcount x with hsame | hzero <;> omega
  · have hpos := h.counts x
    have hbudget : s.count x + (s.finish t).inFlight x ≤ 5 := hfinish.budget x
    have hflight : ((s.clear client).finish t).inFlight x = (s.finish t).inFlight x := rfl
    rcases hcount x with hsame | hzero <;> omega
  · obtain ⟨hmem, hkept⟩ := List.mem_filter.1 hw
    obtain ⟨hstart, ⟨hopen, failure, hfailure, hfirst, hcount⟩ | hclosed⟩ := hfinish.windows w hmem
    · refine ⟨hstart, .inl ⟨hopen, failure, ?_, hfirst, hcount⟩⟩
      rw [hget, if_neg]
      · exact hfailure
      · rintro rfl
        have hclock : (s.finish t).clock = s.clock := rfl
        simp only [bne_self_eq_false, Bool.false_or, decide_eq_true_eq] at hkept
        omega
    · exact ⟨hstart, .inr hclosed⟩

/-- A failure is recorded. -/
theorem get_recordFailure {failures : Failures} {now : Int} (x : String) :
    (recordFailure failures client now)[x]? =
      if client = x then
        if opens failures client now then some ⟨1, now⟩
        else failures[client]?.map fun failure => { failure with count := failure.count + 1 }
      else failures[x]? := by
  unfold recordFailure opens
  split
  · next hnone =>
      rw [GoMap.get_insert]
      simp
  · next failure hfailure =>
      split
      · next hexpired =>
          rw [GoMap.get_insert]
          simp [hexpired]
      · next hlive =>
          rw [GoMap.get_insert]
          simp [hlive, hfailure]

theorem opens_expired {failures : Failures} {now : Int} {failure : LoginFailures}
    (h : failures[client]? = some failure) :
    opens failures client now = decide (now - failure.firstAt ≥ failureWindow) := by
  unfold opens
  rw [h]

section

variable {now time : Int}

theorem recordedSince_eq_zero (h : ∀ r ∈ s.recorded, r.1 = client → r.2 < now) :
    s.recordedSince client now = 0 := by
  refine List.countP_eq_zero.2 fun r hr hcounted => ?_
  simp only [Bool.and_eq_true, beq_iff_eq, decide_eq_true_eq] at hcounted
  have hlt := h r hr hcounted.1
  omega

/-- A first failure begins its five minutes. -/
theorem LimitInv.opened (h : LimitInv s) (ha : s.attemptOf t = some ⟨t, client, some time⟩)
    (hnow : now ≤ s.clock) (hopens : opens s.failures client now = true)
    (horder : ∀ r ∈ s.recorded, r.1 = client → r.2 < now) :
    WindowOk ((s.record client now).finish t) (client, now) := by
  have hrecorded := recordedSince_eq_zero horder
  have haccounted := h.accounted client now
  have hunrecorded := unrecorded_finish ha client now
  have hflight := unrecorded_le (s := s) client now
  have hbudget := h.budget client
  have hcount := h.counts client
  have hget : ((s.record client now).finish t).failures[client]? = some ⟨1, now⟩ := by
    refine (get_recordFailure client).trans ?_
    rw [if_pos rfl, if_pos hopens]
  refine ⟨hnow, ?_⟩
  rcases Int.lt_or_le s.clock (now + failureWindow) with hopen | hclosed
  · refine .inl ⟨hopen, _, hget, rfl, ?_⟩
    have hfailed : ((s.record client now).finish t).failedSince client now =
        s.failedSince client now := rfl
    have hleft : ((s.record client now).finish t).unrecorded client now =
        (s.finish t).unrecorded client now := rfl
    rw [hfailed, hleft]
    show (s.failedSince client now : Int) ≤ 1 + (s.finish t).unrecorded client now
    split at hunrecorded <;> omega
  · refine .inr ⟨hclosed, ?_⟩
    have hin : s.failedIn (client, now) ≤ s.failedSince client now := failedIn_le
    have hsame : ((s.record client now).finish t).failedIn (client, now) =
        s.failedIn (client, now) := rfl
    omega

/-- A window that is open stays so, one failure further. -/
theorem LimitInv.reopened (h : LimitInv s) (ha : s.attemptOf t = some ⟨t, client, some time⟩)
    (hnow : now ≤ s.clock) {w : String × Int} (hw : w ∈ s.opened) :
    WindowOk ((s.record client now).finish t) w := by
  have hget : ((s.record client now).finish t).failures[w.1]? = _ := get_recordFailure w.1
  have hunrecorded : s.unrecorded w.1 w.2 = ((s.record client now).finish t).unrecorded w.1 w.2 +
      if client == w.1 && decide (w.2 ≤ time) then 1 else 0 := unrecorded_finish ha w.1 w.2
  have hfailed : ((s.record client now).finish t).failedSince w.1 w.2 = s.failedSince w.1 w.2 := rfl
  obtain ⟨hstart, ⟨hopen, failure, hfailure, hfirst, hcounted⟩ | hclosed⟩ := h.windows w hw
  · by_cases hclient : client = w.1
    · subst hclient
      have hlive : opens s.failures w.1 now = false := by
        rw [opens_expired hfailure, decide_eq_false_iff_not]
        omega
      refine ⟨hstart, .inl ⟨hopen, { failure with count := failure.count + 1 }, ?_, hfirst, ?_⟩⟩
      · rw [hget, if_pos rfl, if_neg (by simp [hlive]), hfailure, Option.map_some]
      · rw [hfailed]
        show (s.failedSince w.1 w.2 : Int) ≤ failure.count + 1 + _
        split at hunrecorded <;> omega
    · refine ⟨hstart, .inl ⟨hopen, failure, ?_, hfirst, ?_⟩⟩
      · rw [hget, if_neg hclient]
        exact hfailure
      · rw [if_neg (by simp [hclient])] at hunrecorded
        rw [hfailed]
        omega
  · exact ⟨hstart, .inr hclosed⟩

theorem mem_opened_record {w : String × Int}
    (hw : w ∈ ((s.record client now).finish t).opened) :
    w ∈ s.opened ∨ opens s.failures client now = true ∧ w = (client, now) := by
  by_cases hopens : opens s.failures client now = true
  · have hmem : w ∈ (client, now) :: s.opened := by
      simpa [AuthState.record, AuthState.finish, hopens] using hw
    rcases List.mem_cons.1 hmem with rfl | hmem
    · exact .inr ⟨hopens, rfl⟩
    · exact .inl hmem
  · have hmem : w ∈ s.opened := by
      simpa [AuthState.record, AuthState.finish, hopens] using hw
    exact .inl hmem

theorem LimitInv.record (h : LimitInv s) (ha : s.attemptOf t = some ⟨t, client, some time⟩)
    (htime : time ≤ now) (hnow : now ≤ s.clock)
    (horder : opens s.failures client now = true → ∀ r ∈ s.recorded, r.1 = client → r.2 < now) :
    LimitInv ((s.record client now).finish t) := by
  have hflight : ∀ x, s.inFlight x = ((s.record client now).finish t).inFlight x +
      if client == x then 1 else 0 := inFlight_finish ha
  have hunrecorded : ∀ x since, s.unrecorded x since =
      ((s.record client now).finish t).unrecorded x since +
        if client == x && decide (since ≤ time) then 1 else 0 := unrecorded_finish ha
  have hget : ∀ x, ((s.record client now).finish t).failures[x]? = _ := get_recordFailure
  have hcount : ((s.record client now).finish t).count client = 1 ∨
      ((s.record client now).finish t).count client = s.count client + 1 := by
    have hclient := hget client
    rw [if_pos rfl] at hclient
    by_cases hopens : opens s.failures client now = true
    · rw [if_pos hopens] at hclient
      exact .inl (count_of hclient)
    · rw [if_neg hopens] at hclient
      cases hfailure : s.failures[client]? with
      | none => exact absurd (by simp [opens, hfailure]) hopens
      | some failure =>
          rw [hfailure, Option.map_some] at hclient
          exact .inr (by rw [count_of hclient, count_of hfailure])
  have hother : ∀ x, client ≠ x → ((s.record client now).finish t).count x = s.count x :=
    fun x hx => count_of_get (by rw [hget, if_neg hx])
  refine ⟨fun x => ?_, fun x => ?_, fun x since => ?_, fun w hw => ?_⟩
  · have hpos := h.counts x
    by_cases hx : client = x
    · subst hx
      rcases hcount with hone | hmore <;> omega
    · rw [hother x hx]
      exact hpos
  · have hpos := h.counts x
    have hbudget := h.budget x
    have hx' := hflight x
    by_cases hx : client = x
    · subst hx
      rw [if_pos (by simp)] at hx'
      rcases hcount with hone | hmore <;> omega
    · rw [hother x hx]
      omega
  · have haccounted := h.accounted x since
    have hx := hunrecorded x since
    have hfailed : ((s.record client now).finish t).failedSince x since = s.failedSince x since :=
      rfl
    have hrecorded : ((s.record client now).finish t).recordedSince x since =
        s.recordedSince x since + if client == x && decide (since ≤ now) then 1 else 0 :=
      List.countP_cons
    rw [hfailed, hrecorded]
    by_cases hcounted : (client == x && decide (since ≤ time)) = true
    · have hlater : (client == x && decide (since ≤ now)) = true := by
        simp only [Bool.and_eq_true, decide_eq_true_eq] at hcounted ⊢
        exact ⟨hcounted.1, by omega⟩
      rw [if_pos hcounted] at hx
      rw [if_pos hlater]
      omega
    · rw [if_neg hcounted] at hx
      omega
  · rcases mem_opened_record hw with hmem | ⟨hopens, rfl⟩
    · exact h.reopened ha hnow hmem
    · exact h.opened ha hnow hopens (horder hopens)

end

end

end

/-! ## What a request relies on -/

section

variable {s : AuthState} {t t' : Nat} {client : String}

theorem find_eraseP_ne (h : t' ≠ t) (l : List Attempt) :
    (l.eraseP fun a => a.thread == t).find? (fun a => a.thread == t') =
      l.find? fun a => a.thread == t' := by
  induction l with
  | nil => rfl
  | cons a l ih =>
      by_cases ha : a.thread = t
      · have hne : (a.thread == t') = false := by
          rw [ha]
          simpa using h.symm
        rw [List.eraseP_cons_of_pos (by simpa using ha), List.find?_cons, hne]
      · rw [List.eraseP_cons_of_neg (by simpa using ha), List.find?_cons, List.find?_cons, ih]

theorem attemptOf_finish (h : t' ≠ t) : (s.finish t).attemptOf t' = s.attemptOf t' :=
  find_eraseP_ne h s.attempts

theorem attemptOf_begin (h : t' ≠ t) : (s.begin t client).attemptOf t' = s.attemptOf t' :=
  List.find?_cons_of_neg (by simpa using h.symm)

theorem attemptOf_begin_self : (s.begin t client).attemptOf t = some ⟨t, client, none⟩ :=
  List.find?_cons_of_pos (by simp)

theorem attemptOf_fail (h : t' ≠ t) : (s.fail t client).attemptOf t' = s.attemptOf t' :=
  (List.find?_cons_of_neg (by simpa using h.symm)).trans (find_eraseP_ne h s.attempts)

theorem attemptOf_fail_self :
    (s.fail t client).attemptOf t = some ⟨t, client, some s.clock⟩ :=
  List.find?_cons_of_pos (by simp)

end

/-- A thread's attempt is its own, and time does not run back. -/
def LoginRely (t : Nat) (s s' : AuthState) : Prop :=
  s.clock ≤ s'.clock ∧ s'.attemptOf t = s.attemptOf t

/-- What holds when a thread is about to issue a command. -/
def LoginPre (t : Nat) : AuthCmd → AuthState → Prop
  | .now, _ | .wallClock, _ => True
  | .rateLimited _ reading, s => reading ≤ s.clock
  | .decode, s => ∃ client, s.attemptOf t = some ⟨t, client, none⟩
  | .check client _, s | .clearFailures client, s => s.attemptOf t = some ⟨t, client, none⟩
  | .recordFailure client reading, s => ∃ time, s.attemptOf t = some ⟨t, client, some time⟩ ∧
      time ≤ reading ∧ reading ≤ s.clock

def loginProtocol : Protocol AuthCmd AuthState where
  inv _ := True
  rely := LoginRely
  pre := LoginPre
  refl _ _ := ⟨Int.le_refl _, rfl⟩
  trans _ _ _ _ h h' := ⟨Int.le_trans h.1 h'.1, h'.2.trans h.2⟩

section

variable {idKey : IDKey} {hmac : List UInt8 → List UInt8 → List UInt8} {h : AuthHandler}

variable (hmac) in
theorem finishLogin_safe {t : Nat} {s : AuthState} {client : String} (tls : Bool)
    (ok : Option Bool)
    (hattempt : ok = some true → s.attemptOf t = some ⟨t, client, none⟩)
    (hfailed : ok = some false → ∃ time, s.attemptOf t = some ⟨t, client, some time⟩ ∧
      time ≤ s.clock) :
    loginProtocol.Safe (AuthCmd.exec idKey h) t (fun _ _ => True)
      (finishLogin hmac h tls client ok) s := by
  match ok with
  | none => exact fun s' _ _ => trivial
  | some false =>
      obtain ⟨time, htime, hclock⟩ := hfailed rfl
      refine Protocol.Safe.cmd fun s₁ hrely₁ _ => ⟨trivial, fun o reading s₂ hexec => ?_⟩
      obtain ⟨rfl, rfl⟩ := Prod.mk.inj (Option.some.inj hexec)
      refine ⟨trivial, fun t' _ => ⟨Int.le_refl _, rfl⟩, ?_⟩
      refine Protocol.Safe.cmd fun s₂ hrely₂ _ => ⟨⟨time, ?_, ?_, hrely₂.1⟩,
        fun o _ s₃ hexec => ?_⟩
      · rw [hrely₂.2, hrely₁.2, htime]
      · exact Int.le_trans hclock hrely₁.1
      · obtain ⟨-, rfl⟩ := Prod.mk.inj (Option.some.inj hexec)
        exact ⟨trivial, fun t' ht' => ⟨Int.le_refl _, attemptOf_finish ht'⟩, fun _ _ _ => trivial⟩
  | some true =>
      have htime := hattempt rfl
      refine Protocol.Safe.cmd fun s₁ hrely₁ _ => ⟨hrely₁.2.trans htime,
        fun o _ s₂ hexec => ?_⟩
      obtain ⟨-, rfl⟩ := Prod.mk.inj (Option.some.inj hexec)
      refine ⟨trivial, fun t' ht' => ⟨Int.le_refl _, attemptOf_finish ht'⟩, ?_⟩
      refine Protocol.Safe.query fun s₃ _ _ => ⟨trivial, fun o r s₄ hexec => ?_⟩
      obtain ⟨r', -, heq⟩ := Option.map_eq_some_iff.1 hexec
      obtain ⟨rfl, rfl⟩ := Prod.mk.inj heq
      exact ⟨rfl, fun _ _ _ => trivial⟩

theorem login_safe (r : LoginRequest) (t : Nat) (s : AuthState) :
    loginProtocol.Safe (AuthCmd.exec idKey h) t (fun _ _ => True) (login hmac h r) s := by
  refine Protocol.Safe.cmd fun s₁ _ _ => ⟨trivial, fun o reading s₂ hexec => ?_⟩
  obtain ⟨rfl, rfl⟩ := Prod.mk.inj (Option.some.inj hexec)
  refine ⟨trivial, fun t' _ => ⟨Int.le_refl _, rfl⟩, ?_⟩
  refine Protocol.Safe.cmd fun s₂ hrely₂ _ => ⟨hrely₂.1, fun o limited s₃ hexec => ?_⟩
  obtain ⟨hlimited, rfl⟩ := Prod.mk.inj (Option.some.inj hexec)
  rw [hlimited]
  cases limited with
  | true => exact ⟨trivial, fun t' _ => ⟨Int.le_refl _, rfl⟩, fun _ _ _ => trivial⟩
  | false =>
      rw [if_neg (by simp)]
      refine ⟨trivial, fun t' ht' => ⟨Int.le_refl _, attemptOf_begin ht'⟩, ?_⟩
      refine Protocol.Safe.cmd fun s₃ hrely₃ _ => ?_
      have hattempt : s₃.attemptOf t = some ⟨t, clientHost r.remoteAddress, none⟩ := by
        rw [hrely₃.2]
        exact attemptOf_begin_self
      refine ⟨⟨_, hattempt⟩, fun o credentials s₄ hexec => ?_⟩
      obtain ⟨c, -, heq⟩ := Option.map_eq_some_iff.1 hexec
      obtain ⟨rfl, rfl⟩ := Prod.mk.inj heq
      cases c with
      | none => exact ⟨trivial, fun t' ht' => ⟨Int.le_refl _, attemptOf_finish ht'⟩,
          fun _ _ _ => trivial⟩
      | some c =>
          refine ⟨trivial, fun t' _ => ⟨Int.le_refl _, rfl⟩, ?_⟩
          refine Protocol.Safe.cmd fun s₄ hrely₄ _ => ?_
          have hattempt₄ : s₄.attemptOf t = some ⟨t, clientHost r.remoteAddress, none⟩ := by
            rw [hrely₄.2]
            exact hattempt
          refine ⟨hattempt₄, fun o ok s₅ hexec => ?_⟩
          simp only [AuthCmd.exec] at hexec
          split at hexec
          · obtain ⟨rfl, rfl⟩ := Prod.mk.inj (Option.some.inj hexec)
            exact ⟨trivial, fun t' ht' => ⟨Int.le_refl _, attemptOf_finish ht'⟩,
              fun _ _ _ => trivial⟩
          · obtain ⟨rfl, rfl⟩ := Prod.mk.inj (Option.some.inj hexec)
            exact ⟨trivial, fun t' _ => ⟨Int.le_refl _, rfl⟩,
              finishLogin_safe hmac r.tls (some true) (fun _ => hattempt₄) nofun⟩
          · obtain ⟨rfl, rfl⟩ := Prod.mk.inj (Option.some.inj hexec)
            exact ⟨trivial, fun t' ht' => ⟨Int.le_refl _, attemptOf_fail ht'⟩,
              finishLogin_safe hmac r.tls (some false) nofun
                fun _ => ⟨s₄.clock, attemptOf_fail_self, Int.le_refl _⟩⟩

theorem authServer_respects :
    (authServer idKey hmac h).Respects loginProtocol (fun _ _ _ => True) where
  env d s _ := ⟨trivial, fun t => ⟨by show s.clock ≤ s.clock + d; omega, rfl⟩⟩
  prog r t s _ := login_safe r t s

/-- What is left of a login: a request the limiter stops is answered at once. -/
def LoginShape : AuthProg LoginReply → Prop
  | .cmd (.rateLimited ..) k => k true = .ret tooManyAttempts
  | _ => True

theorem login_always (r : LoginRequest) : (login hmac h r).Always LoginShape := by
  have hfinish : ∀ ok, (finishLogin hmac h r.tls (clientHost r.remoteAddress) ok).Always
      LoginShape := by
    intro ok
    match ok with
    | none => trivial
    | some false => exact ⟨trivial, fun _ => ⟨trivial, fun _ => trivial⟩⟩
    | some true => exact ⟨trivial, fun _ => ⟨trivial, fun _ => trivial⟩⟩
  refine ⟨trivial, fun reading => ⟨rfl, fun limited => ?_⟩⟩
  cases limited with
  | true => trivial
  | false =>
      refine ⟨trivial, fun credentials => ?_⟩
      cases credentials with
      | none => trivial
      | some c => exact ⟨trivial, hfinish⟩

/-! ## Runs -/

/-- A step in turn. A request passes the limiter only if with it five failures
at most can be counted, and what opens five minutes was read later than
whatever has been recorded. -/
def inTurn (p : AuthPool) : AuthEvent → Bool
  | .thread t _ =>
      match p.threads[t]? with
      | some (.cmd (.rateLimited client reading) _) =>
          let (limited, failures) := rateLimited p.shared.failures client reading
          limited || decide ((p.shared.setFailures failures).count client +
            p.shared.inFlight client ≤ 4)
      | some (.cmd (.recordFailure client reading) _) =>
          !opens p.shared.failures client reading ||
            p.shared.recorded.all fun r => r.1 != client || decide (r.2 < reading)
      | _ => true
  | .spawn _ | .env _ => true

/-- A handler nobody has logged in with. -/
def FreshAuth (p : AuthPool) : Prop := ∃ clock, p = newAuthPool clock

/-- What holds in every run whose steps are in turn. -/
structure LoginInv (idKey : IDKey) (hmac : List UInt8 → List UInt8 → List UInt8)
    (h : AuthHandler) (p : AuthPool) : Prop where
  ok : p.Ok loginProtocol (authServer idKey hmac h) fun _ _ _ => True
  shape : ∀ prog ∈ p.threads, prog.Always LoginShape
  limit : LimitInv p.shared

theorem LoginInv.new (clock : Int) : LoginInv idKey hmac h (newAuthPool clock) where
  ok := ⟨trivial, fun t prog ht => by cases ht⟩
  shape := by simp [newAuthPool]
  limit := by
    have hcount : ∀ client, (newAuthPool clock).shared.count client = 0 := fun client =>
      count_of_none rfl
    refine ⟨fun client => ?_, fun client => ?_, fun client since => ?_, fun w hw => ?_⟩
    · have hzero := hcount client
      omega
    · have hzero := hcount client
      have hflight : (newAuthPool clock).shared.inFlight client = 0 := rfl
      omega
    · exact Nat.zero_le _
    · cases hw

/-- The next command of a thread, in turn, keeps the budget. -/
theorem LimitInv.exec {s s' : AuthState} {t : Nat} {c : AuthCmd}
    {o : Oracle AuthCmd AuthCmd.Answer} {r : c.Answer} (hs : LimitInv s) (hpre : LoginPre t c s)
    (hexec : AuthCmd.exec idKey h t c o s = some (r, s'))
    (hpass : ∀ client reading, c = .rateLimited client reading →
      (rateLimited s.failures client reading).1 = false →
        (s.setFailures (rateLimited s.failures client reading).2).count client +
          s.inFlight client ≤ 4)
    (horder : ∀ client reading, c = .recordFailure client reading →
      opens s.failures client reading = true → ∀ r ∈ s.recorded, r.1 = client → r.2 < reading) :
    LimitInv s' := by
  cases c with
  | now =>
      obtain ⟨-, rfl⟩ := Prod.mk.inj (Option.some.inj hexec)
      exact hs
  | wallClock =>
      obtain ⟨_, -, heq⟩ := Option.map_eq_some_iff.1 hexec
      obtain ⟨-, rfl⟩ := Prod.mk.inj heq
      exact hs
  | rateLimited client reading =>
      obtain ⟨hlimited, rfl⟩ := Prod.mk.inj (Option.some.inj hexec)
      rw [hlimited]
      cases r with
      | true => exact hs
      | false => exact hs.pass hpre (hpass client reading rfl hlimited)
  | decode =>
      obtain ⟨credentials, -, heq⟩ := Option.map_eq_some_iff.1 hexec
      obtain ⟨-, rfl⟩ := Prod.mk.inj heq
      obtain ⟨client, hattempt⟩ := hpre
      cases credentials with
      | none => exact hs.finish hattempt
      | some c => exact hs
  | check client credentials =>
      simp only [AuthCmd.exec] at hexec
      split at hexec
      · obtain ⟨-, rfl⟩ := Prod.mk.inj (Option.some.inj hexec)
        exact hs.finish hpre
      · obtain ⟨-, rfl⟩ := Prod.mk.inj (Option.some.inj hexec)
        exact hs
      · obtain ⟨-, rfl⟩ := Prod.mk.inj (Option.some.inj hexec)
        exact hs.fail hpre
  | recordFailure client reading =>
      obtain ⟨-, rfl⟩ := Prod.mk.inj (Option.some.inj hexec)
      obtain ⟨time, hattempt, htime, hreading⟩ := hpre
      exact hs.record hattempt htime hreading (horder client reading rfl)
  | clearFailures client =>
      obtain ⟨-, rfl⟩ := Prod.mk.inj (Option.some.inj hexec)
      exact hs.clear hpre

theorem LoginInv.step {p : AuthPool} (hp : LoginInv idKey hmac h p) {e : AuthEvent}
    (he : inTurn p e = true) : LoginInv idKey hmac h ((authServer idKey hmac h).step p e) := by
  refine ⟨Pool.step_ok authServer_respects hp.ok e,
    Machine.always_step _ login_always hp.shape e, ?_⟩
  cases e with
  | spawn r => exact hp.limit
  | env d => exact hp.limit.wait d
  | thread t o =>
      show LimitInv ((authServer idKey hmac h).advance p t o).shared
      rcases (authServer idKey hmac h).advance_cases p t o with heq |
        ⟨c, k, r, s', hc, hexec, heq⟩
      · rw [heq]
        exact hp.limit
      · rw [heq]
        refine hp.limit.exec (hp.ok.pre hc) hexec ?_ ?_
        · rintro client reading rfl hlimited
          simpa [inTurn, hc, hlimited] using he
        · rintro client reading rfl hopens r hr hclient
          have hall := he
          simp only [inTurn, hc, hopens, Bool.not_true, Bool.false_or, List.all_eq_true,
            Bool.or_eq_true, bne_iff_ne, ne_eq, decide_eq_true_eq] at hall
          rcases hall r hr with hne | hlt
          · exact absurd hclient hne
          · exact hlt

theorem loginInv {p : AuthPool} (hp : Reach (authServer idKey hmac h).step inTurn FreshAuth p) :
    LoginInv idKey hmac h p := by
  refine hp.invariant ?_ fun s e hs he => hs.step he
  rintro _ ⟨clock, rfl⟩
  exact LoginInv.new clock

/-! ## The results -/

/-- Of the checks of a client within five minutes of a first failure, five fail
at most, and once five have, none is to come and every further request is
refused by the limiter, if its step is in turn. -/
structure Guarded (idKey : IDKey) (hmac : List UInt8 → List UInt8 → List UInt8)
    (h : AuthHandler) (p : AuthPool) : Prop where
  failures : ∀ w ∈ p.shared.opened, p.shared.failedIn w ≤ 5
  unchecked : ∀ w ∈ p.shared.opened, p.shared.clock < w.2 + failureWindow →
    p.shared.failedIn w = 5 → ∀ (t : Nat) (credentials : Credentials)
      (k : Option Bool → AuthProg LoginReply),
      p.threads[t]? ≠ some (.cmd (.check w.1 credentials) k)
  refused : ∀ w ∈ p.shared.opened, p.shared.clock < w.2 + failureWindow →
    p.shared.failedIn w = 5 → ∀ (t : Nat) (reading : Int) (k : Bool → AuthProg LoginReply)
      (o : Oracle AuthCmd AuthCmd.Answer),
      p.threads[t]? = some (.cmd (.rateLimited w.1 reading) k) →
        inTurn p (.thread t o) = true →
          ((authServer idKey hmac h).step p (.thread t o)).threads[t]? =
            some (.ret tooManyAttempts)

/-- Once five checks have failed, the failures counted and those about to be
are the whole budget. -/
theorem LimitInv.full {s : AuthState} {w : String × Int} (hs : LimitInv s) (hw : w ∈ s.opened)
    (hopen : s.clock < w.2 + failureWindow) (hfull : s.failedIn w = 5) :
    ∃ failure, s.failures[w.1]? = some failure ∧ failure.firstAt = w.2 ∧
      s.unrecorded w.1 w.2 = s.inFlight w.1 ∧ failure.count + s.inFlight w.1 = 5 := by
  obtain ⟨-, ⟨-, failure, hfailure, hfirst, hcount⟩ | ⟨hclosed, -⟩⟩ := hs.windows w hw
  · have hbudget := hs.budget w.1
    have hflight := unrecorded_le (s := s) w.1 w.2
    have hin := failedIn_le (s := s) (w := w)
    rw [count_of hfailure] at hbudget
    exact ⟨failure, hfailure, hfirst, by omega, by omega⟩
  · omega

/-- A request that has not been checked has no failure to record. -/
theorem unrecorded_lt {s : AuthState} {t : Nat} {client : String} (since : Int)
    (ha : s.attemptOf t = some ⟨t, client, none⟩) :
    s.unrecorded client since < s.inFlight client := by
  have hflight := inFlight_finish ha client
  have hunrecorded := unrecorded_finish_none ha client since
  have hle := unrecorded_le (s := s.finish t) client since
  rw [if_pos (by simp)] at hflight
  omega

theorem LoginInv.guarded {p : AuthPool} (hp : LoginInv idKey hmac h p) :
    Guarded idKey hmac h p := by
  refine ⟨fun w hw => hp.limit.failedIn hw, ?_, ?_⟩
  · intro w hw hopen hfull t credentials k ht
    obtain ⟨failure, -, -, hflight, -⟩ := hp.limit.full hw hopen hfull
    have hattempt : p.shared.attemptOf t = some ⟨t, w.1, none⟩ := hp.ok.pre ht
    have hlt := unrecorded_lt w.2 hattempt
    omega
  · intro w hw hopen hfull t reading k o ht hturn
    obtain ⟨failure, hfailure, hfirst, -, hbudget⟩ := hp.limit.full hw hopen hfull
    have hreading : reading ≤ p.shared.clock := hp.ok.pre ht
    have hlimiter : rateLimited p.shared.failures w.1 reading =
        (decide (failure.count ≥ 5), p.shared.failures) := by
      unfold rateLimited
      rw [hfailure]
      exact if_neg (by omega)
    have hlimited : (rateLimited p.shared.failures w.1 reading).1 = true := by
      have hpass := hturn
      simp only [inTurn, ht, hlimiter, Bool.or_eq_true, decide_eq_true_eq] at hpass
      rw [hlimiter, decide_eq_true_eq]
      rcases hpass with hcount | hcount
      · exact hcount
      · have hsame : (p.shared.setFailures p.shared.failures).count w.1 = failure.count :=
          count_of hfailure
        omega
    have hexec : AuthCmd.exec idKey h t (.rateLimited w.1 reading) o p.shared =
        some (true, p.shared) := by
      simp only [AuthCmd.exec, hlimited]
      rfl
    have hshape : k true = .ret tooManyAttempts :=
      (hp.shape _ (List.mem_of_getElem? ht)).now
    have hstep : (authServer idKey hmac h).step p (.thread t o) =
        { shared := p.shared, threads := p.threads.set t (k true) } :=
      (authServer idKey hmac h).run_thread ht hexec []
    obtain ⟨hlt, -⟩ := List.getElem?_eq_some_iff.1 ht
    rw [hstep, ← hshape]
    exact List.getElem?_set_self hlt

end

/-! Somebody guesses. -/

def guessedHandler : AuthHandler := ⟨"admin", "secret", "", ⟨[], 0⟩⟩

/-- Argon2id is not used, nor is a signature. -/
abbrev guessing : Machine AuthCmd AuthCmd.Answer LoginReply AuthState Nat LoginRequest :=
  authServer (fun _ _ _ _ _ _ => none) (fun _ _ => []) guessedHandler

def wrongGuess : Oracle AuthCmd AuthCmd.Answer
  | .decode => some (some ⟨"admin", "wrong"⟩)
  | _ => none

def guessTurns (t n : Nat) : List AuthEvent := List.replicate n (.thread t wrongGuess)

def guess : AuthEvent := .spawn ⟨"192.0.2.10:1234", false⟩

/-- Six requests that pass the limiter together. -/
def guessTogether : List AuthEvent :=
  List.replicate 6 guess ++ ((List.range 6).flatMap fun t => guessTurns t 3) ++
    (List.range 6).flatMap fun t => guessTurns t 3

/-- Six requests one after the other. -/
def guessInTurn : List AuthEvent := (List.range 6).flatMap fun t => guess :: guessTurns t 6

theorem failures_bounded_together :
    Reach guessing.step (fun _ _ => true) FreshAuth (run guessing.step (newAuthPool 0) guessTogether) ∧
      ("192.0.2.10", 0) ∈ (run guessing.step (newAuthPool 0) guessTogether).shared.opened ∧
      (run guessing.step (newAuthPool 0) guessTogether).shared.failedIn ("192.0.2.10", 0) = 6 :=
  ⟨Reach.run_any (.init ⟨0, rfl⟩) guessTogether, by decide +kernel, by decide +kernel⟩

/-- In every run whose steps are in turn at most five checks of a client fail
within five minutes of a first failure, and then none is to come. -/
theorem failures_bounded (idKey : IDKey) (hmac : List UInt8 → List UInt8 → List UInt8)
    (h : AuthHandler) {p : AuthPool}
    (hp : Reach (authServer idKey hmac h).step inTurn FreshAuth p) : Guarded idKey hmac h p :=
  (loginInv hp).guarded

theorem failures_bounded_inTurn :
    (run guessing.step (newAuthPool 0) guessInTurn).shared.failedIn ("192.0.2.10", 0) = 5 ∧
      Guarded (fun _ _ _ _ _ _ => none) (fun _ _ => []) guessedHandler
        (run guessing.step (newAuthPool 0) guessInTurn) :=
  ⟨by decide +kernel, failures_bounded _ _ _ (Reach.run (.init ⟨0, rfl⟩) (by decide +kernel))⟩

end KafkaManager.Api
