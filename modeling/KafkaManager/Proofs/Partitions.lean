import Mathlib.Algebra.BigOperators.Group.Finset.Basic
import Mathlib.Algebra.Order.BigOperators.Group.Finset
import Mathlib.Algebra.Order.Ring.Int
import KafkaManager.Kafka.Topic
import KafkaManager.Lib.Threads

/-!
# How many partitions are added

Any number of requests add partitions to one topic, in any interleaving of
their reads and their sends. The cluster adds what it is sent, so a request that
read `current` partitions and asks for `k` more adds `current + k`
(`Added`): after all requests have finished the topic has too many partitions
unless none of them was accepted.

`Ledger` is the topic with the amounts accepted so far, by request. A number of
partitions is an `int32` on the wire, so a larger total is refused.
-/

namespace KafkaManager.Topic

open Lib Kafka

structure Ledger where
  partitions : Nat
  accepted : Nat → Option Int

def Ledger.accept (s : Ledger) (t : Nat) (add : Int) : Ledger :=
  { partitions := s.partitions + add.toNat
    accepted := Function.update s.accepted t (some add) }

@[simp] theorem Ledger.accept_partitions (s : Ledger) (t : Nat) (add : Int) :
    (s.accept t add).partitions = s.partitions + add.toNat := rfl

@[simp] theorem Ledger.accept_self (s : Ledger) (t : Nat) (add : Int) :
    (s.accept t add).accepted t = some add := Function.update_self ..

theorem Ledger.accept_of_ne (s : Ledger) {t u : Nat} (h : u ≠ t) (add : Int) :
    (s.accept t add).accepted u = s.accepted u := Function.update_of_ne h ..

/-- A final count the cluster may accept. -/
def Ledger.fits (s : Ledger) (add : Int) : Bool :=
  0 < add && (s.partitions : Int) + add < 2 ^ 31

/-- What a call of thread `t` does to the topic. The outside decides which
calls fail, and which accepted counts are refused all the same. -/
def Ledger.exec (t : Nat) : (c : Call) → Oracle Call Call.Answer → Ledger →
    Option (c.Answer × Ledger)
  | .listTopics topic, o, s =>
      match o (.listTopics topic) with
      | some (.ok (some _)) => some (.ok (some s.partitions), s)
      | r => r.map fun r => (r, s)
  | .createPartitions add topic, o, s =>
      match o (.createPartitions add topic) with
      | some (.ok none) =>
          if s.fits add then some (.ok none, s.accept t add)
          else some (.ok (some "INVALID_PARTITIONS"), s)
      | r => r.map fun r => (r, s)
  | c, o, s => (o c).map fun r => (r, s)

/-- Requests to add partitions, one a thread. -/
def partitionMachine : Machine Call Call.Answer (Option TopicError) Ledger Empty Empty where
  exec := Ledger.exec
  env e _ := e.elim
  prog r := r.elim

/-- A topic with `n` partitions, and a request for each increment. -/
def partitionRequests (name : String) (n : Nat) (increments : List Int) :
    Pool Call Call.Answer (Option TopicError) Ledger where
  shared := { partitions := n, accepted := fun _ => none }
  threads := increments.map (addPartitions name)

def succeeded : KafkaProg (Option TopicError) → Bool
  | .ret none => true
  | _ => false

/-- The increments of the requests that returned success, together. -/
def granted (increments : List Int) (p : Pool Call Call.Answer (Option TopicError) Ledger) : Int :=
  ∑ t ∈ Finset.range increments.length,
    if p.threads[t]?.any succeeded then increments[t]?.getD 0 else 0

/-! ## What one request adds -/

/-- A sum of `int`s that comes out positive and small did not wrap. -/
theorem targetPartitionCount_eq {current : Nat} {increment : Int} (hcurrent : current < 2 ^ 31)
    (hpos : 1 ≤ increment) (hint : increment < 2 ^ 63)
    (hadd : 0 < targetPartitionCount current increment) :
    targetPartitionCount current increment = current + increment := by
  unfold targetPartitionCount at hadd ⊢
  rcases lt_or_ge ((current : Int) + increment) (2 ^ 63) with hlt | hge
  · exact Int.bmod_eq_of_le (by omega) (by omega)
  · -- It wrapped, so it is negative.
    have hmod : ((current : Int) + increment) % (2 ^ 64 : Nat) = current + increment :=
      Int.emod_eq_of_lt (by omega) (by omega)
    rw [Int.bmod, hmod, if_neg (by omega)] at hadd
    omega

section

variable (n : Nat) (increments : List Int)

/-- The topic has what it began with and what was accepted. -/
structure Counts (s : Ledger) : Prop where
  total : (s.partitions : Int) =
    n + ∑ t ∈ Finset.range increments.length, (s.accepted t).getD 0
  small : s.partitions < 2 ^ 31
  grown : n ≤ s.partitions
  known : ∀ t, increments.length ≤ t → s.accepted t = none

/-- A request that succeeded had its increment accepted on top of everything it
read; one that failed, nothing. -/
def Added (t : Nat) : Option TopicError → Ledger → Prop
  | none, s => ∃ add, s.accepted t = some add ∧ n + increments[t]?.getD 0 ≤ add
  | some _, s => s.accepted t = none

def partitionProtocol : Protocol Call Ledger where
  inv := Counts n increments
  rely t s s' := s'.accepted t = s.accepted t
  pre _ _ _ := True
  refl _ _ := rfl
  trans _ _ _ _ h₁ h₂ := h₂.trans h₁

end

variable {n : Nat} {increments : List Int} {s : Ledger} {t : Nat}

theorem Counts.accept (h : Counts n increments s) (ht : t < increments.length)
    (hnone : s.accepted t = none) {add : Int} (hfits : s.fits add = true) :
    Counts n increments (s.accept t add) := by
  simp only [Ledger.fits, Bool.and_eq_true, decide_eq_true_eq] at hfits
  obtain ⟨hpos, hsmall⟩ := hfits
  have hmem : t ∈ Finset.range increments.length := Finset.mem_range.2 ht
  have hsum : ∑ u ∈ Finset.range increments.length, ((s.accept t add).accepted u).getD 0 =
      ∑ u ∈ Finset.range increments.length, (s.accepted u).getD 0 + add := by
    rw [← Finset.add_sum_erase _ _ hmem, ← Finset.add_sum_erase _ _ hmem]
    have hrest : ∑ u ∈ (Finset.range increments.length).erase t,
        ((s.accept t add).accepted u).getD 0 =
        ∑ u ∈ (Finset.range increments.length).erase t, (s.accepted u).getD 0 := by
      refine Finset.sum_congr rfl fun u hu => ?_
      rw [s.accept_of_ne (Finset.ne_of_mem_erase hu)]
    rw [hrest, hnone, Ledger.accept_self]
    simp only [Option.getD_some, Option.getD_none]
    omega
  have hpartitions : ((s.accept t add).partitions : Int) = s.partitions + add := by
    rw [Ledger.accept_partitions]
    omega
  refine ⟨?_, ?_, ?_, ?_⟩
  · rw [hpartitions, hsum, h.total]
    omega
  · omega
  · have := h.grown
    omega
  · intro u hu
    rw [s.accept_of_ne (by omega)]
    exact h.known u hu

theorem exec_listTopics {topic : String} {o : Oracle Call Call.Answer}
    {r : Except Kafka.Error (Option Nat)} {s' : Ledger}
    (h : Ledger.exec t (.listTopics topic) o s = some (r, s')) :
    s' = s ∧ ∀ current, r = .ok (some current) → current = s.partitions := by
  rw [Ledger.exec] at h
  split at h
  · obtain ⟨rfl, rfl⟩ := Prod.mk.inj (Option.some.inj h)
    refine ⟨rfl, fun current hr => ?_⟩
    exact (Option.some.inj (Except.ok.inj hr)).symm
  · next hother =>
      obtain ⟨r', hr', heq⟩ := Option.map_eq_some_iff.1 h
      obtain ⟨rfl, rfl⟩ := Prod.mk.inj heq
      refine ⟨rfl, fun current hr => ?_⟩
      rw [hr] at hr'
      exact absurd hr' (hother current)

theorem exec_createPartitions {add : Int} {topic : String} {o : Oracle Call Call.Answer}
    {r : Except Kafka.Error (Option Kafka.Error)} {s' : Ledger}
    (h : Ledger.exec t (.createPartitions add topic) o s = some (r, s')) :
    (r ≠ .ok none ∧ s' = s) ∨
      (r = .ok none ∧ s.fits add = true ∧ s' = s.accept t add) := by
  rw [Ledger.exec] at h
  split at h
  · split at h
    · next hfits =>
        obtain ⟨rfl, rfl⟩ := Prod.mk.inj (Option.some.inj h)
        exact Or.inr ⟨rfl, hfits, rfl⟩
    · obtain ⟨rfl, rfl⟩ := Prod.mk.inj (Option.some.inj h)
      exact Or.inl ⟨by simp, rfl⟩
  · next hother =>
      obtain ⟨r', hr', heq⟩ := Option.map_eq_some_iff.1 h
      obtain ⟨rfl, rfl⟩ := Prod.mk.inj heq
      refine Or.inl ⟨fun hr => ?_, rfl⟩
      rw [hr] at hr'
      exact absurd hr' hother

/-! ## One request among the others -/

theorem safe_failed (hnone : s.accepted t = none) (e : TopicError) :
    (partitionProtocol n increments).Safe partitionMachine.exec t (Added n increments t)
      (.ret (some e)) s := by
  intro s' hrely _
  exact hrely.trans hnone

theorem addPartitions_safe {name : String} {k : Int} (hk : increments[t]? = some k)
    (hpos : 1 ≤ k) (hint : k < 2 ^ 63) (hnone : s.accepted t = none) :
    (partitionProtocol n increments).Safe partitionMachine.exec t (Added n increments t)
      (addPartitions name k) s := by
  obtain ⟨ht, -⟩ := List.getElem?_eq_some_iff.1 hk
  rw [addPartitions, if_neg (by omega)]
  refine Protocol.Safe.query fun s₁ hrely₁ hinv₁ => ⟨trivial, fun o r s₂ he => ?_⟩
  obtain ⟨rfl, hcurrent⟩ := exec_listTopics (t := t) he
  refine ⟨rfl, ?_⟩
  have hnone₁ : s₂.accepted t = none := hrely₁.trans hnone
  match r with
  | .error e => exact safe_failed hnone₁ _
  | .ok none => exact safe_failed hnone₁ _
  | .ok (some current) =>
      obtain rfl := hcurrent current rfl
      refine Protocol.Safe.cmd fun s₃ hrely₃ hinv₃ => ⟨trivial, fun o r s₄ he => ?_⟩
      have hnone₃ : s₃.accepted t = none := hrely₃.trans hnone₁
      rcases exec_createPartitions (t := t) he with ⟨hr, rfl⟩ | ⟨rfl, hfits, rfl⟩
      · refine ⟨hinv₃, fun _ _ => rfl, ?_⟩
        match r with
        | .error e => exact safe_failed hnone₃ _
        | .ok (some e) => exact safe_failed hnone₃ _
        | .ok none => exact absurd rfl hr
      · refine ⟨hinv₃.accept ht hnone₃ hfits, fun t' ht' => ?_, fun s₅ hrely₅ _ => ?_⟩
        · exact s₃.accept_of_ne ht' _
        · -- The accepted amount is a sum that did not wrap.
          have hadd : 0 < targetPartitionCount s₂.partitions k := by
            simp only [Ledger.fits, Bool.and_eq_true, decide_eq_true_eq] at hfits
            exact hfits.1
          have hgrown := hinv₁.grown
          refine ⟨_, hrely₅.trans (s₃.accept_self ..), ?_⟩
          rw [targetPartitionCount_eq hinv₁.small hpos hint hadd, hk, Option.getD_some]
          omega

/-! ## All of them -/

theorem partitionRequests_ok {name : String} (hn : n < 2 ^ 31)
    (hincrements : ∀ k ∈ increments, 1 ≤ k ∧ k < 2 ^ 63)
    (es : List (Event Call Call.Answer Empty Empty)) :
    Pool.Ok (partitionProtocol n increments) partitionMachine (Added n increments)
      (run partitionMachine.step (partitionRequests name n increments) es) := by
  have hstart : Counts n increments (partitionRequests name n increments).shared := by
    refine ⟨?_, hn, Nat.le_refl n, fun _ _ => rfl⟩
    show (n : Int) = n + ∑ t ∈ Finset.range increments.length, 0
    rw [Finset.sum_const_zero]
    omega
  refine Pool.run_ok ⟨fun e => e.elim, fun r => r.elim⟩ ⟨hstart, fun t prog ht => ?_⟩ es
  have hmap : (increments.map (addPartitions name))[t]? = some prog := ht
  rw [List.getElem?_map] at hmap
  obtain ⟨k, hk, rfl⟩ := Option.map_eq_some_iff.1 hmap
  obtain ⟨hpos, hint⟩ := hincrements k (List.mem_of_getElem? hk)
  exact addPartitions_safe hk hpos hint rfl

/-- Every request has returned. -/
def Finished (p : Pool Call Call.Answer (Option TopicError) Ledger) : Prop :=
  ∀ (t : Nat) (prog : KafkaProg (Option TopicError)), p.threads[t]? = some prog →
    ∃ r, prog = .ret r

/-- What request `t` had accepted, against what it was granted. -/
theorem accepted_granted {p : Pool Call Call.Answer (Option TopicError) Ledger} (hn : 0 < n)
    (hok : p.Ok (partitionProtocol n increments) partitionMachine (Added n increments))
    (hdone : Finished p) {t : Nat} (ht : t < p.threads.length) :
    let grant := if p.threads[t]?.any succeeded then increments[t]?.getD 0 else 0
    (p.shared.accepted t = none ∧ grant = 0) ∨
      ∃ add, p.shared.accepted t = some add ∧ grant < add := by
  have hprog : p.threads[t]? = some p.threads[t] := List.getElem?_eq_getElem ht
  obtain ⟨r, hr⟩ := hdone t _ hprog
  rw [hr] at hprog
  have hadded := hok.post hprog
  rw [hprog]
  cases r with
  | some e => exact Or.inl ⟨hadded, rfl⟩
  | none =>
      obtain ⟨add, hadd, hle⟩ := hadded
      refine Or.inr ⟨add, hadd, ?_⟩
      show increments[t]?.getD 0 < add
      omega

/-- After every request has returned, the topic has the increments of those
that succeeded, and no more, only if none was accepted: an accepted request
adds what it read as well. -/
theorem partitions_added (name : String) (n : Nat) (hn : 0 < n ∧ n < 2 ^ 31)
    (increments : List Int) (hincrements : ∀ k ∈ increments, 1 ≤ k ∧ k < 2 ^ 63)
    (es : List (Event Call Call.Answer Empty Empty)) :
    let p := run partitionMachine.step (partitionRequests name n increments) es
    Finished p →
      ((p.shared.partitions : Int) = n + granted increments p ↔
        ∀ t, p.shared.accepted t = none) := by
  intro p hdone
  have hok : p.Ok (partitionProtocol n increments) partitionMachine (Added n increments) :=
    partitionRequests_ok hn.2 hincrements es
  have hlen : ∀ t ∈ Finset.range increments.length, t < p.threads.length := by
    intro t ht
    have hstart : (partitionRequests name n increments).threads.length = increments.length :=
      List.length_map _
    have hle := partitionMachine.length_threads_run (partitionRequests name n increments) es
    have := Finset.mem_range.1 ht
    show t < (run partitionMachine.step (partitionRequests name n increments) es).threads.length
    omega
  have heach := fun t ht => accepted_granted hn.1 hok hdone (hlen t ht)
  rw [hok.inv.total, add_right_inj, granted]
  constructor
  · intro hsum t
    by_contra hne
    have ht : t ∈ Finset.range increments.length := by
      refine Finset.mem_range.2 (Nat.lt_of_not_le fun hle => hne (hok.inv.known t hle))
    have hlt : granted increments p <
        ∑ u ∈ Finset.range increments.length, (p.shared.accepted u).getD 0 := by
      refine Finset.sum_lt_sum (fun u hu => ?_) ⟨t, ht, ?_⟩
      · rcases heach u hu with ⟨hnone, hgrant⟩ | ⟨add, hadd, hlt⟩
        · rw [hgrant, hnone]
          exact Int.le_refl 0
        · rw [hadd]
          exact Int.le_of_lt hlt
      · rcases heach t ht with ⟨hnone, -⟩ | ⟨add, hadd, hlt⟩
        · exact absurd hnone hne
        · rw [hadd]
          exact hlt
    exact absurd hsum (ne_of_gt hlt)
  · intro hnone
    refine Finset.sum_congr rfl fun t ht => ?_
    rcases heach t ht with ⟨-, hgrant⟩ | ⟨add, hadd, -⟩
    · rw [hgrant, hnone t]
      rfl
    · rw [hnone t] at hadd
      exact absurd hadd (by simp)

/-- A topic that is there and takes whatever fits. -/
def acceptAll : Oracle Call Call.Answer
  | .listTopics _ => some (.ok (some 0))
  | .createPartitions .. => some (.ok none)
  | _ => none

/-- A topic that is there and takes nothing. -/
def refuseAll : Oracle Call Call.Answer
  | .listTopics _ => some (.ok (some 0))
  | .createPartitions .. => some (.ok (some "NOT_AUTHORIZED"))
  | _ => none

/-- Two requests, each of which reads before the other sends. -/
def interleaved (o : Oracle Call Call.Answer) : List (Event Call Call.Answer Empty Empty) :=
  [.thread 0 o, .thread 1 o, .thread 1 o, .thread 0 o]

theorem partitions_added_refused :
    let p := run partitionMachine.step (partitionRequests "orders" 4 [2, 3])
      (interleaved refuseAll)
    (p.shared.partitions : Int) = 4 + granted [2, 3] p := by
  intro p
  have hthreads : p.threads =
      [.ret (some (.kafka "NOT_AUTHORIZED")), .ret (some (.kafka "NOT_AUTHORIZED"))] := rfl
  refine (partitions_added "orders" 4 (by decide) [2, 3] (by decide) (interleaved refuseAll)
    fun t prog ht => ?_).2 fun _ => rfl
  have hmem : prog ∈ p.threads := List.mem_of_getElem? ht
  rw [hthreads] at hmem
  simp only [List.mem_cons, List.not_mem_nil, or_false, or_self] at hmem
  exact ⟨_, hmem⟩

/-- Two and three more partitions for a topic with four make seventeen. -/
theorem partitions_added_not :
    let p := run partitionMachine.step (partitionRequests "orders" 4 [2, 3])
      (interleaved acceptAll)
    p.threads = [.ret none, .ret none] ∧ p.shared.partitions = 17 ∧ granted [2, 3] p = 5 :=
  ⟨rfl, rfl, rfl⟩

end KafkaManager.Topic
