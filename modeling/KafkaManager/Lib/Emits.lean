import KafkaManager.Lib.Threads

/-!
# What a program leaves behind

`emit` says what a command adds to a record once it has been answered.
`Emits Q` is the reasoning principle for it: whatever a program is answered,
what it returns and what it has emitted by then satisfy `Q`. It is defined by
recursion on the program and composes along sequencing, the second part going
on with the record of the first.

In a pool the commands of one thread are answered by the others' doing, so
the principle needs no protocol to carry over: `record` is what one thread has
emitted in a run, and `Machine.record_spawned` says that the program of a
thread is at every moment in the middle of a record that `Q` allows.
-/

namespace Lib

variable {C C' : Type} {R : C → Type} {R' : C' → Type} {α β ω σ ε ρ : Type}

namespace Prog

/-- Whatever it is answered, what the program returns goes with what it has
emitted. -/
def Emits (emit : (c : C) → R c → List ω) : (α → List ω → Prop) → Prog C R α → Prop
  | Q, ret a => Q a []
  | Q, cmd c k => ∀ r, (k r).Emits emit fun a ws => Q a (emit c r ++ ws)

section

variable {emit : (c : C) → R c → List ω} {Q Q' : α → List ω → Prop}

@[simp] theorem emits_ret {a : α} : (ret a : Prog C R α).Emits emit Q ↔ Q a [] := Iff.rfl

@[simp] theorem emits_cmd {c : C} {k : R c → Prog C R α} :
    (cmd c k).Emits emit Q ↔ ∀ r, (k r).Emits emit fun a ws => Q a (emit c r ++ ws) := Iff.rfl

theorem Emits.mono {p : Prog C R α} (h : p.Emits emit Q) (hq : ∀ a ws, Q a ws → Q' a ws) :
    p.Emits emit Q' := by
  induction p generalizing Q Q' with
  | ret a => exact hq a [] h
  | cmd c k ih => exact fun r => ih r (h r) fun a ws => hq a (emit c r ++ ws)

/-- Sequencing: the second part goes on with the record of the first. -/
theorem Emits.bind {Q' : β → List ω → Prop} {p : Prog C R α} {f : α → Prog C R β}
    (h : p.Emits emit Q)
    (hf : ∀ a ws, Q a ws → (f a).Emits emit fun b vs => Q' b (ws ++ vs)) :
    (p >>= f).Emits emit Q' := by
  induction p generalizing Q Q' with
  | ret a => exact hf a [] h
  | cmd c k ih =>
      intro r
      refine ih r (h r) fun a ws hq => ?_
      refine (hf a _ hq).mono fun b vs hb => ?_
      rw [← List.append_assoc]
      exact hb

/-- A command that adds nothing. -/
theorem emits_silent {c : C} {k : R c → Prog C R α} (hc : ∀ r, emit c r = [])
    (h : ∀ r, (k r).Emits emit Q) : (cmd c k).Emits emit Q := by
  intro r
  rw [hc r]
  exact h r

/-- A program whose commands are programs that add as much. -/
theorem Emits.interp {emit' : (c : C') → R' c → List ω} {p : Prog C R α}
    {h : (c : C) → Prog C' R' (R c)} (hp : p.Emits emit Q)
    (hh : ∀ c, (h c).Emits emit' fun r ws => ws = emit c r) : (p.interp h).Emits emit' Q := by
  induction p generalizing Q with
  | ret a => exact hp
  | cmd c k ih =>
      refine (hh c).bind fun r ws hws => ?_
      subst hws
      exact ih r (hp r)

/-- Where every command can be answered, the program comes to an end. -/
theorem Emits.ends (hR : ∀ c, Nonempty (R c)) {p : Prog C R α} (h : p.Emits emit Q) :
    ∃ a ws, Q a ws := by
  induction p generalizing Q with
  | ret a => exact ⟨a, [], h⟩
  | cmd c k ih =>
      obtain ⟨r⟩ := hR c
      obtain ⟨a, ws, hq⟩ := ih r (h r)
      exact ⟨a, emit c r ++ ws, hq⟩

end

end Prog

/-- What was started in a run, in its order. -/
def spawned : List (Event C R ε ρ) → List ρ
  | [] => []
  | .spawn r :: es => r :: spawned es
  | .thread .. :: es | .env _ :: es => spawned es

namespace Machine

variable (M : Machine C R α σ ε ρ) (emit : (c : C) → R c → List ω)

/-- What the next command of thread `t` adds, if it is carried out. -/
def turn (p : Pool C R α σ) (t : Nat) (o : Oracle C R) : List ω :=
  match p.threads[t]? with
  | some (.cmd c _) =>
      match M.exec t c o p.shared with
      | some (r, _) => emit c r
      | none => []
  | _ => []

/-- What an event adds to the record of thread `t`. -/
def emitted (t : Nat) (p : Pool C R α σ) : Event C R ε ρ → List ω
  | .thread t' o => if t' = t then M.turn emit p t o else []
  | .spawn _ | .env _ => []

/-- The record of thread `t` in a run. -/
def record (t : Nat) : Pool C R α σ → List (Event C R ε ρ) → List ω
  | _, [] => []
  | p, e :: es => M.emitted emit t p e ++ record t (M.step p e) es

variable {M emit}

theorem emitted_step {Q : α → List ω → Prop} {p : Pool C R α σ} {t : Nat} {q : Prog C R α}
    (ht : p.threads[t]? = some q) (hq : q.Emits emit Q) (e : Event C R ε ρ) :
    ∃ q', (M.step p e).threads[t]? = some q' ∧
      q'.Emits emit fun a ws => Q a (M.emitted emit t p e ++ ws) := by
  cases e with
  | spawn r =>
      obtain ⟨hlt, -⟩ := List.getElem?_eq_some_iff.1 ht
      exact ⟨q, (List.getElem?_append_left hlt).trans ht, hq⟩
  | env e => exact ⟨q, ht, hq⟩
  | thread t' o =>
      show ∃ q', (M.advance p t' o).threads[t]? = some q' ∧
        q'.Emits emit fun a ws => Q a ((if t' = t then M.turn emit p t o else []) ++ ws)
      by_cases heq : t' = t
      · subst heq
        rw [if_pos rfl]
        unfold advance turn
        cases q with
        | ret a =>
            simp only [ht]
            exact ⟨_, rfl, hq⟩
        | cmd c k =>
            simp only [ht]
            cases hexec : M.exec t' c o p.shared with
            | none => exact ⟨_, ht, hq⟩
            | some out =>
                obtain ⟨hlt, -⟩ := List.getElem?_eq_some_iff.1 ht
                exact ⟨k out.1, List.getElem?_set_self hlt, hq out.1⟩
      · rw [if_neg heq]
        rcases M.advance_cases p t' o with hsame | ⟨c, k, r, s, -, -, hstep⟩
        · rw [hsame]
          exact ⟨q, ht, hq⟩
        · rw [hstep]
          exact ⟨q, (List.getElem?_set_ne heq).trans ht, hq⟩

/-- A thread that is there. -/
theorem record_thread {Q : α → List ω → Prop} {p : Pool C R α σ} {t : Nat} {q : Prog C R α}
    (ht : p.threads[t]? = some q) (hq : q.Emits emit Q) (es : List (Event C R ε ρ)) :
    ∃ q', (run M.step p es).threads[t]? = some q' ∧
      q'.Emits emit fun a ws => Q a (M.record emit t p es ++ ws) := by
  induction es generalizing p q Q with
  | nil => exact ⟨q, ht, hq⟩
  | cons e es ih =>
      obtain ⟨q', ht', hq'⟩ := emitted_step (M := M) ht hq e
      obtain ⟨q'', ht'', hq''⟩ := ih ht' hq'
      refine ⟨q'', ht'', hq''.mono fun a ws hws => ?_⟩
      show Q a ((M.emitted emit t p e ++ M.record emit t (M.step p e) es) ++ ws)
      rw [List.append_assoc]
      exact hws

/-- A thread that is not there yet adds nothing. -/
theorem emitted_later {p : Pool C R α σ} {t : Nat} (ht : p.threads.length ≤ t)
    (e : Event C R ε ρ) : M.emitted emit t p e = [] := by
  cases e with
  | spawn r => rfl
  | env e => rfl
  | thread t' o =>
      show (if t' = t then M.turn emit p t o else []) = []
      unfold turn
      rw [List.getElem?_eq_none ht]
      exact ite_self _

theorem length_threads_advance (p : Pool C R α σ) (t : Nat) (o : Oracle C R) :
    (M.advance p t o).threads.length = p.threads.length := by
  rcases M.advance_cases p t o with hsame | ⟨c, k, r, s, -, -, hstep⟩
  · rw [hsame]
  · rw [hstep, List.length_set]

/-- A thread that is started in the run. -/
theorem record_spawned {Q : α → List ω → Prop} {p : Pool C R α σ} {t : Nat} {r : ρ}
    (es : List (Event C R ε ρ)) (ht : (spawned es)[t]? = some r)
    (hq : (M.prog r).Emits emit Q) :
    ∃ q, (run M.step p es).threads[p.threads.length + t]? = some q ∧
      q.Emits emit fun a ws => Q a (M.record emit (p.threads.length + t) p es ++ ws) := by
  induction es generalizing p t with
  | nil => simp [spawned] at ht
  | cons e es ih =>
      have hlater : M.emitted emit (p.threads.length + t) p e = [] :=
        emitted_later (Nat.le_add_right _ t) e
      have hrecord : M.record emit (p.threads.length + t) p (e :: es) =
          M.record emit (p.threads.length + t) (M.step p e) es := by
        show M.emitted emit _ p e ++ _ = _
        rw [hlater, List.nil_append]
      rw [hrecord]
      cases e with
      | env e => exact ih (p := M.step p (.env e)) ht
      | thread t' o =>
          have hlen := length_threads_advance (M := M) p t' o
          have := ih (p := M.advance p t' o) ht
          rw [hlen] at this
          exact this
      | spawn r' =>
          have hlen : (M.step p (.spawn r')).threads.length = p.threads.length + 1 :=
            List.length_append
          cases t with
          | zero =>
              obtain rfl := Option.some.inj ht
              exact record_thread (p := M.step p (.spawn r'))
                (List.getElem?_concat_length) hq es
          | succ t =>
              have := ih (p := M.step p (.spawn r')) ht
              rw [hlen, Nat.add_right_comm, Nat.add_assoc] at this
              exact this

end Machine

end Lib
