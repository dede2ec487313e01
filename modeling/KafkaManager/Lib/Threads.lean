import KafkaManager.Lib.Prog
import KafkaManager.Lib.Run

/-!
# Threads over a shared state

A pool is a shared state and the programs of the threads started so far. An
event starts a thread, lets one thread carry out its next command, or lets the
surroundings act on the state. How a command acts is a parameter, `exec`; a
command that has to wait is one `exec` does not answer yet.

`Protocol` is rely and guarantee in their simplest form. Each thread relies on
a relation that the others keep; the guarantee of a thread is what all the
others rely on, so it is not written down again. `Safe` says of a program that
from a state on, whatever the others do, its commands meet their conditions
and keep the protocol; it is defined by recursion on the program, one clause
per constructor, and `Safe.bind` composes it along sequencing.
`Pool.run_ok` is the soundness of the method: in a pool whose threads are safe,
every thread of every reachable state is, and so the conditions on commands
hold whenever a command is next.
-/

namespace Lib

variable {C : Type} {R : C → Type} {α β σ ε ρ : Type}

/-- A shared state and the threads. -/
structure Pool (C : Type) (R : C → Type) (α σ : Type) where
  shared : σ
  threads : List (Prog C R α)

/-- What can happen next: a thread starts, a thread issues its command and the
outside may answer, or the surroundings act. -/
inductive Event (C : Type) (R : C → Type) (ε ρ : Type)
  | spawn (r : ρ)
  | thread (t : Nat) (o : Oracle C R)
  | env (e : ε)

/-- How commands and the surroundings act on the state, and what threads run. -/
structure Machine (C : Type) (R : C → Type) (α σ ε ρ : Type) where
  exec : Nat → (c : C) → Oracle C R → σ → Option (R c × σ)
  env : ε → σ → σ
  prog : ρ → Prog C R α

namespace Machine

variable (M : Machine C R α σ ε ρ)

/-- The next command of thread `t`, carried out if it can be. -/
def advance (p : Pool C R α σ) (t : Nat) (o : Oracle C R) : Pool C R α σ :=
  match p.threads[t]? with
  | some (.cmd c k) =>
      match M.exec t c o p.shared with
      | some (r, s) => { shared := s, threads := p.threads.set t (k r) }
      | none => p
  | _ => p

def step (p : Pool C R α σ) : Event C R ε ρ → Pool C R α σ
  | .spawn r => { p with threads := p.threads ++ [M.prog r] }
  | .thread t o => M.advance p t o
  | .env e => { p with shared := M.env e p.shared }

/-- A thread's turn changes nothing or carries out its next command. -/
theorem advance_cases (p : Pool C R α σ) (t : Nat) (o : Oracle C R) :
    M.advance p t o = p ∨ ∃ c k r s, p.threads[t]? = some (.cmd c k) ∧
      M.exec t c o p.shared = some (r, s) ∧
      M.advance p t o = { shared := s, threads := p.threads.set t (k r) } := by
  unfold advance
  split
  · next c k hc =>
      split
      · next r s hr => exact Or.inr ⟨c, k, r, s, hc, hr, rfl⟩
      · exact Or.inl rfl
  · exact Or.inl rfl

/-- The run that begins with a thread's next command. -/
theorem run_thread {s s' : σ} {threads : List (Prog C R α)} {t : Nat} {o : Oracle C R} {c : C}
    {k : R c → Prog C R α} {r : R c} (hc : threads[t]? = some (.cmd c k))
    (he : M.exec t c o s = some (r, s')) (es : List (Event C R ε ρ)) :
    run M.step { shared := s, threads := threads } (.thread t o :: es) =
      run M.step { shared := s', threads := threads.set t (k r) } es := by
  have hstep : M.step { shared := s, threads := threads } (.thread t o) =
      { shared := s', threads := threads.set t (k r) } := by
    show M.advance { shared := s, threads := threads } t o = _
    unfold advance
    simp only [hc, he]
  rw [run_cons, hstep]

/-- The same for the thread that was started last. -/
theorem run_last {s s' : σ} {threads : List (Prog C R α)} {p : Prog C R α} {o : Oracle C R} {c : C}
    {k : R c → Prog C R α} {r : R c} (hp : p = .cmd c k)
    (he : M.exec threads.length c o s = some (r, s')) (es : List (Event C R ε ρ)) :
    run M.step { shared := s, threads := threads ++ [p] } (.thread threads.length o :: es) =
      run M.step { shared := s', threads := threads ++ [k r] } es := by
  have hget : (threads ++ [p])[threads.length]? = some (.cmd c k) := by
    rw [List.getElem?_concat_length, hp]
  rw [M.run_thread hget he, List.set_append_right _ _ (Nat.le_refl _), Nat.sub_self,
    List.set_cons_zero]

theorem run_spawn (s : σ) (threads : List (Prog C R α)) (r : ρ) (es : List (Event C R ε ρ)) :
    run M.step { shared := s, threads := threads } (.spawn r :: es) =
      run M.step { shared := s, threads := threads ++ [M.prog r] } es :=
  rfl

/-- What holds of every program that is started and of all that is left of it,
holds of every thread. -/
theorem always_step {ok : Prog C R α → Prop} (hprog : ∀ r, (M.prog r).Always ok)
    {p : Pool C R α σ} (h : ∀ prog ∈ p.threads, prog.Always ok) (e : Event C R ε ρ) :
    ∀ prog ∈ (M.step p e).threads, prog.Always ok := by
  intro prog hmem
  cases e with
  | env e => exact h prog hmem
  | spawn r =>
      rcases List.mem_append.1 hmem with hmem | hmem
      · exact h prog hmem
      · obtain rfl := List.mem_singleton.1 hmem
        exact hprog r
  | thread t o =>
      have hmem' : prog ∈ (M.advance p t o).threads := hmem
      rcases M.advance_cases p t o with heq | ⟨c, k, r, s, hc, -, heq⟩
      · rw [heq] at hmem'
        exact h prog hmem'
      · rw [heq] at hmem'
        rcases List.mem_or_eq_of_mem_set hmem' with hmem' | rfl
        · exact h prog hmem'
        · exact (h _ (List.mem_of_getElem? hc)).2 r

/-- Threads stay. -/
theorem length_threads_step (p : Pool C R α σ) (e : Event C R ε ρ) :
    p.threads.length ≤ (M.step p e).threads.length := by
  cases e with
  | spawn r => exact (List.length_append ..).symm ▸ Nat.le_add_right ..
  | env e => exact Nat.le_refl _
  | thread t o =>
      show p.threads.length ≤ (M.advance p t o).threads.length
      rcases M.advance_cases p t o with heq | ⟨c, k, r, s, -, -, heq⟩
      · exact Nat.le_of_eq (congrArg (fun q => q.threads.length) heq).symm
      · have hlen : (M.advance p t o).threads.length = p.threads.length := by
          rw [heq, List.length_set]
        omega

theorem length_threads_run (p : Pool C R α σ) (es : List (Event C R ε ρ)) :
    p.threads.length ≤ (run M.step p es).threads.length :=
  run_invariant (P := fun q => p.threads.length ≤ q.threads.length)
    (fun q e h => Nat.le_trans h (M.length_threads_step q e)) (Nat.le_refl _) es

end Machine

/-- What the threads agree on: an invariant of the state, what each may rely
on, and the condition under which each may issue a command. -/
structure Protocol (C : Type) (σ : Type) where
  inv : σ → Prop
  rely : Nat → σ → σ → Prop
  pre : Nat → C → σ → Prop
  refl : ∀ t s, rely t s s
  trans : ∀ t s₁ s₂ s₃, rely t s₁ s₂ → rely t s₂ s₃ → rely t s₁ s₃

namespace Protocol

variable (P : Protocol C σ)

/-- From state `s` on the program of thread `t` keeps the protocol, and a
value it returns satisfies `Q`. -/
def Safe (exec : Nat → (c : C) → Oracle C R → σ → Option (R c × σ)) (t : Nat)
    (Q : α → σ → Prop) : Prog C R α → σ → Prop
  | .ret a, s => ∀ s', P.rely t s s' → P.inv s' → Q a s'
  | .cmd c k, s => ∀ s', P.rely t s s' → P.inv s' → P.pre t c s' ∧
      ∀ o r s'', exec t c o s' = some (r, s'') →
        P.inv s'' ∧ (∀ t', t' ≠ t → P.rely t' s' s'') ∧ Safe exec t Q (k r) s''

variable {P} {exec : Nat → (c : C) → Oracle C R → σ → Option (R c × σ)} {t : Nat}

/-- Safety is a statement about what the others may have made of the state. -/
theorem Safe.of_later {Q : α → σ → Prop} {p : Prog C R α} {s : σ}
    (h : ∀ s', P.rely t s s' → P.inv s' → P.Safe exec t Q p s') : P.Safe exec t Q p s := by
  cases p with
  | ret a => exact fun s' hr hi => h s' hr hi s' (P.refl t s') hi
  | cmd c k => exact fun s' hr hi => h s' hr hi s' (P.refl t s') hi

theorem Safe.later {Q : α → σ → Prop} {p : Prog C R α} {s s' : σ}
    (h : P.Safe exec t Q p s) (hr : P.rely t s s') : P.Safe exec t Q p s' := by
  cases p with
  | ret a => exact fun s'' hr' hi => h s'' (P.trans t _ _ _ hr hr') hi
  | cmd c k => exact fun s'' hr' hi => h s'' (P.trans t _ _ _ hr hr') hi

theorem Safe.mono {Q Q' : α → σ → Prop} {p : Prog C R α} {s : σ} (h : P.Safe exec t Q p s)
    (hq : ∀ a s, P.inv s → Q a s → Q' a s) : P.Safe exec t Q' p s := by
  induction p generalizing s with
  | ret a => exact fun s' hr hi => hq a s' hi (h s' hr hi)
  | cmd c k ih =>
      intro s' hr hi
      obtain ⟨hpre, hstep⟩ := h s' hr hi
      refine ⟨hpre, fun o r s'' he => ?_⟩
      obtain ⟨hinv, hrely, hnext⟩ := hstep o r s'' he
      exact ⟨hinv, hrely, ih r hnext⟩

/-- Sequencing: the first part ends in states from which the second is safe. -/
theorem Safe.bind {Q : α → σ → Prop} {Q' : β → σ → Prop} {p : Prog C R α}
    {f : α → Prog C R β} {s : σ} (h : P.Safe exec t Q p s)
    (hf : ∀ a s, P.inv s → Q a s → P.Safe exec t Q' (f a) s) : P.Safe exec t Q' (p >>= f) s := by
  induction p generalizing s with
  | ret a => exact Safe.of_later fun s' hr hi => hf a s' hi (h s' hr hi)
  | cmd c k ih =>
      intro s' hr hi
      obtain ⟨hpre, hstep⟩ := h s' hr hi
      refine ⟨hpre, fun o r s'' he => ?_⟩
      obtain ⟨hinv, hrely, hnext⟩ := hstep o r s'' he
      exact ⟨hinv, hrely, ih r hnext⟩

/-- One command: its condition, and safety of what follows each answer. -/
theorem Safe.cmd {Q : α → σ → Prop} {c : C} {k : R c → Prog C R α} {s : σ}
    (h : ∀ s', P.rely t s s' → P.inv s' → P.pre t c s' ∧
      ∀ o r s'', exec t c o s' = some (r, s'') →
        P.inv s'' ∧ (∀ t', t' ≠ t → P.rely t' s' s'') ∧ P.Safe exec t Q (k r) s'') :
    P.Safe exec t Q (.cmd c k) s := h

/-- The frame rule: what the others leave alone and the commands of the program
leave alone, the program leaves alone. -/
theorem Safe.frame {Q : α → σ → Prop} {F : σ → Prop} {ok : C → Prop} {p : Prog C R α} {s : σ}
    (h : P.Safe exec t Q p s) (hF : F s) (hrely : ∀ s s', F s → P.rely t s s' → F s')
    (hexec : ∀ c o s r s', ok c → exec t c o s = some (r, s') → F s → F s')
    (hp : p.Within (fun _ _ => True) ok) : P.Safe exec t (fun a s => Q a s ∧ F s) p s := by
  induction p generalizing s with
  | ret a => exact fun s' hr hi => ⟨h s' hr hi, hrely s s' hF hr⟩
  | cmd c k ih =>
      intro s' hr hi
      obtain ⟨hpre, hstep⟩ := h s' hr hi
      refine ⟨hpre, fun o r s'' he => ?_⟩
      obtain ⟨hinv, hothers, hnext⟩ := hstep o r s'' he
      exact ⟨hinv, hothers, ih r hnext (hexec c o s' r s'' hp.1 he (hrely s s' hF hr))
        (hp.2 r trivial)⟩

/-- A command that leaves the state alone. -/
theorem Safe.query {Q : α → σ → Prop} {c : C} {k : R c → Prog C R α} {s : σ}
    (h : ∀ s', P.rely t s s' → P.inv s' → P.pre t c s' ∧
      ∀ o r s'', exec t c o s' = some (r, s'') → s'' = s' ∧ P.Safe exec t Q (k r) s') :
    P.Safe exec t Q (.cmd c k) s := by
  intro s' hr hi
  obtain ⟨hpre, hstep⟩ := h s' hr hi
  refine ⟨hpre, fun o r s'' he => ?_⟩
  obtain ⟨rfl, hnext⟩ := hstep o r s'' he
  exact ⟨hi, fun t' _ => P.refl t' s'', hnext⟩

end Protocol

/-! ## Soundness -/

section

variable (P : Protocol C σ) (M : Machine C R α σ ε ρ) (Q : Nat → α → σ → Prop)

/-- The invariant holds and every thread is safe. -/
structure Pool.Ok (p : Pool C R α σ) : Prop where
  inv : P.inv p.shared
  safe : ∀ t prog, p.threads[t]? = some prog → P.Safe M.exec t (Q t) prog p.shared

/-- The surroundings keep the protocol, and so does every program started in
it. -/
structure Machine.Respects : Prop where
  env : ∀ e s, P.inv s → P.inv (M.env e s) ∧ ∀ t, P.rely t s (M.env e s)
  prog : ∀ r t s, P.inv s → P.Safe M.exec t (Q t) (M.prog r) s

variable {P M Q}

theorem Pool.step_ok (hM : M.Respects P Q) {p : Pool C R α σ} (h : p.Ok P M Q)
    (e : Event C R ε ρ) : (M.step p e).Ok P M Q := by
  cases e with
  | spawn r =>
      refine ⟨h.inv, fun t prog ht => ?_⟩
      have hmem : (p.threads ++ [M.prog r])[t]? = some prog := ht
      by_cases hlt : t < p.threads.length
      · rw [List.getElem?_append_left hlt] at hmem
        exact h.safe t prog hmem
      · rw [List.getElem?_append_right (by omega)] at hmem
        obtain rfl := List.mem_singleton.1 (List.mem_of_getElem? hmem)
        exact hM.prog r t p.shared h.inv
  | env e =>
      obtain ⟨hinv, hrely⟩ := hM.env e p.shared h.inv
      exact ⟨hinv, fun t prog ht => (h.safe t prog ht).later (hrely t)⟩
  | thread t o =>
      rcases M.advance_cases p t o with heq | ⟨c, k, r, s, hc, hexec, heq⟩
      · show (M.advance p t o).Ok P M Q
        rw [heq]
        exact h
      · show (M.advance p t o).Ok P M Q
        rw [heq]
        obtain ⟨-, hstep⟩ := h.safe t _ hc p.shared (P.refl t _) h.inv
        obtain ⟨hinv, hrely, hnext⟩ := hstep o r s hexec
        obtain ⟨hlt, -⟩ := List.getElem?_eq_some_iff.1 hc
        refine ⟨hinv, fun t' prog ht' => ?_⟩
        have hset : (p.threads.set t (k r))[t']? = some prog := ht'
        by_cases ht : t = t'
        · subst ht
          rw [List.getElem?_set_self hlt] at hset
          obtain rfl := Option.some.inj hset
          exact hnext
        · rw [List.getElem?_set_ne ht] at hset
          exact (h.safe t' prog hset).later (hrely t' (Ne.symm ht))

/-- Every reachable pool keeps the protocol. -/
theorem Pool.run_ok (hM : M.Respects P Q) {p : Pool C R α σ} (h : p.Ok P M Q)
    (es : List (Event C R ε ρ)) : (run M.step p es).Ok P M Q :=
  run_invariant (P := Pool.Ok P M Q) (fun _ e h => Pool.step_ok hM h e) h es

/-- A command that is next is issued under its condition. -/
theorem Pool.Ok.pre {p : Pool C R α σ} (h : p.Ok P M Q) {t : Nat} {c : C}
    {k : R c → Prog C R α} (ht : p.threads[t]? = some (.cmd c k)) : P.pre t c p.shared :=
  (h.safe t _ ht p.shared (P.refl t _) h.inv).1

/-- What a thread returned is as promised. -/
theorem Pool.Ok.post {p : Pool C R α σ} (h : p.Ok P M Q) {t : Nat} {a : α}
    (ht : p.threads[t]? = some (.ret a)) : Q t a p.shared :=
  h.safe t _ ht p.shared (P.refl t _) h.inv

end

end Lib
