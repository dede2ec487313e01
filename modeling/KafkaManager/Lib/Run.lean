/-!
# Runs of a transition function

A system is a function from a state and an action to the next state. An action
that is not possible in a state leaves it as it is, so a run is a fold over
any list of actions, and what holds after every list holds in every
interleaving of the actions that were possible.

One rule carries every argument about runs, `run_invariant`: what each action
keeps, a run keeps. The others are this rule where a run, or each of its steps,
meets a condition.
-/

namespace Lib

variable {σ α : Type}

/-- The state after a list of actions. -/
def run (step : σ → α → σ) (s : σ) (as : List α) : σ := as.foldl step s

section

variable (step : σ → α → σ)

@[simp] theorem run_nil (s : σ) : run step s [] = s := rfl

@[simp] theorem run_cons (s : σ) (a : α) (as : List α) :
    run step s (a :: as) = run step (step s a) as := rfl

theorem run_append (s : σ) (as bs : List α) :
    run step s (as ++ bs) = run step (run step s as) bs :=
  List.foldl_append ..

end

section

variable {step : σ → α → σ}

/-- What every action keeps, a run keeps. -/
theorem run_invariant {P : σ → Prop} (hstep : ∀ s a, P s → P (step s a))
    {s : σ} (h : P s) (as : List α) : P (run step s as) := by
  induction as generalizing s with
  | nil => exact h
  | cons a as ih => exact ih (hstep s a h)

/-- The same rule for actions that meet a condition. -/
theorem run_invariant_of {P : σ → Prop} {A : α → Prop}
    (hstep : ∀ s a, A a → P s → P (step s a)) {s : σ} (h : P s) {as : List α}
    (has : ∀ a ∈ as, A a) : P (run step s as) := by
  induction as generalizing s with
  | nil => exact h
  | cons a as ih =>
      exact ih (hstep s a (has a (by simp)) h) fun b hb => has b (by simp [hb])

end

/-! ## Runs under a condition

What a run can come to whose every step meets a condition on the state before
it. -/

inductive Reach (step : σ → α → σ) (P : σ → α → Bool) (init : σ → Prop) : σ → Prop
  | init {s : σ} : init s → Reach step P init s
  | step {s : σ} {a : α} : Reach step P init s → P s a = true → Reach step P init (step s a)

/-- Every action of a run meets the condition. -/
def meets (step : σ → α → σ) (P : σ → α → Bool) : σ → List α → Bool
  | _, [] => true
  | s, a :: as => P s a && meets step P (step s a) as

section

variable {step : σ → α → σ} {P : σ → α → Bool} {init : σ → Prop}

theorem Reach.run {s : σ} (h : Reach step P init s) {as : List α}
    (has : meets step P s as = true) : Reach step P init (Lib.run step s as) := by
  induction as generalizing s with
  | nil => exact h
  | cons a as ih =>
      obtain ⟨ha, hrest⟩ := Bool.and_eq_true_iff.1 has
      exact ih (h.step ha) hrest

/-- Without a condition every run will do. -/
theorem Reach.run_any {s : σ} (h : Reach step (fun _ _ => true) init s) (as : List α) :
    Reach step (fun _ _ => true) init (Lib.run step s as) := by
  induction as generalizing s with
  | nil => exact h
  | cons a as ih => exact ih (h.step rfl)

/-- What every action that meets the condition keeps, holds in the end. -/
theorem Reach.invariant {I : σ → Prop} {s : σ} (h : Reach step P init s)
    (hinit : ∀ s, init s → I s) (hstep : ∀ s a, I s → P s a = true → I (step s a)) : I s := by
  induction h with
  | init hs => exact hinit _ hs
  | step _ ha ih => exact hstep _ _ ih ha

end

end Lib
