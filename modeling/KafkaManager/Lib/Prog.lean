/-!
# Programs over commands

A program is a tree: it has returned, or it issues a command and goes on from
the response. What a command does to the world is not part of the tree, so one
program text serves every world it runs in, alone or beside others. `Prog` is
a monad, and a handler is written in `do` notation in the order of its source.

`interp` runs a program whose commands are themselves programs over other
commands; a service is embedded in its caller with it.

`exec` runs a program that nothing interferes with, `issued` lists the commands
of a run against fixed answers. `Within` is the
reasoning principle that needs no state: if the responses a
program gets satisfy `ans`, it only issues commands that satisfy `ok`. `Runs` is
the one with a state: what a program may return in a world that answers as it
likes, within a relation.
-/

namespace Lib

/-- A program that issues commands `c : C`, is answered in `R c`, and returns
a value of type `α`. -/
inductive Prog (C : Type) (R : C → Type) (α : Type) : Type
  | ret (a : α)
  | cmd (c : C) (k : R c → Prog C R α)

/-- What the outside answers to a command, if it answers it. -/
abbrev Oracle (C : Type) (R : C → Type) : Type := (c : C) → Option (R c)

namespace Prog

variable {C C' : Type} {R : C → Type} {R' : C' → Type} {α β : Type}

def bind : Prog C R α → (α → Prog C R β) → Prog C R β
  | ret a, f => f a
  | cmd c k, f => cmd c fun r => (k r).bind f

instance : Monad (Prog C R) where
  pure := ret
  bind := bind

/-- The program that issues one command. -/
def call (c : C) : Prog C R (R c) := cmd c ret

@[simp] theorem pure_eq (a : α) : (pure a : Prog C R α) = ret a := rfl

@[simp] theorem ret_bind (a : α) (f : α → Prog C R β) : (ret a : Prog C R α) >>= f = f a := rfl

@[simp] theorem cmd_bind (c : C) (k : R c → Prog C R α) (f : α → Prog C R β) :
    cmd c k >>= f = cmd c fun r => k r >>= f := rfl

@[simp] theorem call_bind (c : C) (f : R c → Prog C R β) : call c >>= f = cmd c f := rfl

/-- The same program with every command carried out by `h`. -/
def interp (h : (c : C) → Prog C' R' (R c)) : Prog C R α → Prog C' R' α
  | ret a => ret a
  | cmd c k => h c >>= fun r => (k r).interp h

@[simp] theorem interp_ret (h : (c : C) → Prog C' R' (R c)) (a : α) :
    (ret a : Prog C R α).interp h = ret a := rfl

@[simp] theorem interp_cmd (h : (c : C) → Prog C' R' (R c)) (c : C) (k : R c → Prog C R α) :
    (cmd c k).interp h = h c >>= fun r => (k r).interp h := rfl

/-- A program alone in a world that carries out every command. -/
def exec {σ : Type} (step : (c : C) → σ → R c × σ) : Prog C R α → σ → α × σ
  | ret a, s => (a, s)
  | cmd c k, s => (k (step c s).1).exec step (step c s).2

section

variable (answer : (c : C) → R c)

/-- The value a program returns if `answer` answers it. -/
def result : Prog C R α → α
  | ret a => a
  | cmd c k => (k (answer c)).result

/-- The commands it issues. -/
def issued : Prog C R α → List C
  | ret _ => []
  | cmd c k => c :: (k (answer c)).issued

@[simp] theorem issued_ret (a : α) : (ret a : Prog C R α).issued answer = [] := rfl

@[simp] theorem issued_cmd (c : C) (k : R c → Prog C R α) :
    (cmd c k).issued answer = c :: (k (answer c)).issued answer := rfl

theorem issued_bind (p : Prog C R α) (f : α → Prog C R β) :
    (p >>= f).issued answer = p.issued answer ++ (f (p.result answer)).issued answer := by
  induction p with
  | ret a => rfl
  | cmd c k ih =>
      rw [cmd_bind, issued_cmd, issued_cmd, ih]
      rfl

end

section

variable {σ : Type} {step : (c : C) → σ → R c × σ}

@[simp] theorem exec_ret (a : α) (s : σ) : (ret a : Prog C R α).exec step s = (a, s) := rfl

@[simp] theorem exec_cmd (c : C) (k : R c → Prog C R α) (s : σ) :
    (cmd c k).exec step s = (k (step c s).1).exec step (step c s).2 := rfl

theorem exec_bind (p : Prog C R α) (f : α → Prog C R β) (s : σ) :
    (p >>= f).exec step s = (f (p.exec step s).1).exec step (p.exec step s).2 := by
  induction p generalizing s with
  | ret a => rfl
  | cmd c k ih => exact ih _ _

end

/-- The program may return `a`, the world going from one state to another. -/
def Runs {σ : Type} (env : (c : C) → σ → R c → σ → Prop) : Prog C R α → σ → α → σ → Prop
  | ret a, s, b, t => a = b ∧ s = t
  | cmd c k, s, b, t => ∃ r s', env c s r s' ∧ (k r).Runs env s' b t

section

variable {σ τ : Type} {env : (c : C) → σ → R c → σ → Prop}

@[simp] theorem runs_ret {a b : α} {s t : σ} :
    (ret a : Prog C R α).Runs env s b t ↔ a = b ∧ s = t := Iff.rfl

@[simp] theorem runs_cmd {c : C} {k : R c → Prog C R α} {b : α} {s t : σ} :
    (cmd c k).Runs env s b t ↔ ∃ r s', env c s r s' ∧ (k r).Runs env s' b t := Iff.rfl

theorem runs_bind {p : Prog C R α} {f : α → Prog C R β} {b : β} {s t : σ} :
    (p >>= f).Runs env s b t ↔ ∃ a u, p.Runs env s a u ∧ (f a).Runs env u b t := by
  induction p generalizing s with
  | ret a =>
      constructor
      · intro h
        exact ⟨a, s, ⟨rfl, rfl⟩, h⟩
      · rintro ⟨a', u, ⟨rfl, rfl⟩, h⟩
        exact h
  | cmd c k ih =>
      constructor
      · rintro ⟨r, s', henv, h⟩
        obtain ⟨a, u, hp, hf⟩ := (ih r).1 h
        exact ⟨a, u, ⟨r, s', henv, hp⟩, hf⟩
      · rintro ⟨a, u, ⟨r, s', henv, hp⟩, hf⟩
        exact ⟨r, s', henv, (ih r).2 ⟨a, u, hp, hf⟩⟩

/-- A run seen through a function of the state. -/
theorem Runs.map {env' : (c : C) → τ → R c → τ → Prop} {f : σ → τ}
    (henv : ∀ c s r s', env c s r s' → env' c (f s) r (f s')) {p : Prog C R α} {a : α} {s t : σ}
    (h : p.Runs env s a t) : p.Runs env' (f s) a (f t) := by
  induction p generalizing s with
  | ret b => exact ⟨h.1, congrArg f h.2⟩
  | cmd c k ih =>
      obtain ⟨r, s', hstep, h⟩ := h
      exact ⟨r, f s', henv c s r s' hstep, ih r h⟩

end

/-- While the responses satisfy `ans`, only commands that satisfy `ok` are
issued. -/
def Within (ans : (c : C) → R c → Prop) (ok : C → Prop) : Prog C R α → Prop
  | ret _ => True
  | cmd c k => ok c ∧ ∀ r, ans c r → (k r).Within ans ok

section

variable {ans : (c : C) → R c → Prop} {ok : C → Prop}

@[simp] theorem within_ret (a : α) : (ret a : Prog C R α).Within ans ok := trivial

theorem Within.bind {p : Prog C R α} {f : α → Prog C R β} (h : p.Within ans ok)
    (hf : ∀ a, (f a).Within ans ok) : (p >>= f).Within ans ok := by
  induction p with
  | ret a => exact hf a
  | cmd c k ih => exact ⟨h.1, fun r hr => ih r (h.2 r hr)⟩

theorem Within.mono {ok' : C → Prop} {p : Prog C R α} (h : p.Within ans ok)
    (hok : ∀ c, ok c → ok' c) : p.Within ans ok' := by
  induction p with
  | ret a => trivial
  | cmd c k ih => exact ⟨hok c h.1, fun r hr => ih r (h.2 r hr)⟩

theorem Within.interp {p : Prog C R α} {h : (c : C) → Prog C' R' (R c)}
    {ans : (c : C') → R' c → Prop} {ok : C' → Prop} (hh : ∀ c, (h c).Within ans ok) :
    (p.interp h).Within ans ok := by
  induction p with
  | ret a => trivial
  | cmd c k ih => exact (hh c).bind ih

end

/-- The program and everything that may be left of it satisfy `ok`. -/
def Always (ok : Prog C R α → Prop) : Prog C R α → Prop
  | ret a => ok (ret a)
  | cmd c k => ok (cmd c k) ∧ ∀ r, (k r).Always ok

theorem Always.now {ok : Prog C R α → Prop} {p : Prog C R α} (h : p.Always ok) : ok p := by
  cases p with
  | ret a => exact h
  | cmd c k => exact h.1

end Prog

end Lib
