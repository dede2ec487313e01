/-!
# A list that is fetched by a key

A view asks for the items of a key, and asks again when the key changes. The
answers come in any order, and whichever comes last is shown. Every row keeps
the key it was asked for, so that it can be said whose rows are shown.

The list is fresh for a key if it has no rows of another, or an answer for the
key is still to come. To ask does not hurt (`fresh_request`), so it depends on
the answers alone (`fresh_answer`).
-/

namespace Lib

inductive Answer (α : Type)
  | items (rows : List α)
  | failed (message : String)
deriving DecidableEq, Repr

def Answer.map {α β : Type} (f : α → β) : Answer α → Answer β
  | items rows => .items (rows.map f)
  | failed message => .failed message

structure Fetched (κ α : Type) where
  items : List (κ × α)
  loading : Bool
  error : String
  /-- The keys of the requests without an answer. -/
  requests : List κ
deriving DecidableEq, Repr

namespace Fetched

variable {κ α : Type}

def empty (loading : Bool) : Fetched κ α := ⟨[], loading, "", []⟩

def request (l : Fetched κ α) (key : κ) : Fetched κ α :=
  { l with loading := true, requests := key :: l.requests }

/-- Nothing for the key is to come. -/
def Settled (l : Fetched κ α) (key : κ) : Prop := key ∉ l.requests

/-- When nothing for the key is to come, the rows are of the key. -/
def Fresh (l : Fetched κ α) (key : κ) : Prop := l.Settled key → ∀ row ∈ l.items, row.1 = key

section

variable [DecidableEq κ]

instance (l : Fetched κ α) (key : κ) : Decidable (l.Settled key) :=
  inferInstanceAs (Decidable (key ∉ l.requests))

def answer (l : Fetched κ α) (key : κ) : Answer α → Fetched κ α
  | .items rows => ⟨rows.map (key, ·), false, "", l.requests.erase key⟩
  | .failed message => { l with loading := false, error := message, requests := l.requests.erase key }

/-- After an answer for `other`, none for the key is to come. -/
def settles (l : Fetched κ α) (key other : κ) : Bool := !(l.requests.erase other).contains key

/-- The answer for `other` is not the last word about the key, or it is right:
rows are for the key, and none come only if those before were. -/
def timely (l : Fetched κ α) (key other : κ) : Answer α → Bool
  | .items rows => !l.settles key other || rows.isEmpty || other == key
  | .failed _ => !l.settles key other || other != key || l.items.all fun row => row.1 == key

end

theorem fresh_request (l : Fetched κ α) (key : κ) : (l.request key).Fresh key :=
  fun h => absurd List.mem_cons_self h

theorem Fresh.request {l : Fetched κ α} {key : κ} (h : l.Fresh key) (other : κ) :
    (l.request other).Fresh key :=
  fun hsettled => h fun hmem => hsettled (List.mem_cons_of_mem other hmem)

/-- A list without rows is fresh for every key. -/
theorem fresh_of_nil {l : Fetched κ α} (h : l.items = []) (key : κ) : l.Fresh key := by
  intro _ row hrow
  rw [h] at hrow
  cases hrow

section

variable [DecidableEq κ] {l : Fetched κ α} {key other : κ}

theorem settles_iff (a : Answer α) : l.settles key other = true ↔ (l.answer other a).Settled key := by
  cases a <;> simp [settles, Settled, answer]

theorem settled_of_settles (h : l.settles key other = true) (hne : other ≠ key) : l.Settled key := by
  intro hmem
  have herase : key ∈ l.requests.erase other := (List.mem_erase_of_ne (Ne.symm hne)).2 hmem
  simp [settles, herase] at h

/-- An answer leaves the list fresh if and only if it is timely. -/
theorem fresh_answer (h : l.Fresh key) (a : Answer α) :
    (l.answer other a).Fresh key ↔ l.timely key other a = true := by
  rw [Fresh, ← settles_iff a]
  cases a with
  | items rows =>
      simp only [timely, answer, Bool.or_eq_true, Bool.not_eq_true', beq_iff_eq,
        List.isEmpty_iff, List.mem_map, forall_exists_index, and_imp, forall_apply_eq_imp_iff₂]
      constructor
      · intro hfresh
        cases hsettles : l.settles key other with
        | false => exact .inl (.inl rfl)
        | true =>
            cases rows with
            | nil => exact .inl (.inr rfl)
            | cons row rows => exact .inr (hfresh hsettles row (.head _))
      · rintro ((hnot | rfl) | rfl) hsettles row hrow
        · rw [hnot] at hsettles
          cases hsettles
        · cases hrow
        · rfl
  | failed message =>
      simp only [timely, answer, Bool.or_eq_true, Bool.not_eq_true', bne_iff_ne, List.all_eq_true,
        beq_iff_eq]
      constructor
      · intro hfresh
        cases hsettles : l.settles key other with
        | false => exact .inl (.inl rfl)
        | true => exact .inr (hfresh hsettles)
      · rintro ((hnot | hne) | hall) hsettles
        · rw [hnot] at hsettles
          cases hsettles
        · exact h (settled_of_settles hsettles hne)
        · exact hall

end

end Fetched

end Lib
