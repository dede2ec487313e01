import Mathlib.Data.List.DropRight

/-!
# Trimming

What is at both ends of a list and has a property is taken off. What is left
begins and ends without it, so a second time takes off nothing.
-/

namespace Lib

variable {α : Type} {p : α → Bool} {l : List α}

def trim (p : α → Bool) (l : List α) : List α := (l.dropWhile p).rdropWhile p

/-- Neither the first nor the last has the property. -/
def Trimmed (p : α → Bool) (l : List α) : Prop :=
  (∀ h : l ≠ [], ¬p (l.head h)) ∧ ∀ h : l ≠ [], ¬p (l.getLast h)

theorem trim_eq_self (h : Trimmed p l) : trim p l = l := by
  have hfront : l.dropWhile p = l := by
    rw [List.dropWhile_eq_self_iff]
    intro hpos
    have hhead := h.1 (List.length_pos_iff.1 hpos)
    rwa [List.head_eq_getElem] at hhead
  rw [trim, hfront]
  exact List.rdropWhile_eq_self_iff.2 h.2

theorem trimmed_trim (p : α → Bool) (l : List α) : Trimmed p (trim p l) := by
  refine ⟨fun h => ?_, fun h => List.rdropWhile_last_not p _ h⟩
  -- what is left begins as it did before the end was taken off
  have hbegins : trim p l <+: l.dropWhile p := List.rdropWhile_prefix p _
  have hne : l.dropWhile p ≠ [] := fun hnil => h (List.prefix_nil.1 (hnil ▸ hbegins))
  rw [hbegins.head h, List.head_dropWhile_not p hne]
  simp

theorem trim_trim (p : α → Bool) (l : List α) : trim p (trim p l) = trim p l :=
  trim_eq_self (trimmed_trim p l)

end Lib
