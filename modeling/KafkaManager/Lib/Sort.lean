import Mathlib.Data.List.Basic

/-!
# Sorting (`sort.Slice`)

A sort puts a list in an order. It may be any sort: what has equal places may
come out either way. `First` is what is at the front of a sorted list, without
the sort, and `Kept` what a buffer keeps of what goes by, which may be in any
order.
-/

namespace Lib

variable {α : Type}

structure Sorter (less : α → α → Bool) where
  sort : List α → List α
  perm : ∀ xs, (sort xs).Perm xs
  ordered : ∀ xs, (sort xs).Pairwise fun a b => less b a = false

/-- The sort that leaves equals in their places (`sort.SliceStable`). -/
def Sorter.stable (less : α → α → Bool)
    (htrans : ∀ a b c, less b a = false → less c b = false → less c a = false)
    (htotal : ∀ a b, less a b = false ∨ less b a = false) : Sorter less where
  sort xs := xs.mergeSort fun a b => !less b a
  perm xs := List.mergeSort_perm xs _
  ordered xs := by
    have hsorted : (xs.mergeSort fun a b => !less b a).Pairwise fun a b => (!less b a) = true :=
      List.pairwise_mergeSort (by simpa using htrans) (by simpa [or_comm] using htotal) xs
    simpa using hsorted

/-- The first `n` of all, or all of them, in order. -/
def First (less : α → α → Bool) (n : Nat) (all items : List α) : Prop :=
  items.length = min n all.length ∧ items.Pairwise (fun a b => less b a = false) ∧
    ∃ rest, (items ++ rest).Perm all ∧ ∀ a ∈ items, ∀ b ∈ rest, less b a = false

section

variable {less : α → α → Bool} {n : Nat} {all items : List α}

theorem first_take {xs : List α} (hperm : xs.Perm all)
    (hordered : xs.Pairwise fun a b => less b a = false) : First less n all (xs.take n) := by
  rw [← List.take_append_drop n xs, List.pairwise_append] at hordered
  obtain ⟨hitems, -, hrest⟩ := hordered
  refine ⟨?_, hitems, xs.drop n, ?_, hrest⟩
  · rw [List.length_take, hperm.length_eq]
  · rw [List.take_append_drop]
    exact hperm

theorem First.perm {all' : List α} (h : First less n all items) (hperm : all.Perm all') :
    First less n all' items := by
  obtain ⟨hlength, hordered, rest, hrest, hleast⟩ := h
  exact ⟨by rw [hlength, hperm.length_eq], hordered, rest, hrest.trans hperm, hleast⟩

/-! ## A buffer of the first -/

/-- `n` of all, or all of them, and nothing else is before one of them. -/
def Kept (less : α → α → Bool) (n : Nat) (all items : List α) : Prop :=
  items.length = min n all.length ∧
    ∃ rest, (items ++ rest).Perm all ∧ ∀ a ∈ items, ∀ b ∈ rest, less b a = false

theorem kept_nil : Kept less n [] [] :=
  ⟨by simp, [], List.Perm.refl _, by simp⟩

/-- While there is room everything is kept. -/
theorem Kept.push (h : Kept less n all items) (hroom : items.length < n) (a : α) :
    Kept less n (all ++ [a]) (items ++ [a]) := by
  obtain ⟨hlength, rest, hperm, -⟩ := h
  have hall := hperm.length_eq
  rw [List.length_append] at hall
  have hrest : rest = [] := List.eq_nil_of_length_eq_zero (by omega)
  rw [hrest, List.append_nil] at hperm
  refine ⟨?_, [], ?_, by simp⟩
  · rw [List.length_append, List.length_append, List.length_singleton]
    omega
  · rw [List.append_nil]
    exact hperm.append_right [a]

/-- What is not before the last of a full buffer is not kept. -/
theorem Kept.skip (htrans : ∀ a b c, less b a = false → less c b = false → less c a = false)
    (h : Kept less n all items) (hfull : n ≤ items.length) {a last : α}
    (hlast : ∀ b ∈ items, less last b = false) (ha : less a last = false) :
    Kept less n (all ++ [a]) items := by
  obtain ⟨hlength, rest, hperm, hrest⟩ := h
  refine ⟨?_, rest ++ [a], ?_, ?_⟩
  · rw [List.length_append, List.length_singleton]
    omega
  · rw [← List.append_assoc]
    exact hperm.append_right [a]
  · intro b hb c hc
    rcases List.mem_append.1 hc with hc | hc
    · exact hrest b hb c hc
    · rw [List.mem_singleton.1 hc]
      exact htrans b last a (hlast b hb) ha

/-- What is before it takes its place. -/
theorem Kept.replace (htrans : ∀ a b c, less b a = false → less c b = false → less c a = false)
    (htotal : ∀ a b, less a b = false ∨ less b a = false) {before after : List α} {a last : α}
    (h : Kept less n all (before ++ last :: after)) (hfull : n ≤ (before ++ last :: after).length)
    (hlast : ∀ b ∈ before ++ last :: after, less last b = false) (ha : less a last = true) :
    Kept less n (all ++ [a]) (before ++ a :: after) := by
  obtain ⟨hlength, rest, hperm, hrest⟩ := h
  have hlast' : less last a = false := by
    rcases htotal a last with hfalse | hfalse
    · rw [ha] at hfalse
      cases hfalse
    · exact hfalse
  have hmem : ∀ b ∈ before ++ a :: after, b = a ∨ b ∈ before ++ last :: after := by
    intro b hb
    rcases List.mem_append.1 hb with hb | hb
    · exact .inr (List.mem_append_left _ hb)
    · rcases List.mem_cons.1 hb with rfl | hb
      · exact .inl rfl
      · exact .inr (List.mem_append_right _ (.tail _ hb))
  refine ⟨?_, rest ++ [last], ?_, ?_⟩
  · simp only [List.length_append, List.length_cons, List.length_nil] at hlength hfull ⊢
    omega
  · have hswap : (before ++ a :: after ++ (rest ++ [last])).Perm
        (before ++ last :: after ++ rest ++ [a]) := by
      classical
      rw [List.perm_iff_count]
      intro b
      simp only [List.count_append, List.count_cons, List.count_nil]
      omega
    exact hswap.trans (hperm.append_right [a])
  · intro b hb c hc
    have hc' : c ∈ rest ∨ c = last := by simpa using hc
    rcases hmem b hb with rfl | hb
    · rcases hc' with hc | rfl
      · exact htrans b last c hlast' (hrest last (by simp) c hc)
      · exact hlast'
    · rcases hc' with hc | rfl
      · exact hrest b hb c hc
      · exact hlast b hb

/-- A buffer in order has what is first. -/
theorem Kept.first (h : Kept less n all items) {xs : List α} (hperm : xs.Perm items)
    (hordered : xs.Pairwise fun a b => less b a = false) : First less n all xs := by
  obtain ⟨hlength, rest, hrest, hleast⟩ := h
  exact ⟨hperm.length_eq.trans hlength, hordered, rest, (hperm.append_right rest).trans hrest,
    fun a ha => hleast a (hperm.mem_iff.1 ha)⟩

/-- Where the order tells any two apart, what is first is one list. -/
theorem First.eq_take (sorter : Sorter less) (h : First less n all items) {xs : List α}
    (hperm : xs.Perm all) (hordered : xs.Pairwise fun a b => less b a = false)
    (hanti : ∀ a ∈ all, ∀ b ∈ all, less b a = false → less a b = false → a = b) :
    items = xs.take n := by
  obtain ⟨hlength, hitems, rest, hrest, hleast⟩ := h
  have hall : (items ++ sorter.sort rest).Perm all := ((sorter.perm rest).append_left _).trans hrest
  have hsorted : (items ++ sorter.sort rest).Pairwise fun a b => less b a = false :=
    List.pairwise_append.2 ⟨hitems, sorter.ordered rest, fun a ha b hb =>
      hleast a ha b ((sorter.perm rest).mem_iff.1 hb)⟩
  have heq : items ++ sorter.sort rest = xs := by
    refine List.Perm.eq_of_pairwise (fun a b ha hb => ?_) hsorted hordered (hall.trans hperm.symm)
    exact hanti a (hall.mem_iff.1 ha) b (hperm.mem_iff.1 hb)
  have hcount := hall.length_eq
  rw [List.length_append] at hcount
  rw [← heq, List.take_append]
  have htake : items.take n = items := List.take_of_length_le (by omega)
  have hnone : (sorter.sort rest).take (n - items.length) = [] := by
    rcases Nat.le_total n all.length with hle | hle
    · rw [show n - items.length = 0 by omega, List.take_zero]
    · rw [List.eq_nil_of_length_eq_zero (show (sorter.sort rest).length = 0 by omega),
        List.take_nil]
  rw [htake, hnone, List.append_nil]

/-- What comes before a place is less, and the rest is not. -/
theorem mem_take_iff {xs : List α} (hordered : xs.Pairwise fun a b => less a b = true)
    (hirrefl : ∀ a, less a a = false) (hasymm : ∀ a b, less a b = true → less b a = false)
    {k : Nat} {a : α} (ha : a ∈ xs) : a ∈ xs.take k ↔ xs.countP (fun b => less b a) < k := by
  induction xs generalizing k with
  | nil => cases ha
  | cons x xs ih =>
      obtain ⟨hx, hrest⟩ := List.pairwise_cons.1 hordered
      cases k with
      | zero => simp
      | succ k =>
          rw [List.take_succ_cons, List.mem_cons, List.countP_cons]
          rcases List.mem_cons.1 ha with rfl | ha
          · have hnone : xs.countP (fun b => less b a) = 0 := by
              rw [List.countP_eq_zero]
              intro b hb
              simp [hasymm a b (hx b hb)]
            rw [hnone, hirrefl]
            simp
          · have hless := hx a ha
            have hne : a ≠ x := by
              rintro rfl
              rw [hirrefl] at hless
              cases hless
            rw [hless, ih hrest ha, if_pos rfl]
            simp only [hne, false_or]
            omega

end

end Lib
