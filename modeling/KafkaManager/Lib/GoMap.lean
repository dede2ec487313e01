import Mathlib.Data.List.Nodup
import Mathlib.Data.List.Perm.Subperm

/-!
# Maps as Go has them

A Go map is a finite table with one value per key. The standard library's
extensional tree map is exactly that, so `GoMap` only renames it; `m[k]?` is
the comma-ok lookup, `insert` an assignment, `erase` a `delete`, and `filter`
the loop that deletes while it ranges. Go ranges in an unspecified order. The
order of `toList` stands for one of them, and nothing below depends on which.

What the rest of the development needs beyond lookups is counting: which
values a map holds, each how often. Those facts are all one fact,
`toList_perm_append`: a map whose lookups split over two maps with disjoint
keys lists the entries of the one and then of the other, up to order.
-/

namespace Lib

/-- A Go map. -/
abbrev GoMap (κ α : Type) [Ord κ] := Std.ExtTreeMap κ α compare

namespace GoMap

variable {κ α β : Type} [Ord κ] [Std.TransOrd κ] [Std.LawfulEqOrd κ]

/-- The values a range over the map sees, one per key. -/
def vals (m : GoMap κ α) : List α := m.toList.map Prod.snd

/-- A lookup after an assignment, by equality of keys. -/
theorem get_insert (m : GoMap κ α) (k i : κ) (v : α) [DecidableEq κ] :
    (m.insert k v)[i]? = if k = i then some v else m[i]? := by
  rw [Std.ExtTreeMap.getElem?_insert]
  simp only [Std.LawfulEqOrd.compare_eq_iff_eq]

/-- A lookup after a deletion, by equality of keys. -/
theorem get_erase (m : GoMap κ α) (k i : κ) [DecidableEq κ] :
    (m.erase k)[i]? = if k = i then none else m[i]? := by
  rw [Std.ExtTreeMap.getElem?_erase]
  simp only [Std.LawfulEqOrd.compare_eq_iff_eq]

@[simp] theorem get_filter (m : GoMap κ α) (f : κ → α → Bool) (i : κ) :
    (m.filter f)[i]? = m[i]?.filter (f i) :=
  Std.ExtTreeMap.getElem?_filter'

theorem get_filter_key (m : GoMap κ α) (f : κ → Bool) (i : κ) :
    (m.filter fun k _ => f k)[i]? = if f i then m[i]? else none := by
  rw [get_filter]
  cases hm : m[i]? with
  | none => simp
  | some v => cases f i <;> simp

theorem contains_filter_key (m : GoMap κ α) (f : κ → Bool) (i : κ) :
    (m.filter fun k _ => f k).contains i = (m[i]?.isSome && f i) := by
  rw [← Std.ExtTreeMap.isSome_getElem?_eq_contains, get_filter_key]
  cases f i <;> simp

@[simp] theorem get_map (m : GoMap κ α) (f : κ → α → β) (i : κ) :
    (m.map f)[i]? = m[i]?.map (f i) :=
  Std.ExtTreeMap.getElem?_map

theorem toList_nodup (m : GoMap κ α) : m.toList.Nodup := by
  have h := (Std.ExtTreeMap.distinct_keys_toList (t := m))
  refine List.Pairwise.imp ?_ h
  rintro a b hab rfl
  exact hab Std.ReflCmp.compare_self

theorem mem_toList (m : GoMap κ α) (p : κ × α) : p ∈ m.toList ↔ m[p.1]? = some p.2 :=
  Std.ExtTreeMap.mem_toList_iff_getElem?_eq_some

theorem mem_vals (m : GoMap κ α) (v : α) : v ∈ vals m ↔ ∃ k : κ, m[k]? = some v := by
  simp only [vals, List.mem_map, mem_toList]
  constructor
  · rintro ⟨⟨k, w⟩, hk, rfl⟩
    exact ⟨k, hk⟩
  · rintro ⟨k, hk⟩
    exact ⟨(k, v), hk, rfl⟩

/-- Entries split the way lookups do. -/
theorem toList_perm_append {m a b : GoMap κ α}
    (h : ∀ k : κ, m[k]? = (a[k]?).or b[k]?)
    (hd : ∀ k : κ, a[k]? = none ∨ b[k]? = none) :
    m.toList.Perm (a.toList ++ b.toList) := by
  have hnd : (a.toList ++ b.toList).Nodup := by
    refine List.Nodup.append (toList_nodup a) (toList_nodup b) ?_
    rintro ⟨k, v⟩ ha hb
    rw [mem_toList] at ha hb
    rcases hd k with hn | hn
    · rw [hn] at ha
      exact absurd ha (by simp)
    · rw [hn] at hb
      exact absurd hb (by simp)
  refine (List.perm_ext_iff_of_nodup (toList_nodup m) hnd).2 ?_
  rintro ⟨k, v⟩
  rw [List.mem_append, mem_toList, mem_toList, mem_toList, h k]
  rcases hd k with hn | hn
  · simp [hn]
  · cases ha : a[k]? <;> simp [hn]

theorem vals_perm_append {m a b : GoMap κ α}
    (h : ∀ k : κ, m[k]? = (a[k]?).or b[k]?)
    (hd : ∀ k : κ, a[k]? = none ∨ b[k]? = none) :
    (vals m).Perm (vals a ++ vals b) := by
  have hp := (toList_perm_append h hd).map Prod.snd
  rwa [List.map_append] at hp

omit [Std.LawfulEqOrd κ] in
@[simp] theorem vals_empty : vals (∅ : GoMap κ α) = [] := by
  simp [vals]

theorem vals_singleton (k : κ) (v : α) :
    vals ((∅ : GoMap κ α).insert k v) = [v] := by
  classical
  have hperm : (((∅ : GoMap κ α).insert k v).toList).Perm [(k, v)] := by
    refine (List.perm_ext_iff_of_nodup (toList_nodup _) (by simp)).2 ?_
    rintro ⟨i, w⟩
    rw [mem_toList, get_insert, List.mem_singleton]
    by_cases hk : k = i
    · subst hk
      simp [eq_comm]
    · simp [hk, Ne.symm hk]
  simp [vals, List.perm_singleton.1 hperm]

/-- An assignment adds its value and drops the one it overwrites. -/
theorem vals_insert (m : GoMap κ α) (k : κ) (v : α) :
    (vals (m.insert k v)).Perm (v :: vals (m.erase k)) := by
  classical
  have h := vals_perm_append (m := m.insert k v) (a := (∅ : GoMap κ α).insert k v)
    (b := m.erase k) ?_ ?_
  · rwa [vals_singleton] at h
  · intro i
    rw [get_insert, get_insert, get_erase]
    by_cases hk : k = i <;> simp [hk]
  · intro i
    rw [get_insert, get_erase]
    by_cases hk : k = i <;> simp [hk]

/-- A deletion takes away exactly the value the key had. -/
theorem vals_erase {m : GoMap κ α} {k : κ} {v : α} (hk : m[k]? = some v) :
    (vals m).Perm (v :: vals (m.erase k)) := by
  classical
  have h := vals_perm_append (m := m) (a := (∅ : GoMap κ α).insert k v)
    (b := m.erase k) ?_ ?_
  · rwa [vals_singleton] at h
  · intro i
    rw [get_insert, get_erase]
    by_cases hi : k = i
    · subst hi
      simp [hk]
    · simp [hi]
  · intro i
    rw [get_insert, get_erase]
    by_cases hi : k = i <;> simp [hi]

/-- The second of two assignments to a key is the one that stays. -/
theorem insert_insert (m : GoMap κ α) (k : κ) (v w : α) [DecidableEq κ] :
    (m.insert k v).insert k w = m.insert k w := by
  refine Std.ExtTreeMap.ext_getElem? fun i => ?_
  rw [get_insert, get_insert, get_insert]
  split <;> rfl

/-- A key without a value makes deleting it a no-op. -/
theorem erase_of_none {m : GoMap κ α} {k : κ} (hk : m[k]? = none) : m.erase k = m := by
  classical
  refine Std.ExtTreeMap.ext_getElem? fun i => ?_
  rw [get_erase]
  by_cases hi : k = i
  · subst hi
    simp [hk]
  · simp [hi]

/-- The values before and after an assignment. -/
theorem vals_insert_overwritten (m : GoMap κ α) (k : κ) (v : α) :
    (v :: vals m).Perm (vals (m.insert k v) ++ m[k]?.toList) := by
  have hinsert := vals_insert m k v
  cases hk : m[k]? with
  | none =>
      rw [erase_of_none hk] at hinsert
      simpa using hinsert.symm
  | some w =>
      have herase := vals_erase hk
      have hrest : (vals (m.insert k v) ++ [w]).Perm (v :: w :: vals (m.erase k)) := by
        refine (List.perm_append_singleton w _).trans ?_
        exact (hinsert.cons w).trans (List.Perm.swap v w _)
      exact (herase.cons v).trans hrest.symm

/-- A range that keeps some keys and removes the others loses no value. -/
theorem vals_partition (m : GoMap κ α) (f : κ → Bool) :
    (vals m).Perm (vals (m.filter fun k _ => f k) ++ vals (m.filter fun k _ => !f k)) := by
  refine vals_perm_append ?_ ?_
  · intro i
    rw [get_filter_key, get_filter_key]
    cases f i <;> simp
  · intro i
    rw [get_filter_key, get_filter_key]
    cases f i <;> simp

/-- Two maps of one size, the keys of the first all in the second, have the
same keys. This is what a length comparison before a one-way loop decides. -/
theorem get_isSome_of_size_eq {m : GoMap κ α} {n : GoMap κ β} (hs : m.size = n.size)
    (h : ∀ k : κ, m[k]?.isSome → n[k]?.isSome) (k : κ) (hk : n[k]?.isSome) : m[k]?.isSome := by
  have hmem : ∀ {γ : Type} (t : GoMap κ γ) (i : κ), i ∈ t.keys ↔ t[i]?.isSome := by
    intro γ t i
    rw [Std.ExtTreeMap.mem_keys, Std.ExtTreeMap.mem_iff_isSome_getElem?]
  have hsub : m.keys ⊆ n.keys := fun i hi => (hmem n i).2 (h i ((hmem m i).1 hi))
  have hlen : n.keys.length = m.keys.length := by
    rw [Std.ExtTreeMap.length_keys, Std.ExtTreeMap.length_keys, hs]
  have hperm := (List.subperm_of_subset Std.ExtTreeMap.nodup_keys hsub).perm_of_length_le
    (Nat.le_of_eq hlen)
  exact (hmem m k).1 (hperm.mem_iff.2 ((hmem n k).2 hk))

/-- Maps with the same keys have one size. -/
theorem size_eq_of_isSome {m : GoMap κ α} {n : GoMap κ β}
    (h : ∀ k : κ, m[k]?.isSome = n[k]?.isSome) : m.size = n.size := by
  have hperm : m.keys.Perm n.keys := by
    rw [List.perm_ext_iff_of_nodup Std.ExtTreeMap.nodup_keys Std.ExtTreeMap.nodup_keys]
    intro k
    rw [Std.ExtTreeMap.mem_keys, Std.ExtTreeMap.mem_keys, Std.ExtTreeMap.mem_iff_isSome_getElem?,
      Std.ExtTreeMap.mem_iff_isSome_getElem?, h k]
  rw [← Std.ExtTreeMap.length_keys, ← Std.ExtTreeMap.length_keys, hperm.length_eq]

/-- A loop that assigns to the keys of a list without repetitions, where it
assigns at all. -/
theorem get_foldl_insert {γ : Type} [DecidableEq κ] {key : γ → κ} (f : γ → Option α) {l : List γ}
    (hl : (l.map key).Nodup) (m : GoMap κ α) (k : κ) :
    (l.foldl (fun m x => match f x with
      | some v => m.insert (key x) v
      | none => m) m)[k]? = ((l.find? fun x => key x == k).bind f).or m[k]? := by
  induction l generalizing m with
  | nil => simp
  | cons x l ih =>
      rw [List.map_cons, List.nodup_cons] at hl
      rw [List.foldl_cons, ih hl.2, List.find?_cons]
      by_cases hk : key x = k
      · have hnone : (l.find? fun y => key y == k) = none := by
          rw [List.find?_eq_none]
          intro y hy hyk
          rw [beq_iff_eq, ← hk] at hyk
          exact hl.1 (hyk ▸ List.mem_map_of_mem hy)
        rw [hnone, beq_iff_eq.2 hk]
        cases hf : f x with
        | none => simp [hf]
        | some v => simp [hf, hk]
      · have hne : (key x == k) = false := beq_eq_false_iff_ne.2 hk
        rw [hne]
        cases hf : f x with
        | none => rfl
        | some v => simp [get_insert, hk]

/-- The loop that assigns to each of them. -/
theorem get_foldl_insert_all {γ : Type} [DecidableEq κ] {key : γ → κ} (f : γ → α) {l : List γ}
    (hl : (l.map key).Nodup) (k : κ) :
    (l.foldl (fun m x => m.insert (key x) (f x)) (∅ : GoMap κ α))[k]? =
      (l.find? fun x => key x == k).map f := by
  have h := get_foldl_insert (fun x => some (f x)) hl (∅ : GoMap κ α) k
  rw [Std.ExtTreeMap.getElem?_empty, Option.or_none] at h
  rw [Option.map_eq_bind]
  exact h

end GoMap

end Lib
