import Mathlib.Data.List.Basic
import Mathlib.Data.List.Nodup

/-!
# `URLSearchParams`

The parameters of a URL in their order. A name may stand several times; `get`
takes the first of them, `delete` all.
-/

namespace Lib

abbrev SearchParams := List (String × String)

namespace SearchParams

def get (params : SearchParams) (name : String) : Option String :=
  (params.find? fun p => p.1 == name).map Prod.snd

def delete (params : SearchParams) (name : String) : SearchParams :=
  params.filter fun p => p.1 != name

/-- The first parameter of the name gets the value, the others are deleted. -/
def set (params : SearchParams) (name value : String) : SearchParams :=
  match params with
  | [] => [(name, value)]
  | p :: rest =>
      if p.1 = name then (name, value) :: delete rest name else p :: set rest name value

def deleteAll (params : SearchParams) (names : List String) : SearchParams :=
  names.foldl delete params

def setAll (params entries : SearchParams) : SearchParams :=
  entries.foldl (fun params p => params.set p.1 p.2) params

theorem deleteAll_eq (params : SearchParams) (names : List String) :
    deleteAll params names = params.filter fun p => p.1 ∉ names := by
  induction names generalizing params with
  | nil => simp [deleteAll]
  | cons name names ih =>
      have hcons : deleteAll params (name :: names) = deleteAll (delete params name) names := rfl
      rw [hcons, ih, delete, List.filter_filter]
      refine List.filter_congr fun p _ => ?_
      rw [Bool.eq_iff_iff]
      simp only [Bool.and_eq_true, decide_eq_true_eq, bne_iff_ne, List.mem_cons, not_or]
      exact and_comm

/-- A name that is not there is added at the end. -/
theorem set_new {params : SearchParams} {name : String} (h : ∀ p ∈ params, p.1 ≠ name)
    (value : String) : params.set name value = params ++ [(name, value)] := by
  induction params with
  | nil => rfl
  | cons p rest ih =>
      rw [set, if_neg (h p List.mem_cons_self), ih fun q hq => h q (List.mem_cons_of_mem _ hq)]
      rfl

theorem setAll_new {params entries : SearchParams}
    (h : ∀ p ∈ params, p.1 ∉ entries.map Prod.fst) (hnodup : (entries.map Prod.fst).Nodup) :
    setAll params entries = params ++ entries := by
  induction entries generalizing params with
  | nil => simp [setAll]
  | cons entry entries ih =>
      obtain ⟨hentry, hentries⟩ := List.nodup_cons.1 hnodup
      have hcons : setAll params (entry :: entries) =
          setAll (params.set entry.1 entry.2) entries := rfl
      have hnew : ∀ p ∈ params, p.1 ≠ entry.1 := by
        intro p hp heq
        exact h p hp (heq ▸ List.mem_cons_self)
      rw [hcons, set_new hnew, ih, List.append_assoc]
      · rfl
      · intro p hp
        rcases List.mem_append.1 hp with hp | hp
        · exact fun hmem => h p hp (List.mem_cons_of_mem _ hmem)
        · rw [List.mem_singleton.1 hp]
          exact hentry
      · exact hentries

/-- The first parameters go before the second ones. -/
theorem get_or (params entries : SearchParams) (name : String) :
    get (params ++ entries) name = (get params name).or (get entries name) := by
  rw [get, List.find?_append, Option.map_or]
  rfl

/-- What is behind parameters of other names. -/
theorem get_append {params : SearchParams} {name : String} (h : ∀ p ∈ params, p.1 ≠ name)
    (entries : SearchParams) : get (params ++ entries) name = get entries name := by
  have hnone : get params name = none := by
    rw [get, Option.map_eq_none_iff, List.find?_eq_none]
    intro p hp
    simp [h p hp]
  rw [get_or, hnone, Option.none_or]

theorem get_ite {c : Prop} [Decidable c] (entries : SearchParams) (name : String) :
    get (if c then entries else []) name = if c then get entries name else none := by
  split
  · rfl
  · rfl

theorem get_cons (p : String × String) (rest : SearchParams) (name : String) :
    get (p :: rest) name = if p.1 = name then some p.2 else get rest name := by
  by_cases h : p.1 = name
  · simp [get, h]
  · simp [get, h]

end SearchParams

end Lib
