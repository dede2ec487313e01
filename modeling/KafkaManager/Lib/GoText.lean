import Mathlib.Data.List.Nodup
import Mathlib.Data.List.TakeWhile

/-!
# The string functions of Go's standard library

A Go string is modelled by `String`; what a function does to it is written on
its list of characters. Only the functions the program calls are here.
-/

namespace Lib

/-- `unicode.IsSpace`: the characters with the White_Space property. -/
def isSpace (c : Char) : Bool :=
  let n := c.toNat
  (9 ≤ n && n ≤ 13) || n == 0x20 || n == 0x85 || n == 0xA0 || n == 0x1680 ||
    (0x2000 ≤ n && n ≤ 0x200A) || n == 0x2028 || n == 0x2029 || n == 0x202F ||
    n == 0x205F || n == 0x3000

/-- `strings.TrimSpace(s) == ""`. Trimming leaves nothing exactly when there
is nothing but space to trim. -/
def isBlank (s : String) : Bool := s.toList.all isSpace

/-- `strings.TrimSpace` -/
def trimSpace (s : String) : String :=
  String.ofList ((s.toList.dropWhile isSpace).reverse.dropWhile isSpace).reverse

/-- The characters of a literal, without running the decoder: the equation of
a literal with `String.ofList` is `rfl`. -/
theorem toList_eq {s : String} {l : List Char} (h : s = String.ofList l) : s.toList = l := by
  rw [h, String.toList_ofList]

theorem not_blank {s : String} {l : List Char} (h : s = String.ofList l)
    (hl : l.all isSpace = false) : isBlank s = false := by
  rw [isBlank, toList_eq h, hl]

/-- `strings.Cut`: what is before and after the first occurrence of `sep`. -/
def cut (sep : List Char) : List Char → Option (List Char × List Char)
  | [] => if sep.isEmpty then some ([], []) else none
  | c :: rest =>
      if sep.isPrefixOf (c :: rest) then some ([], (c :: rest).drop sep.length)
      else (cut sep rest).map fun (x, y) => (c :: x, y)

/-- `strings.Replace(s, old, new, 1)` -/
def replaceFirst (s old new : List Char) : List Char :=
  match cut old s with
  | some (x, y) => x ++ (new ++ y)
  | none => s

theorem eq_of_cut {sep s x y : List Char} (h : cut sep s = some (x, y)) : s = x ++ (sep ++ y) := by
  induction s generalizing x y with
  | nil =>
      rw [cut] at h
      split at h
      · next hsep =>
          obtain ⟨rfl, rfl⟩ := Prod.mk.inj (Option.some.inj h)
          rw [List.isEmpty_iff.1 hsep]
          rfl
      · exact absurd h (by simp)
  | cons c rest ih =>
      rw [cut] at h
      split at h
      · next hp =>
          obtain ⟨rfl, rfl⟩ := Prod.mk.inj (Option.some.inj h)
          obtain ⟨z, hz⟩ := List.isPrefixOf_iff_prefix.1 hp
          rw [← hz]
          simp
      · obtain ⟨⟨x', y'⟩, hcut, heq⟩ := Option.map_eq_some_iff.1 h
        obtain ⟨rfl, rfl⟩ := Prod.mk.inj heq
        rw [List.cons_append, ← ih hcut]

/-- What is somewhere in a text is found. -/
theorem cut_of_infix {sep s : List Char} (h : sep <:+: s) : (cut sep s).isSome = true := by
  induction s with
  | nil =>
      obtain rfl := List.infix_nil.1 h
      rfl
  | cons c rest ih =>
      rw [cut]
      split
      · rfl
      · next hnot =>
          rcases List.infix_cons_iff.1 h with hprefix | hrest
          · exact absurd (List.isPrefixOf_iff_prefix.2 hprefix) hnot
          · rw [Option.isSome_map]
            exact ih hrest

theorem trimSpace_infix (s : String) : (trimSpace s).toList <:+: s.toList := by
  rw [trimSpace, String.toList_ofList]
  have hfront : s.toList.dropWhile isSpace <:+ s.toList := List.dropWhile_suffix _
  have hback : ((s.toList.dropWhile isSpace).reverse.dropWhile isSpace).reverse <+:
      s.toList.dropWhile isSpace := by
    rw [← List.reverse_suffix, List.reverse_reverse]
    exact List.dropWhile_suffix _
  exact hback.isInfix.trans hfront.isInfix

/-- There is nothing to trim. -/
theorem trimSpace_plain {s : String} (h : ∀ c ∈ s.toList, isSpace c = false) :
    trimSpace s = s := by
  have hfront : s.toList.dropWhile isSpace = s.toList := by
    rw [List.dropWhile_eq_self_iff]
    exact fun hpos => Bool.not_eq_true _ ▸ h _ (List.getElem_mem hpos)
  have hback : s.toList.reverse.dropWhile isSpace = s.toList.reverse := by
    rw [List.dropWhile_eq_self_iff]
    exact fun hpos => Bool.not_eq_true _ ▸ h _ (List.mem_reverse.1 (List.getElem_mem hpos))
  rw [trimSpace, hfront, hback, List.reverse_reverse, String.ofList_toList]

end Lib
