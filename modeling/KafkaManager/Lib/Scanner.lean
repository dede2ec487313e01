import Mathlib.Data.List.Basic

/-!
# Lines (`bufio.Scanner`)

A text is lines that end and a rest that does not. Appending to the text goes
on with that rest. The scanner gives the lines, the rest as one more if there
is one, and fails at a line that does not fit its buffer.
-/

namespace Lib

def newline : UInt8 := 10

def carriageReturn : UInt8 := 13

/-- The lines that end, and what is after the last of them. -/
def splitLines : List UInt8 → List (List UInt8) × List UInt8
  | [] => ([], [])
  | b :: text =>
      let (lines, rest) := splitLines text
      if b = newline then ([] :: lines, rest)
      else
        match lines with
        | [] => ([], b :: rest)
        | line :: lines => ((b :: line) :: lines, rest)

theorem splitLines_append (x y : List UInt8) :
    splitLines (x ++ y) =
      match (splitLines y).1 with
      | [] => ((splitLines x).1, (splitLines x).2 ++ (splitLines y).2)
      | line :: lines =>
          ((splitLines x).1 ++ ((splitLines x).2 ++ line) :: lines, (splitLines y).2) := by
  induction x with
  | nil =>
      rw [List.nil_append]
      cases h : splitLines y with
      | mk lines rest =>
          cases lines with
          | nil => rfl
          | cons line lines => rfl
  | cons b x ih =>
      rw [List.cons_append, splitLines, splitLines, ih]
      cases hx : splitLines x with
      | mk lines rest =>
          cases hy : (splitLines y).1 with
          | nil =>
              by_cases hb : b = newline
              · simp [hb]
              · cases lines with
                | nil => simp [hb]
                | cons line lines => simp [hb]
          | cons line' lines' =>
              by_cases hb : b = newline
              · simp [hb]
              · cases lines with
                | nil => simp [hb]
                | cons line lines => simp [hb]

theorem splitLines_plain {x : List UInt8} (h : newline ∉ x) : splitLines x = ([], x) := by
  induction x with
  | nil => rfl
  | cons b x ih =>
      rw [List.mem_cons, not_or] at h
      simp only [splitLines, ih h.2, if_neg (Ne.symm h.1)]

theorem splitLines_line {x : List UInt8} (h : newline ∉ x) :
    splitLines (x ++ [newline]) = ([x], []) := by
  have hend : splitLines [newline] = ([[]], []) := rfl
  rw [splitLines_append, splitLines_plain h, hend]
  simp

/-- What `ScanLines` does to a line. -/
def dropCR (line : List UInt8) : List UInt8 :=
  if line.getLast? = some carriageReturn then line.dropLast else line

theorem dropCR_plain {line : List UInt8} (h : carriageReturn ∉ line) : dropCR line = line := by
  refine if_neg fun hlast => ?_
  exact h (List.mem_of_getLast? hlast)

/-- The lines a scanner with a buffer of this size gives. It has failed if it
gives none. -/
def scanLines (size : Nat) (text : List UInt8) : Option (List (List UInt8)) :=
  let (lines, rest) := splitLines text
  let all := if rest = [] then lines else lines ++ [rest]
  if all.all fun line => line.length < size then some (all.map dropCR) else none

/-- Lines that fit and have no carriage return are given as they are. -/
theorem scanLines_plain {size : Nat} {text : List UInt8}
    (hlines : ∀ line ∈ (splitLines text).1, line.length < size ∧ carriageReturn ∉ line)
    (hrest : (splitLines text).2.length < size ∧ carriageReturn ∉ (splitLines text).2) :
    scanLines size text =
      some ((splitLines text).1 ++ if (splitLines text).2 = [] then [] else [(splitLines text).2]) := by
  obtain ⟨all, hall⟩ : ∃ l, l = (splitLines text).1 ++
      if (splitLines text).2 = [] then [] else [(splitLines text).2] := ⟨_, rfl⟩
  have hmem : ∀ line ∈ all, line.length < size ∧ carriageReturn ∉ line := by
    intro line hline
    rw [hall, List.mem_append] at hline
    rcases hline with hline | hline
    · exact hlines line hline
    · split at hline
      · cases hline
      · rw [List.mem_singleton.1 hline]
        exact hrest
  have hfit : (all.all fun line => line.length < size) = true :=
    List.all_eq_true.2 fun line hline => decide_eq_true (hmem line hline).1
  have hdrop : all.map dropCR = all := by
    have hid : all.map dropCR = all.map id :=
      List.map_congr_left fun line hline => dropCR_plain (hmem line hline).2
    rw [hid, List.map_id]
  have hsplit : (if (splitLines text).2 = [] then (splitLines text).1
      else (splitLines text).1 ++ [(splitLines text).2]) = all := by
    rw [hall]
    split
    · rw [List.append_nil]
    · rfl
  simp only [scanLines, hsplit, hfit, hdrop, if_true, ← hall]

end Lib
