import Mathlib.Data.List.Basic

/-!
# The parts of a separated list

A list is split at each separator, and the empty parts are left out. Parts that
are put together behind separators, or between them, are found again.
-/

namespace Lib

variable {α : Type}

theorem mem_splitOnP {p : α → Bool} {s segment : List α} (h : segment ∈ s.splitOnP p) :
    segment.Sublist s ∧ ∀ c ∈ segment, p c = false := by
  induction s generalizing segment with
  | nil =>
      rw [List.splitOnP_nil, List.mem_singleton] at h
      rw [h]
      exact ⟨List.Sublist.refl _, by simp⟩
  | cons c s ih =>
      rw [List.splitOnP_cons_eq_if_modifyHead] at h
      split at h
      · rcases List.mem_cons.1 h with rfl | h
        · exact ⟨List.nil_sublist _, by simp⟩
        · exact ⟨(ih h).1.cons c, (ih h).2⟩
      · next hc =>
          cases hsplit : s.splitOnP p with
          | nil => exact absurd hsplit (List.splitOnP_ne_nil p s)
          | cons first rest =>
              rw [hsplit, List.modifyHead_cons] at h
              rcases List.mem_cons.1 h with rfl | h
              · have hfirst : first ∈ s.splitOnP p := by
                  rw [hsplit]
                  exact .head _
                obtain ⟨hsub, hnone⟩ := ih hfirst
                refine ⟨hsub.cons_cons c, fun d hd => ?_⟩
                rcases List.mem_cons.1 hd with rfl | hd
                · simpa using hc
                · exact hnone d hd
              · have hrest : segment ∈ s.splitOnP p := by
                  rw [hsplit]
                  exact .tail _ h
                obtain ⟨hsub, hnone⟩ := ih hrest
                exact ⟨hsub.cons c, hnone⟩

theorem intercalate_cons (sep : α) (first : List α) (rest : List (List α)) :
    [sep].intercalate (first :: rest) = first ++ rest.flatMap (sep :: ·) := by
  induction rest generalizing first with
  | nil => simp
  | cons second rest ih =>
      rw [List.intercalate_cons_cons, ih second, List.flatMap_cons]
      simp

section

variable [DecidableEq α] {sep : α}

/-- The parts between separators that are not empty. -/
def segments (sep : α) (s : List α) : List (List α) :=
  (s.splitOn sep).filter fun segment => !segment.isEmpty

/-- A part there can be. -/
def IsSegment (sep : α) (segment : List α) : Prop := segment ≠ [] ∧ sep ∉ segment

theorem segments_append_cons (s t : List α) :
    segments sep (s ++ sep :: t) = segments sep s ++ segments sep t := by
  rw [segments, List.splitOn_append_cons_self, List.filter_append]
  rfl

@[simp] theorem segments_cons (s : List α) : segments sep (sep :: s) = segments sep s :=
  segments_append_cons [] s

theorem segments_segment {segment : List α} (h : IsSegment sep segment) :
    segments sep segment = [segment] := by
  rw [segments, List.splitOn_eq_singleton h.2, List.filter_cons_of_pos, List.filter_nil]
  simpa using h.1

theorem mem_segments {s segment : List α} (h : segment ∈ segments sep s) :
    IsSegment sep segment := by
  obtain ⟨hmem, hne⟩ := List.mem_filter.1 h
  rw [List.splitOn_eq_splitOnP] at hmem
  refine ⟨by simpa using hne, fun hsep => ?_⟩
  have hfalse := (mem_splitOnP hmem).2 sep hsep
  simp at hfalse

/-- Parts behind separators. -/
theorem segments_append_flatMap (s : List α) {parts : List (List α)}
    (h : ∀ part ∈ parts, IsSegment sep part) :
    segments sep (s ++ parts.flatMap (sep :: ·)) = segments sep s ++ parts := by
  induction parts generalizing s with
  | nil => simp
  | cons part parts ih =>
      obtain ⟨hpart, hparts⟩ := List.forall_mem_cons.1 h
      rw [List.flatMap_cons, List.cons_append, segments_append_cons, ih part hparts,
        segments_segment hpart]
      rfl

theorem segments_flatMap {parts : List (List α)} (h : ∀ part ∈ parts, IsSegment sep part) :
    segments sep (parts.flatMap (sep :: ·)) = parts :=
  segments_append_flatMap [] h

/-- Parts with separators between them. -/
theorem segments_intercalate {parts : List (List α)} (h : ∀ part ∈ parts, IsSegment sep part) :
    segments sep ([sep].intercalate parts) = parts := by
  cases parts with
  | nil => rfl
  | cons first rest =>
      obtain ⟨hfirst, hrest⟩ := List.forall_mem_cons.1 h
      rw [intercalate_cons, segments_append_flatMap first hrest, segments_segment hfirst]
      rfl

end

end Lib
