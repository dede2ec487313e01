import KafkaManager.Lib.Segments

/-!
# Package `path/filepath` on Unix

A path is its components and whether it begins at the root. `Clean` brings them
into a form where only the first components lead up, and none if the path is
rooted (`Normal`). `Join` and `Rel` are about that form.
-/

namespace Lib

namespace Filepath

def dot : List Char := ['.']

def dotDot : List Char := ['.', '.']

/-- `IsAbs` -/
def isAbs (path : List Char) : Bool := path.head? == some '/'

/-- One more component after these. -/
def push (rooted : Bool) (out : List (List Char)) (c : List Char) : List (List Char) :=
  if c = dot then out
  else if c = dotDot then
    match out.getLast? with
    | none => if rooted then [] else [dotDot]
    | some last => if last = dotDot then out ++ [dotDot] else out.dropLast
  else out ++ [c]

def components (path : List Char) : List (List Char) :=
  (segments '/' path).foldl (push (isAbs path)) []

def render (rooted : Bool) (parts : List (List Char)) : List Char :=
  if rooted then '/' :: ['/'].intercalate parts
  else if parts = [] then dot
  else ['/'].intercalate parts

/-- `Clean` -/
def clean (path : List Char) : List Char := render (isAbs path) (components path)

/-- `Join` leaves out what is empty at the beginning. -/
def join (elem : List (List Char)) : List Char :=
  match elem.dropWhile List.isEmpty with
  | [] => []
  | elem => clean (['/'].intercalate elem)

/-- What is left of two lists after what they begin with alike. -/
def dropCommon {α : Type} [DecidableEq α] : List α → List α → List α × List α
  | a :: as, b :: bs => if a = b then dropCommon as bs else (a :: as, b :: bs)
  | as, bs => (as, bs)

/-- `Rel`. What leads up from the base cannot be gone back. -/
def rel (base target : List Char) : Option (List Char) :=
  if clean target = clean base then some dot
  else if isAbs base ≠ isAbs target then none
  else
    let (up, down) := dropCommon (components base) (components target)
    if up.head? = some dotDot then none
    else some (['/'].intercalate (up.map (fun _ => dotDot) ++ down))

/-! ## Components -/

/-- The name of a file or a directory, and no step. -/
structure Plain (c : List Char) : Prop where
  segment : IsSegment '/' c
  notDot : c ≠ dot
  notDotDot : c ≠ dotDot

/-- Steps up, if the path is not rooted, and names after them. -/
def Normal (rooted : Bool) (parts : List (List Char)) : Prop :=
  ∃ ups rest, parts = List.replicate ups dotDot ++ rest ∧ (rooted = true → ups = 0) ∧
    ∀ c ∈ rest, Plain c

variable {rooted : Bool} {parts out : List (List Char)} {c : List Char}

theorem isSegment_dotDot : IsSegment '/' dotDot := ⟨by decide, by decide⟩

theorem normal_plain (h : ∀ c ∈ parts, Plain c) : Normal rooted parts :=
  ⟨0, parts, rfl, fun _ => rfl, h⟩

theorem Normal.append (h : Normal rooted out) (hparts : ∀ c ∈ parts, Plain c) :
    Normal rooted (out ++ parts) := by
  obtain ⟨ups, rest, rfl, hups, hrest⟩ := h
  refine ⟨ups, rest ++ parts, List.append_assoc .., hups, fun c hc => ?_⟩
  rcases List.mem_append.1 hc with hc | hc
  · exact hrest c hc
  · exact hparts c hc

theorem Normal.isSegment (h : Normal rooted parts) : ∀ c ∈ parts, IsSegment '/' c := by
  obtain ⟨ups, rest, rfl, -, hrest⟩ := h
  intro c hc
  rcases List.mem_append.1 hc with hc | hc
  · rw [List.eq_of_mem_replicate hc]
    exact isSegment_dotDot
  · exact (hrest c hc).segment

theorem normal_push (h : Normal rooted out) (hc : IsSegment '/' c) :
    Normal rooted (push rooted out c) := by
  unfold push
  split
  · exact h
  · next hdot =>
      split
      · obtain ⟨ups, rest, rfl, hups, hrest⟩ := h
        cases hlast : (List.replicate ups dotDot ++ rest).getLast? with
        | none =>
            cases rooted with
            | true => exact ⟨0, [], rfl, fun _ => rfl, by simp⟩
            | false => exact ⟨1, [], rfl, nofun, by simp⟩
        | some last =>
            dsimp only
            rcases List.eq_nil_or_concat rest with rfl | ⟨front, c', rfl⟩
            · -- only steps up so far, so the path is not rooted
              rw [List.append_nil] at hlast ⊢
              have hmem := List.mem_of_getLast? hlast
              rw [if_pos (List.eq_of_mem_replicate hmem)]
              refine ⟨ups + 1, [], ?_, fun hrooted => ?_, by simp⟩
              · rw [List.replicate_succ', List.append_nil]
              · rw [hups hrooted] at hmem
                exact absurd hmem (List.not_mem_nil)
            · have hc' := hrest c' (by simp)
              rw [List.concat_eq_append, ← List.append_assoc, List.getLast?_concat] at hlast
              obtain rfl := Option.some.inj hlast
              rw [if_neg hc'.notDotDot, List.concat_eq_append, ← List.append_assoc,
                List.dropLast_concat]
              exact ⟨ups, front, rfl, hups, fun c hc => hrest c (by simp [hc])⟩
      · next hdotDot =>
          exact h.append fun c' hc' => List.mem_singleton.1 hc' ▸ ⟨hc, hdot, hdotDot⟩

theorem components_normal (path : List Char) : Normal (isAbs path) (components path) := by
  have hfold : ∀ (parts out : List (List Char)), (∀ c ∈ parts, IsSegment '/' c) →
      Normal (isAbs path) out → Normal (isAbs path) (parts.foldl (push (isAbs path)) out) := by
    intro parts
    induction parts with
    | nil => exact fun _ _ h => h
    | cons c parts ih =>
        intro out hparts hout
        obtain ⟨hc, hparts⟩ := List.forall_mem_cons.1 hparts
        exact ih _ hparts (normal_push hout hc)
  exact hfold _ [] (fun c hc => mem_segments hc) (normal_plain (by simp))

theorem foldl_push_plain (h : ∀ c ∈ parts, Plain c) (out : List (List Char)) :
    parts.foldl (push rooted) out = out ++ parts := by
  induction parts generalizing out with
  | nil => simp
  | cons c parts ih =>
      obtain ⟨hc, hparts⟩ := List.forall_mem_cons.1 h
      rw [List.foldl_cons, ih hparts, push, if_neg hc.notDot, if_neg hc.notDotDot,
        List.append_assoc]
      rfl

theorem foldl_push_up (ups : Nat) :
    (List.replicate ups dotDot).foldl (push false) [] = List.replicate ups dotDot := by
  induction ups with
  | zero => rfl
  | succ ups ih =>
      rw [List.replicate_succ', List.foldl_append, ih, List.foldl_cons, List.foldl_nil, push,
        if_neg (by decide), if_pos rfl]
      cases hlast : (List.replicate ups dotDot).getLast? with
      | none =>
          rw [List.getLast?_eq_none_iff.1 hlast]
          rfl
      | some last =>
          dsimp only
          rw [if_pos (List.eq_of_mem_replicate (List.mem_of_getLast? hlast))]

/-- What is in the form stays. -/
theorem foldl_push_normal (h : Normal rooted parts) : parts.foldl (push rooted) [] = parts := by
  obtain ⟨ups, rest, rfl, hups, hrest⟩ := h
  rw [List.foldl_append, foldl_push_plain hrest]
  cases rooted with
  | true => rw [hups rfl]; rfl
  | false => rw [foldl_push_up]

/-! ## Paths in the form -/

theorem isAbs_intercalate (h : ∀ c ∈ parts, IsSegment '/' c) :
    isAbs (['/'].intercalate parts) = false := by
  cases parts with
  | nil => rfl
  | cons first rest =>
      obtain ⟨hne, hslash⟩ := h first (.head _)
      rw [intercalate_cons]
      cases first with
      | nil => exact absurd rfl hne
      | cons a first =>
          rw [isAbs, List.cons_append, List.head?_cons, beq_eq_false_iff_ne]
          rintro heq
          exact hslash (Option.some.inj heq ▸ List.mem_cons_self ..)

theorem isAbs_render (h : Normal rooted parts) : isAbs (render rooted parts) = rooted := by
  cases rooted with
  | true => rfl
  | false =>
      rw [render, if_neg (by decide)]
      split
      · rfl
      · exact isAbs_intercalate h.isSegment

theorem components_render (h : Normal rooted parts) : components (render rooted parts) = parts := by
  rw [components, isAbs_render h]
  cases rooted with
  | true =>
      rw [render, if_pos rfl, segments_cons, segments_intercalate h.isSegment]
      exact foldl_push_normal h
  | false =>
      rw [render, if_neg (by decide)]
      split
      · next hnil =>
          rw [hnil]
          rfl
      · rw [segments_intercalate h.isSegment]
        exact foldl_push_normal h

theorem isAbs_clean (path : List Char) : isAbs (clean path) = isAbs path :=
  isAbs_render (components_normal path)

theorem components_clean (path : List Char) : components (clean path) = components path :=
  components_render (components_normal path)

/-- A path with names that are put at its end. -/
theorem join_names (base : List Char) (hne : parts ≠ []) (h : ∀ c ∈ parts, Plain c) :
    join [base, ['/'].intercalate parts] = render (isAbs base) (components base ++ parts) := by
  have hsegments : ∀ c ∈ parts, IsSegment '/' c := fun c hc => (h c hc).segment
  have htext : ['/'].intercalate parts ≠ [] := by
    intro hnil
    have hparts := segments_intercalate hsegments
    rw [hnil] at hparts
    exact hne hparts.symm
  cases base with
  | nil =>
      have hjoin : join [[], ['/'].intercalate parts] = clean (['/'].intercalate parts) := by
        unfold join
        rw [List.dropWhile_cons_of_pos rfl, List.dropWhile_cons_of_neg (by simpa using htext)]
        exact congrArg clean List.intercalate_singleton
      rw [hjoin, clean, components, isAbs_intercalate hsegments, segments_intercalate hsegments,
        foldl_push_plain h]
      rfl
  | cons a base =>
      have hjoin : join [a :: base, ['/'].intercalate parts] =
          clean ((a :: base) ++ '/' :: ['/'].intercalate parts) := by
        unfold join
        rw [List.dropWhile_cons_of_neg (by simp)]
        exact congrArg clean (by simp [List.intercalate_cons_cons])
      have habs : isAbs ((a :: base) ++ '/' :: ['/'].intercalate parts) = isAbs (a :: base) := rfl
      rw [hjoin, clean, components, habs, segments_append_cons, segments_intercalate hsegments,
        List.foldl_append, foldl_push_plain h]
      rfl

theorem dropCommon_append {α : Type} [DecidableEq α] (as bs : List α) :
    dropCommon as (as ++ bs) = ([], bs) := by
  induction as with
  | nil => cases bs <;> rfl
  | cons a as ih =>
      rw [List.cons_append, dropCommon, if_pos rfl]
      exact ih

/-- From a path to names at its end. -/
theorem rel_names (base : List Char) (hne : parts ≠ []) (h : ∀ c ∈ parts, Plain c) :
    rel base (render (isAbs base) (components base ++ parts)) = some (['/'].intercalate parts) := by
  have hnormal := (components_normal base).append h
  have hdiffer : clean (render (isAbs base) (components base ++ parts)) ≠ clean base := by
    intro heq
    have hcomponents := congrArg components heq
    rw [components_clean, components_clean, components_render hnormal] at hcomponents
    exact hne (List.append_right_eq_self.1 hcomponents)
  rw [rel, if_neg hdiffer, isAbs_render hnormal, components_render hnormal, dropCommon_append]
  simp

end Filepath

end Lib
