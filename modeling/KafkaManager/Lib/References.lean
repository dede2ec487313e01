import Mathlib.Data.List.TakeWhile
import Mathlib.Data.List.Infix

/-!
# Named references in a text

`${NAME}`, found by the pattern `\$\{([A-Za-z_][A-Za-z0-9_]*)\}` from left to
right without overlap, is a reference; everything else stands for itself.
`tokens` reads a text that way once, and the operations are what they are on
tokens: the names referred to, and the text with every reference replaced.

Whether a piece of text can be read on its own depends on where it is cut. A
name has no line break, so a text falls apart at the end of a line
(`tokens_append`), and a text without a dollar sign is always on its own.

`suffixed w` is the replacement that keeps each reference and writes `w` of
its name behind it. It changes a text exactly if there is a reference in it,
and no two texts become the same; that makes it a probe for code that ought to
leave references alone.
-/

namespace Lib.Refs

def isNameStart (c : Char) : Bool :=
  ('A' ≤ c && c ≤ 'Z') || ('a' ≤ c && c ≤ 'z') || c == '_'

def isNameChar (c : Char) : Bool := isNameStart c || ('0' ≤ c && c ≤ '9')

/-- `[A-Za-z_][A-Za-z0-9_]*` -/
def IsName : List Char → Prop
  | [] => False
  | c :: rest => isNameStart c = true ∧ ∀ d ∈ rest, isNameChar d = true

/-- The text of a reference. -/
def refText (name : List Char) : List Char := '$' :: '{' :: (name ++ ['}'])

/-- The name of the reference a text begins with. -/
def refName : List Char → Option (List Char)
  | '$' :: '{' :: c :: rest =>
      if isNameStart c && (rest.dropWhile isNameChar).head? == some '}' then
        some (c :: rest.takeWhile isNameChar)
      else none
  | _ => none

inductive Token
  | char (c : Char)
  | ref (name : List Char)
deriving DecidableEq

/-- The tokens of a text of which the first `skip` characters are already part
of one. -/
def tokensFrom : Nat → List Char → List Token
  | _, [] => []
  | skip + 1, _ :: rest => tokensFrom skip rest
  | 0, c :: rest =>
      match refName (c :: rest) with
      | some name => .ref name :: tokensFrom (name.length + 2) rest
      | none => .char c :: tokensFrom 0 rest

def tokens (t : List Char) : List Token := tokensFrom 0 t

/-- The names referred to, in order. -/
def names (t : List Char) : List (List Char) :=
  (tokens t).filterMap fun
    | .ref name => some name
    | .char _ => none

/-- The text with every reference replaced. -/
def expand (value : List Char → List Char) (t : List Char) : List Char :=
  (tokens t).flatMap fun
    | .ref name => value name
    | .char c => [c]

/-! ## Reading a text -/

theorem nameChar_of_isName {name : List Char} (h : IsName name) {c : Char} (hc : c ∈ name) :
    isNameChar c = true := by
  cases name with
  | nil => exact absurd hc (by simp)
  | cons d rest =>
      rcases List.mem_cons.1 hc with rfl | hc
      · simp [isNameChar, h.1]
      · exact h.2 c hc

/-- A character that no name contains is in a reference only as punctuation. -/
theorem mem_refText {name : List Char} (h : IsName name) {c : Char} (hc : c ∈ refText name) :
    c = '$' ∨ c = '{' ∨ c = '}' ∨ isNameChar c = true := by
  simp only [refText, List.mem_cons, List.mem_append, List.not_mem_nil, or_false] at hc
  rcases hc with rfl | rfl | hc | rfl
  · exact Or.inl rfl
  · exact Or.inr (Or.inl rfl)
  · exact Or.inr (Or.inr (Or.inr (nameChar_of_isName h hc)))
  · exact Or.inr (Or.inr (Or.inl rfl))

/-- A character that no reference contains. -/
def Separator (c : Char) : Prop :=
  c ≠ '$' ∧ c ≠ '{' ∧ c ≠ '}' ∧ isNameChar c = false

theorem newline_separator : Separator '\n' := ⟨by decide, by decide, by decide, by decide⟩

theorem hash_separator : Separator '#' := ⟨by decide, by decide, by decide, by decide⟩

theorem Separator.not_mem {c : Char} (h : Separator c) {name : List Char} (hn : IsName name) :
    c ∉ refText name := by
  obtain ⟨h₁, h₂, h₃, h₄⟩ := h
  intro hc
  rcases mem_refText hn hc with hc | hc | hc | hc
  · exact h₁ hc
  · exact h₂ hc
  · exact h₃ hc
  · rw [h₄] at hc
    exact absurd hc (by simp)

theorem refName_refText {name : List Char} (h : IsName name) (rest : List Char) :
    refName (refText name ++ rest) = some name := by
  cases name with
  | nil => exact absurd h (by simp [IsName])
  | cons c name =>
      have hall : ∀ d ∈ name, isNameChar d = true := h.2
      have htake : (name ++ '}' :: rest).takeWhile isNameChar = name := by
        rw [List.takeWhile_append_of_pos hall, List.takeWhile_cons_of_neg (by decide),
          List.append_nil]
      have hdrop : (name ++ '}' :: rest).dropWhile isNameChar = '}' :: rest := by
        rw [List.dropWhile_append_of_pos hall, List.dropWhile_cons_of_neg (by decide)]
      show refName ('$' :: '{' :: c :: ((name ++ ['}']) ++ rest)) = some (c :: name)
      rw [List.append_assoc]
      show refName ('$' :: '{' :: c :: (name ++ '}' :: rest)) = some (c :: name)
      rw [refName, htake, hdrop]
      simp [h.1]

theorem eq_of_refName {t name : List Char} (h : refName t = some name) :
    IsName name ∧ ∃ rest, t = refText name ++ rest := by
  unfold refName at h
  split at h
  · next c rest =>
      split at h
      · next hc =>
          simp only [Bool.and_eq_true, beq_iff_eq] at hc
          obtain rfl := Option.some.inj h
          have hsplit := List.takeWhile_append_dropWhile (p := isNameChar) (l := rest)
          cases hdrop : rest.dropWhile isNameChar with
          | nil => rw [hdrop] at hc; exact absurd hc.2 (by simp)
          | cons d tail =>
              rw [hdrop] at hc hsplit
              obtain rfl : d = '}' := by simpa using hc.2
              refine ⟨⟨hc.1, fun d hd => List.mem_takeWhile_imp hd⟩, tail, ?_⟩
              show '$' :: '{' :: c :: rest = _
              conv => lhs; rw [← hsplit]
              simp [refText]
      · exact absurd h (by simp)
  · exact absurd h (by simp)

theorem tokensFrom_drop (skip : Nat) (t : List Char) :
    tokensFrom skip t = tokens (t.drop skip) := by
  induction t generalizing skip with
  | nil => cases skip <;> simp [tokens, tokensFrom]
  | cons c rest ih =>
      cases skip with
      | zero => rfl
      | succ skip =>
          rw [tokensFrom, ih, List.drop_succ_cons]

@[simp] theorem tokens_nil : tokens [] = [] := rfl

theorem tokens_char {c : Char} {rest : List Char} (h : refName (c :: rest) = none) :
    tokens (c :: rest) = .char c :: tokens rest := by
  unfold tokens
  rw [tokensFrom, h]

theorem tokens_ref {name : List Char} (h : IsName name) (rest : List Char) :
    tokens (refText name ++ rest) = .ref name :: tokens rest := by
  have hname := refName_refText h rest
  have hcons : refText name ++ rest = '$' :: ('{' :: (name ++ ['}']) ++ rest) := rfl
  rw [hcons] at hname ⊢
  unfold tokens
  rw [tokensFrom, hname]
  simp only
  rw [tokensFrom_drop]
  have hlen : (('{' :: (name ++ ['}']) ++ rest).drop (name.length + 2)) = rest := by
    rw [List.drop_append_of_le_length (by simp), List.drop_eq_nil_of_le (by simp),
      List.nil_append]
  rw [hlen]
  rfl

/-- Induction along the tokens of a text. -/
theorem token_induction {P : List Char → Prop} (nil : P [])
    (char : ∀ c rest, refName (c :: rest) = none → P rest → P (c :: rest))
    (ref : ∀ name rest, IsName name → P rest → P (refText name ++ rest)) (t : List Char) :
    P t := by
  induction hn : t.length using Nat.strongRecOn generalizing t with
  | ind n ih =>
      cases t with
      | nil => exact nil
      | cons c rest =>
          cases hname : refName (c :: rest) with
          | none => exact char c rest hname (ih rest.length (by simp [← hn]) rest rfl)
          | some name =>
              obtain ⟨hn', tail, heq⟩ := eq_of_refName hname
              rw [heq]
              refine ref name tail hn' (ih tail.length ?_ tail rfl)
              rw [← hn, heq]
              simp [refText]
              omega

theorem refName_of_ne {c : Char} (h : c ≠ '$') (rest : List Char) :
    refName (c :: rest) = none := by
  cases hname : refName (c :: rest) with
  | none => rfl
  | some name =>
      obtain ⟨-, tail, heq⟩ := eq_of_refName hname
      exact absurd (List.cons.inj heq).1 h

theorem tokens_append_of_plain {x : List Char} (h : '$' ∉ x) (y : List Char) :
    tokens (x ++ y) = x.map .char ++ tokens y := by
  induction x with
  | nil => rfl
  | cons c rest ih =>
      have hc : c ≠ '$' := fun hc => h (by simp [hc])
      rw [List.cons_append, tokens_char (refName_of_ne hc _), ih fun hm => h (by simp [hm])]
      rfl

/-- A reference does not reach over a separator. -/
theorem refName_separator {d : Char} (hd : Separator d) {x : List Char} (h : refName x = none)
    (y : List Char) : refName (x ++ d :: y) = none := by
  cases hname : refName (x ++ d :: y) with
  | none => rfl
  | some name =>
      obtain ⟨hn, tail, heq⟩ := eq_of_refName hname
      rcases List.append_eq_append_iff.1 heq with ⟨z, hz, hy⟩ | ⟨z, hz, -⟩
      · cases z with
        | nil =>
            rw [List.append_nil] at hz
            have hself := refName_refText hn []
            rw [List.append_nil, hz, h] at hself
            exact absurd hself (by simp)
        | cons c z =>
            obtain rfl := (List.cons.inj hy).1
            refine absurd ?_ (hd.not_mem hn)
            rw [hz]
            simp
      · rw [hz, refName_refText hn] at h
        exact absurd h (by simp)

theorem tokens_separator {d : Char} (hd : Separator d) (x y : List Char) :
    tokens (x ++ d :: y) = tokens x ++ .char d :: tokens y := by
  induction x using token_induction with
  | nil => exact tokens_char (refName_of_ne hd.1 y)
  | char c rest hc ih =>
      have hsep : refName (c :: (rest ++ d :: y)) = none := refName_separator hd hc y
      rw [tokens_char hc, List.cons_append, tokens_char hsep, ih]
      rfl
  | ref name rest hn ih =>
      rw [List.append_assoc, tokens_ref hn, tokens_ref hn, ih]
      rfl

/-- The text is empty or ends a line. -/
def EndsLine (x : List Char) : Prop := x = [] ∨ ∃ x', x = x' ++ ['\n']

/-- A text falls apart at the end of a line. -/
theorem tokens_append {x : List Char} (hl : EndsLine x) (y : List Char) :
    tokens (x ++ y) = tokens x ++ tokens y := by
  rcases hl with rfl | ⟨x', rfl⟩
  · rfl
  · rw [tokens_separator newline_separator x' [], List.append_assoc]
    show tokens (x' ++ '\n' :: y) = _
    rw [tokens_separator newline_separator]
    simp

/-! ## Texts without references -/

theorem names_nil_iff {t : List Char} :
    names t = [] ↔ ∀ x s, t = x ++ s → refName s = none := by
  constructor
  · intro h
    induction t using token_induction with
    | nil =>
        intro x s hs
        rw [(List.append_eq_nil_iff.1 hs.symm).2]
        rfl
    | char c rest hc ih =>
        rw [names, tokens_char hc] at h
        intro x s hs
        cases x with
        | nil => rw [← hs.trans (List.nil_append s), hc]
        | cons d x => exact ih h x s (List.cons.inj hs).2
    | ref name rest hn =>
        rw [names, tokens_ref hn] at h
        exact absurd h (by simp)
  · intro h
    induction t using token_induction with
    | nil => rfl
    | char c rest hc ih =>
        rw [names, tokens_char hc]
        exact ih fun x s hs => h (c :: x) s (by rw [hs]; rfl)
    | ref name rest hn =>
        have hself := h [] (refText name ++ rest) rfl
        rw [refName_refText hn] at hself
        exact absurd hself (by simp)

theorem names_nil_of_append {x y : List Char} (h : names (x ++ y) = []) :
    names x = [] ∧ names y = [] := by
  rw [names_nil_iff] at h
  constructor
  · refine names_nil_iff.2 fun z s hs => ?_
    have hlong := h z (s ++ y) (by rw [hs, List.append_assoc])
    cases hname : refName s with
    | none => rfl
    | some name =>
        obtain ⟨hn, tail, rfl⟩ := eq_of_refName hname
        rw [List.append_assoc, refName_refText hn] at hlong
        exact absurd hlong (by simp)
  · exact names_nil_iff.2 fun z s hs => h (x ++ z) s (by rw [hs, List.append_assoc])

theorem names_append_of_plain {x : List Char} (h : '$' ∉ x) (y : List Char) :
    names (x ++ y) = names y := by
  unfold names
  rw [tokens_append_of_plain h, List.filterMap_append]
  simp

/-- A comment put into a text without references makes none. -/
theorem names_insert {x note y : List Char} (h : names (x ++ y) = [])
    (hhash : note.head? = some '#') (hnote : '$' ∉ note) : names (x ++ (note ++ y)) = [] := by
  obtain ⟨hx, hy⟩ := names_nil_of_append h
  obtain ⟨tail, rfl⟩ := List.head?_eq_some_iff.1 hhash
  have hplain : '$' ∉ tail := fun hm => hnote (by simp [hm])
  rw [List.cons_append, names, tokens_separator hash_separator, List.filterMap_append]
  show names x ++ names (tail ++ y) = []
  rw [names_append_of_plain hplain, hx, hy]
  rfl

/-! ## Expansion -/

section

variable (value : List Char → List Char)

@[simp] theorem expand_nil : expand value [] = [] := rfl

theorem expand_char {c : Char} {rest : List Char} (h : refName (c :: rest) = none) :
    expand value (c :: rest) = c :: expand value rest := by
  unfold expand
  rw [tokens_char h]
  rfl

theorem expand_ref {name : List Char} (h : IsName name) (rest : List Char) :
    expand value (refText name ++ rest) = value name ++ expand value rest := by
  unfold expand
  rw [tokens_ref h]
  rfl

theorem expand_append {x : List Char} (hl : EndsLine x) (y : List Char) :
    expand value (x ++ y) = expand value x ++ expand value y := by
  unfold expand
  rw [tokens_append hl, List.flatMap_append]

theorem expand_append_of_plain {x : List Char} (h : '$' ∉ x) (y : List Char) :
    expand value (x ++ y) = x ++ expand value y := by
  induction x with
  | nil => rfl
  | cons c rest ih =>
      have hc : c ≠ '$' := fun hc => h (by simp [hc])
      rw [List.cons_append, expand_char value (refName_of_ne hc _), ih fun hm => h (by simp [hm])]
      rfl

theorem expand_of_plain {x : List Char} (h : '$' ∉ x) : expand value x = x := by
  have hx := expand_append_of_plain value h []
  rwa [List.append_nil, expand_nil, List.append_nil] at hx

/-- A line break at the end stays there. -/
theorem EndsLine.expand {x : List Char} (h : EndsLine x) : EndsLine (expand value x) := by
  rcases h with rfl | ⟨x', rfl⟩
  · exact Or.inl rfl
  · refine Or.inr ⟨Refs.expand value x', ?_⟩
    unfold Refs.expand
    rw [tokens_separator newline_separator, List.flatMap_append]
    rfl

/-- Without references there is nothing to replace. -/
theorem expand_of_names_nil {t : List Char} (h : names t = []) : expand value t = t := by
  induction t using token_induction with
  | nil => rfl
  | char c rest hc ih =>
      rw [expand_char value hc, ih]
      rwa [names, tokens_char hc] at h
  | ref name rest hn ih =>
      rw [names, tokens_ref hn] at h
      exact absurd h (by simp)

end

/-! ## Keeping the references -/

/-- The replacement that keeps a reference and writes `w` of its name after
it. -/
def suffixed (w : List Char → List Char) (name : List Char) : List Char := refText name ++ w name

theorem expand_suffixed_nil (t : List Char) : expand (suffixed fun _ => []) t = t := by
  induction t using token_induction with
  | nil => rfl
  | char c rest hc ih => rw [expand_char _ hc, ih]
  | ref name rest hn ih => rw [expand_ref _ hn, ih, suffixed, List.append_nil]

section

variable (w : List Char → List Char)

/-- What is written after references does not turn up in front of them: a
piece of text without a dollar sign begins the one text if it begins the
other. -/
theorem prefix_expand_suffixed {p : List Char} (hp : '$' ∉ p) (t : List Char) :
    p <+: expand (suffixed w) t ↔ p <+: t := by
  induction p generalizing t with
  | nil => simp
  | cons d p ih =>
      have hd : d ≠ '$' := fun hd => hp (by simp [hd])
      cases t using token_induction with
      | nil => simp
      | char c rest hc =>
          rw [expand_char _ hc, List.cons_prefix_cons, List.cons_prefix_cons,
            ih (fun hm => hp (by simp [hm]))]
      | ref name rest hn =>
          rw [expand_ref _ hn]
          show d :: p <+: '$' :: _ ↔ d :: p <+: '$' :: _
          rw [List.cons_prefix_cons, List.cons_prefix_cons]
          exact ⟨fun h => absurd h.1 hd, fun h => absurd h.1 hd⟩

/-- A text begins with a reference exactly if it did before. -/
theorem refName_expand_suffixed {c : Char} {rest : List Char} (h : refName (c :: rest) = none) :
    refName (c :: expand (suffixed w) rest) = none := by
  cases hname : refName (c :: expand (suffixed w) rest) with
  | none => rfl
  | some name =>
      obtain ⟨hn, tail, heq⟩ := eq_of_refName hname
      obtain ⟨rfl, hrest⟩ := List.cons.inj heq
      have hplain : '$' ∉ '{' :: (name ++ ['}']) := by
        intro hm
        simp only [List.mem_cons, List.mem_append, List.not_mem_nil, or_false] at hm
        rcases hm with hm | hm | hm
        · exact absurd hm (by decide)
        · exact absurd (nameChar_of_isName hn hm) (by decide)
        · exact absurd hm (by decide)
      obtain ⟨tail', htail⟩ :=
        (prefix_expand_suffixed w hplain rest).1 ⟨tail, hrest.symm⟩
      have hself := refName_refText hn tail'
      have heq' : refText name ++ tail' = '$' :: rest := by
        rw [← htail]
        rfl
      rw [heq', h] at hself
      exact absurd hself (by simp)

theorem expand_suffixed_injective : Function.Injective (expand (suffixed w)) := by
  intro s
  induction s using token_induction with
  | nil =>
      intro t h
      cases t using token_induction with
      | nil => rfl
      | char c rest hc => rw [expand_char _ hc] at h; exact absurd h (by simp)
      | ref name rest hn =>
          rw [expand_ref _ hn] at h
          exact absurd h (by simp [suffixed, refText])
  | char c rest hc ih =>
      intro t h
      rw [expand_char _ hc] at h
      cases t using token_induction with
      | nil => exact absurd h (by simp)
      | char d tail hd =>
          rw [expand_char _ hd] at h
          obtain ⟨rfl, hrest⟩ := List.cons.inj h
          rw [ih hrest]
      | ref name tail hn =>
          -- The left text would begin with the reference too.
          have hself := refName_expand_suffixed w hc
          rw [h, expand_ref _ hn, suffixed, List.append_assoc, refName_refText hn] at hself
          exact absurd hself (by simp)
  | ref name rest hn ih =>
      intro t h
      rw [expand_ref _ hn, suffixed, List.append_assoc] at h
      cases t using token_induction with
      | nil => exact absurd h (by simp [refText])
      | char d tail hd =>
          have hself := refName_expand_suffixed w hd
          rw [← expand_char (suffixed w) hd, ← h, refName_refText hn] at hself
          exact absurd hself (by simp)
      | ref name' tail hn' =>
          rw [expand_ref _ hn', suffixed, List.append_assoc] at h
          have hname := refName_refText hn (w name ++ expand (suffixed w) rest)
          rw [h, refName_refText hn'] at hname
          obtain rfl := Option.some.inj hname
          have hrest := List.append_cancel_left (List.append_cancel_left h)
          rw [ih hrest]

theorem length_le_expand_suffixed (t : List Char) :
    t.length ≤ (expand (suffixed w) t).length := by
  induction t using token_induction with
  | nil => exact Nat.le_refl _
  | char c rest hc ih =>
      rw [expand_char _ hc, List.length_cons, List.length_cons]
      omega
  | ref name rest hn ih =>
      rw [expand_ref _ hn, suffixed, List.length_append, List.length_append, List.length_append]
      omega

/-- If something is written after every name, a text that stays the same has
no reference. -/
theorem names_nil_of_expand_suffixed {t : List Char} (hw : ∀ name, w name ≠ [])
    (h : expand (suffixed w) t = t) : names t = [] := by
  induction t using token_induction with
  | nil => rfl
  | char c rest hc ih =>
      rw [expand_char _ hc] at h
      rw [names, tokens_char hc]
      exact ih (List.cons.inj h).2
  | ref name rest hn ih =>
      have hlen := congrArg List.length h
      have hpos : 0 < (w name).length := List.length_pos_of_ne_nil (hw name)
      have hle := length_le_expand_suffixed w rest
      rw [expand_ref _ hn] at hlen
      simp only [suffixed, List.length_append] at hlen
      omega

end

end Lib.Refs
