import KafkaManager.Lib.Json

/-!
# Structures as objects

A structure is written and read by a table of its fields, as `encoding/json`
does by their tags: each has a name, a way to read it off the structure and to
put it there, and says which value is left out. Reading takes a structure and
changes the fields that are in the text; a name that is in no table is an error,
as with `DisallowUnknownFields`.

`decode_encode` is the round trip: if the fields do not touch each other, what
was written is read back, each field into a structure that is still zero there.
`decodeStruct_depth`: nothing is read into a structure that is nested deeper
than the structure, so that a reader's limit on nesting makes no difference.
-/

namespace Lib

structure JsonField (σ : Type) where
  name : List Char
  Value : Type
  get : σ → Value
  put : Value → σ → σ
  /-- With `omitempty`, the value is not written. -/
  omits : Value → Bool
  write : Value → Json
  /-- What a text makes of the value that is there. -/
  read : Value → Json → Option Value

namespace JsonField

variable {σ τ : Type}

/-! ## The types of fields -/

def text (name : String) (get : σ → String) (put : String → σ → σ) : JsonField σ where
  name := name.toList
  Value := String
  get
  put
  omits _ := false
  write s := .str s.toList
  read old v := (Json.setString old.toList v).map String.ofList

/-- A string with `omitempty`. -/
def optionalText (name : String) (get : σ → String) (put : String → σ → σ) : JsonField σ :=
  { text name get put with omits := fun s : String => s == "" }

def int (name : String) (get : σ → Int) (put : Int → σ → σ) : JsonField σ where
  name := name.toList
  Value := Int
  get
  put
  omits _ := false
  write n := .num (.ofInt n)
  read old v := Json.setInt old v

/-- A boolean with `omitempty`. -/
def optionalBool (name : String) (get : σ → Bool) (put : Bool → σ → σ) : JsonField σ where
  name := name.toList
  Value := Bool
  get
  put
  omits b := !b
  write b := .bool b
  read old
    | .bool b => some b
    | .null => some old
    | _ => none

/-- A pointer to a boolean, with `omitempty`. -/
def boolPointer (name : String) (get : σ → Option Bool) (put : Option Bool → σ → σ) :
    JsonField σ where
  name := name.toList
  Value := Option Bool
  get
  put
  omits b := b.isNone
  write b := match b with
    | some b => .bool b
    | none => .null
  read _
    | .bool b => some (some b)
    | .null => some none
    | _ => none

/-- An item that is `null` leaves the zero of its type. -/
def texts (name : String) (get : σ → List String) (put : List String → σ → σ) : JsonField σ where
  name := name.toList
  Value := List String
  get
  put
  omits _ := false
  write l := .arr (l.map fun s => .str s.toList)
  read _
    | .arr items => items.mapM fun v => (Json.setString [] v).map String.ofList
    | .null => some []
    | _ => none

end JsonField

/-! ## Structures -/

section

variable {σ τ : Type}

/-- The field of a name is read, and put in its place. -/
def decodeField (fields : List (JsonField σ)) (key : List Char) (v : Json) (s : σ) : Option σ :=
  (fields.find? fun f => Json.names f.name key).bind fun f =>
    (f.read (f.get s) v).map fun x => f.put x s

def writtenFields (fields : List (JsonField σ)) (s : σ) : List (List Char × Json) :=
  fields.filterMap fun f =>
    if f.omits (f.get s) then none else some (f.name, f.write (f.get s))

def encodeStruct (fields : List (JsonField σ)) (s : σ) : Json := .obj (writtenFields fields s)

def decodeStruct (fields : List (JsonField σ)) (s : σ) (v : Json) : Option σ :=
  Json.decode (decodeField fields) s v

namespace JsonField

/-- A structure in a structure. -/
def struct (name : String) (get : σ → τ) (put : τ → σ → σ) (fields : List (JsonField τ)) :
    JsonField σ where
  name := name.toList
  Value := τ
  get
  put
  omits _ := false
  write := encodeStruct fields
  read := decodeStruct fields

/-- A list of structures, which is `null` without an item. -/
def structs (name : String) (get : σ → List τ) (put : List τ → σ → σ) (fields : List (JsonField τ))
    (zero : τ) : JsonField σ where
  name := name.toList
  Value := List τ
  get
  put
  omits _ := false
  write l := if l.isEmpty then .null else .arr (l.map (encodeStruct fields))
  read _
    | .arr items => items.mapM (decodeStruct fields zero)
    | .null => some []
    | _ => none

/-! ## Reading what was written -/

/-- The fields have names of their own, and to put the first leaves the second. -/
structure Independent (f g : JsonField σ) : Prop where
  names : Json.names f.name g.name = false
  get : ∀ x s, g.get (f.put x s) = g.get s

/-- The field of `s` comes back, into a structure that has its zero there. -/
structure Reads (zero s : σ) (f : JsonField σ) : Prop where
  put_get : ∀ d, f.put (f.get d) d = d
  omitted : f.omits (f.get s) = true → f.get s = f.get zero
  written : f.omits (f.get s) = false → f.read (f.get zero) (f.write (f.get s)) = some (f.get s)

end JsonField

open JsonField

variable {fields : List (JsonField σ)} {zero s : σ}

theorem find_field (hfields : fields.Pairwise Independent) {f : JsonField σ} (hf : f ∈ fields) :
    (fields.find? fun g => Json.names g.name f.name) = some f := by
  induction hfields with
  | nil => cases hf
  | @cons g rest hg _ ih =>
      rcases List.mem_cons.1 hf with rfl | hrest
      · rw [List.find?_cons_of_pos]
        simp [Json.names]
      · rw [List.find?_cons_of_neg, ih hrest]
        simp [(hg f hrest).names]

theorem writtenFields_cons {f : JsonField σ} {rest : List (JsonField σ)}
    (h : f.omits (f.get s) = false) :
    writtenFields (f :: rest) s = (f.name, f.write (f.get s)) :: writtenFields rest s := by
  simp [writtenFields, h]

theorem writtenFields_omitted {f : JsonField σ} {rest : List (JsonField σ)}
    (h : f.omits (f.get s) = true) : writtenFields (f :: rest) s = writtenFields rest s := by
  simp [writtenFields, h]

/-- The fields that are still to be read find a structure that is zero there. -/
theorem read_written {rest : List (JsonField σ)} (hrest : rest.Pairwise Independent)
    (hfind : ∀ f ∈ rest, (fields.find? fun g => Json.names g.name f.name) = some f)
    (hreads : ∀ f ∈ rest, f.Reads zero s) {d : σ} (hzero : ∀ f ∈ rest, f.get d = f.get zero) :
    (writtenFields rest s).foldlM (fun d field => decodeField fields field.1 field.2 d) d =
      some (rest.foldl (fun d f => f.put (f.get s) d) d) := by
  induction hrest generalizing d with
  | nil => rfl
  | @cons f rest hf _ ih =>
      have hread := hreads f (List.mem_cons_self ..)
      have hd := hzero f (List.mem_cons_self ..)
      have hnext : ∀ x, (writtenFields rest s).foldlM
          (fun d field => decodeField fields field.1 field.2 d) (f.put x d) =
            some (rest.foldl (fun d f => f.put (f.get s) d) (f.put x d)) := fun x =>
        ih (fun g hg => hfind g (List.mem_cons_of_mem _ hg))
          (fun g hg => hreads g (List.mem_cons_of_mem _ hg))
          (fun g hg => ((hf g hg).get x d).trans (hzero g (List.mem_cons_of_mem _ hg)))
      cases homits : f.omits (f.get s) with
      | true =>
          have hsame : f.put (f.get s) d = d := by
            rw [hread.omitted homits, ← hd]
            exact hread.put_get d
          rw [writtenFields_omitted homits, List.foldl_cons, hsame]
          simpa only [hsame] using hnext (f.get s)
      | false =>
          have hput : decodeField fields f.name (f.write (f.get s)) d = some (f.put (f.get s) d) := by
            rw [decodeField, hfind f (List.mem_cons_self ..), Option.bind_some, hd,
              hread.written homits]
            rfl
          rw [writtenFields_cons homits, List.foldlM_cons, hput]
          exact hnext (f.get s)

/-- What was written of a structure is read back, field by field. -/
theorem decode_encode (hfields : fields.Pairwise Independent)
    (hreads : ∀ f ∈ fields, f.Reads zero s) :
    decodeStruct fields zero (encodeStruct fields s) =
      some (fields.foldl (fun d f => f.put (f.get s) d) zero) :=
  read_written hfields (fun _ hf => find_field hfields hf) hreads fun _ _ => rfl

end

namespace JsonField

variable {σ τ : Type} {zero s : σ} {name : String}

theorem text_reads {get : σ → String} {put : String → σ → σ} (hput : ∀ d, put (get d) d = d) :
    (text name get put).Reads zero s where
  put_get := hput
  omitted := fun h => by cases h
  written := fun _ => by simp [text, Json.setString]

theorem optionalText_reads {get : σ → String} {put : String → σ → σ}
    (hput : ∀ d, put (get d) d = d) (hzero : get zero = "") :
    (optionalText name get put).Reads zero s where
  put_get := hput
  omitted := fun h => (beq_iff_eq.1 h).trans hzero.symm
  written := fun _ => by simp [optionalText, text, Json.setString]

theorem int_reads {get : σ → Int} {put : Int → σ → σ} (hput : ∀ d, put (get d) d = d)
    (hfits : fits64 (get s) = true) : (int name get put).Reads zero s where
  put_get := hput
  omitted := fun h => by cases h
  written := fun _ => parseInt_formatInt hfits

theorem optionalBool_reads {get : σ → Bool} {put : Bool → σ → σ} (hput : ∀ d, put (get d) d = d)
    (hzero : get zero = false) : (optionalBool name get put).Reads zero s where
  put_get := hput
  omitted := fun h => by
    have hs : get s = false := (Bool.not_eq_true' (get s)).mp h
    exact hs.trans hzero.symm
  written := fun _ => rfl

theorem boolPointer_reads {get : σ → Option Bool} {put : Option Bool → σ → σ}
    (hput : ∀ d, put (get d) d = d) (hzero : get zero = none) :
    (boolPointer name get put).Reads zero s where
  put_get := hput
  omitted := fun h => (Option.isNone_iff_eq_none.1 h).trans hzero.symm
  written := fun h => by
    cases hs : get s with
    | none => simp [boolPointer, hs] at h
    | some b => simp [boolPointer, hs]

theorem texts_reads {get : σ → List String} {put : List String → σ → σ}
    (hput : ∀ d, put (get d) d = d) : (texts name get put).Reads zero s where
  put_get := hput
  omitted := fun h => by cases h
  written := fun _ => by
    show ((get s).map fun s => Json.str s.toList).mapM (fun v =>
      (Json.setString [] v).map String.ofList) = some (get s)
    induction get s with
    | nil => rfl
    | cons x l ih =>
        rw [List.map_cons, List.mapM_cons, ih]
        simp [Json.setString]

theorem struct_reads {get : σ → τ} {put : τ → σ → σ} {fields : List (JsonField τ)}
    (hput : ∀ d, put (get d) d = d)
    (hread : decodeStruct fields (get zero) (encodeStruct fields (get s)) = some (get s)) :
    (struct name get put fields).Reads zero s where
  put_get := hput
  omitted := fun h => by cases h
  written := fun _ => hread

theorem structs_reads {get : σ → List τ} {put : List τ → σ → σ} {fields : List (JsonField τ)}
    {item : τ} (hput : ∀ d, put (get d) d = d)
    (hread : ∀ x ∈ get s, decodeStruct fields item (encodeStruct fields x) = some x) :
    (structs name get put fields item).Reads zero s where
  put_get := hput
  omitted := fun h => by cases h
  written := fun _ => by
    have hall : ∀ l : List τ, (∀ x ∈ l, decodeStruct fields item (encodeStruct fields x) = some x) →
        (l.map (encodeStruct fields)).mapM (decodeStruct fields item) = some l := by
      intro l hl
      induction l with
      | nil => rfl
      | cons x l ih =>
          rw [List.map_cons, List.mapM_cons, hl x (List.mem_cons_self ..),
            ih fun y hy => hl y (List.mem_cons_of_mem _ hy)]
          rfl
    cases hs : get s with
    | nil => simp [structs, hs]
    | cons x l =>
        rw [hs] at hread
        simpa [structs, hs] using hall (x :: l) hread

end JsonField

/-! ## Nesting -/

namespace Json

theorem setString_depth {old s : List Char} {v : Json} (h : setString old v = some s) :
    v.depth = 0 := by
  cases v with
  | str | null => rfl
  | _ => cases h

theorem setInt_depth {old n : Int} {v : Json} (h : setInt old v = some n) : v.depth = 0 := by
  cases v with
  | num | null => rfl
  | _ => cases h

/-- Items that are all read are nested no deeper than what is read. -/
theorem mapM_depth {α : Type} {read : Json → Option α} {n : Nat}
    (hread : ∀ v x, read v = some x → v.depth ≤ n) {items : List Json} {xs : List α}
    (h : items.mapM read = some xs) : (arr items).depth ≤ n + 1 := by
  rw [depth_arr]
  induction items generalizing xs with
  | nil => exact fun v hv => absurd hv List.not_mem_nil
  | cons item rest ih =>
      rw [List.mapM_cons] at h
      obtain ⟨x, hx, h⟩ := Option.bind_eq_some_iff.1 h
      obtain ⟨ys, hys, -⟩ := Option.bind_eq_some_iff.1 h
      exact List.forall_mem_cons.2 ⟨hread item x hx, ih hys⟩

/-- And so are members that are read one after the other. -/
theorem foldlM_depth {α : Type} {read : α → List Char × Json → Option α} {n : Nat}
    (hread : ∀ s p x, read s p = some x → p.2.depth ≤ n) {members : List (List Char × Json)}
    {s x : α} (h : members.foldlM read s = some x) : (obj members).depth ≤ n + 1 := by
  rw [depth_obj]
  induction members generalizing s with
  | nil => exact fun p hp => absurd hp List.not_mem_nil
  | cons p rest ih =>
      rw [List.foldlM_cons] at h
      obtain ⟨s', hs', h⟩ := Option.bind_eq_some_iff.1 h
      exact List.forall_mem_cons.2 ⟨hread s p s' hs', ih h⟩

end Json

section

variable {σ τ : Type}

/-- What the field takes is nested no deeper. -/
def JsonField.Shallow (n : Nat) (f : JsonField σ) : Prop :=
  ∀ old v x, f.read old v = some x → v.depth ≤ n

theorem decodeStruct_depth {fields : List (JsonField σ)} {n : Nat} (hfields : ∀ f ∈ fields, f.Shallow n) {v : Json} {s x : σ}
    (h : decodeStruct fields s v = some x) : v.depth ≤ n + 1 := by
  cases v with
  | null => exact Nat.zero_le _
  | obj members =>
      have hfold : members.foldlM (fun s p => decodeField fields p.1 p.2 s) s = some x := h
      refine Json.foldlM_depth (fun s p x hp => ?_) hfold
      obtain ⟨f, hf, hread⟩ := Option.bind_eq_some_iff.1 hp
      obtain ⟨y, hy, -⟩ := Option.map_eq_some_iff.1 hread
      exact hfields f (List.mem_of_find?_eq_some hf) _ _ y hy
  | _ => cases h

namespace JsonField

variable {name : String}

theorem Shallow.mono {n m : Nat} {f : JsonField σ} (h : f.Shallow n) (hnm : n ≤ m) :
    f.Shallow m := fun old v x hread => Nat.le_trans (h old v x hread) hnm

theorem text_shallow (n : Nat) {get : σ → String} {put : String → σ → σ} :
    (text name get put).Shallow n := by
  intro old v x h
  obtain ⟨s, hs, -⟩ := Option.map_eq_some_iff.1 h
  rw [Json.setString_depth hs]
  exact Nat.zero_le n

theorem optionalText_shallow (n : Nat) {get : σ → String} {put : String → σ → σ} :
    (optionalText name get put).Shallow n := by
  have h : (text name get put).Shallow n := text_shallow n
  exact h

theorem int_shallow (n : Nat) {get : σ → Int} {put : Int → σ → σ} :
    (int name get put).Shallow n := by
  intro old v x h
  rw [Json.setInt_depth h]
  exact Nat.zero_le n

theorem optionalBool_shallow (n : Nat) {get : σ → Bool} {put : Bool → σ → σ} :
    (optionalBool name get put).Shallow n := by
  intro old v x h
  cases v with
  | bool | null => exact Nat.zero_le n
  | _ => cases h

theorem boolPointer_shallow (n : Nat) {get : σ → Option Bool} {put : Option Bool → σ → σ} :
    (boolPointer name get put).Shallow n := by
  intro old v x h
  cases v with
  | bool | null => exact Nat.zero_le n
  | _ => cases h

theorem texts_shallow (n : Nat) {get : σ → List String} {put : List String → σ → σ} :
    (texts name get put).Shallow (n + 1) := by
  intro old v x h
  cases v with
  | arr items =>
      refine Json.mapM_depth (fun v x hv => ?_) h
      obtain ⟨s, hs, -⟩ := Option.map_eq_some_iff.1 hv
      rw [Json.setString_depth hs]
      exact Nat.zero_le n
  | null => exact Nat.zero_le _
  | _ => cases h

theorem struct_shallow {n : Nat} {get : σ → τ} {put : τ → σ → σ} {fields : List (JsonField τ)}
    (hfields : ∀ f ∈ fields, f.Shallow n) : (struct name get put fields).Shallow (n + 1) :=
  fun _ _ _ h => decodeStruct_depth hfields h

theorem structs_shallow {n : Nat} {get : σ → List τ} {put : List τ → σ → σ}
    {fields : List (JsonField τ)} {zero : τ} (hfields : ∀ f ∈ fields, f.Shallow n) :
    (structs name get put fields zero).Shallow (n + 2) := by
  intro old v x h
  cases v with
  | arr items => exact Json.mapM_depth (fun _ _ hv => decodeStruct_depth hfields hv) h
  | null => exact Nat.zero_le _
  | _ => cases h

end JsonField

end

end Lib
