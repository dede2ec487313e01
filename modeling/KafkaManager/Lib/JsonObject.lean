import KafkaManager.Lib.JsonPost
import KafkaManager.Lib.JsonStruct

/-!
# Objects that stand for structures

A page holds the object it has read of a structure of the server, changes
properties of it and sends it back. `Shows` says of an object that it stands for
a structure: each property has the name of a field and is read as its value, and
a field without a property is zero.

What the server wrote stands for what it wrote it of (`shows_toJs`), a property
that is changed changes its field (`Shows.spread`), and an object is decoded as
what it stands for (`Shows.decode`), in whatever order its properties are.
-/

namespace Lib

namespace JsValue

/-! ## Properties -/

/-- `v.key` -/
def property (v : JsValue) (key : List Char) : Option JsValue :=
  match v with
  | .obj properties => (properties.find? (·.1 = JsString.ofText key)).map Prod.snd
  | _ => none

/-- `{ ...v, key: x }` of an object -/
def spread (v : JsValue) (key : List Char) (x : JsValue) : JsValue :=
  match v with
  | .obj properties => .obj (createProperty properties (JsString.ofText key, x))
  | _ => .obj [(JsString.ofText key, x)]

section

variable {properties : List (JsString × JsValue)} {key : JsString} {x : JsValue}

theorem createProperty_keys :
    (createProperty properties (key, x)).map Prod.fst =
      if key ∈ properties.map Prod.fst then properties.map Prod.fst
      else properties.map Prod.fst ++ [key] := by
  unfold createProperty
  split
  · next h =>
      rw [List.map_map]
      refine List.map_congr_left fun q _ => ?_
      show (if q.1 = key then (key, x) else q).1 = q.1
      split
      · next heq => exact heq.symm
      · rfl
  · rw [List.map_append]
    rfl

theorem createProperty_nodup (h : (properties.map Prod.fst).Nodup) :
    ((createProperty properties (key, x)).map Prod.fst).Nodup := by
  rw [createProperty_keys]
  split
  · exact h
  · next hnew =>
      rw [List.nodup_append]
      refine ⟨h, List.nodup_singleton _, ?_⟩
      intro a ha b hb
      rw [List.mem_singleton.1 hb]
      rintro rfl
      exact hnew ha

theorem find_created (other : JsString) :
    (createProperty properties (key, x)).find? (·.1 = other) =
      if other = key then some (key, x) else properties.find? (·.1 = other) := by
  unfold createProperty
  dsimp only
  by_cases hmem : key ∈ properties.map Prod.fst
  · have hkeys : ((fun p : JsString × JsValue => decide (p.1 = other)) ∘
        fun q => if q.1 = key then (key, x) else q) = fun q => decide (q.1 = other) := by
      funext q
      show decide ((if q.1 = key then (key, x) else q).1 = other) = decide (q.1 = other)
      split
      · next heq => rw [heq]
      · rfl
    rw [if_pos hmem, List.find?_map, hkeys]
    split
    · next heq =>
        obtain ⟨p, hp, hkey⟩ := List.mem_map.1 hmem
        cases hfind : properties.find? (·.1 = other) with
        | none =>
            have hnone := List.find?_eq_none.1 hfind p hp
            simp [hkey, heq] at hnone
        | some q =>
            have hq : q.1 = other := by simpa using List.find?_some hfind
            rw [Option.map_some, if_pos (hq.trans heq)]
    · next hne =>
        cases hfind : properties.find? (·.1 = other) with
        | none => rfl
        | some q =>
            have hq : q.1 = other := by simpa using List.find?_some hfind
            rw [Option.map_some, if_neg (hq ▸ hne)]
  · rw [if_neg hmem, List.find?_append]
    split
    · next heq =>
        have hnone : properties.find? (·.1 = other) = none := by
          rw [List.find?_eq_none]
          intro p hp
          rw [heq, decide_eq_true_eq]
          exact fun hkey => hmem (List.mem_map.2 ⟨p, hp, hkey⟩)
        rw [hnone, heq]
        simp
    · next hne =>
        rw [List.find?_cons_of_neg (by simpa using Ne.symm hne)]
        simp

end

section

variable {v x : JsValue} {key : List Char}

theorem ofText_injective {s t : List Char} (h : JsString.ofText s = JsString.ofText t) : s = t := by
  rw [← JsString.text_ofText s, h, JsString.text_ofText]

theorem property_spread {properties : List (JsString × JsValue)} (other : List Char) :
    (spread (.obj properties) key x).property other =
      if other = key then some x else property (.obj properties) other := by
  rw [spread, property, find_created]
  by_cases heq : other = key
  · rw [if_pos heq, if_pos (congrArg _ heq)]
    rfl
  · rw [if_neg heq, if_neg (fun h => heq (ofText_injective h))]
    rfl

theorem property_mem {properties : List (JsString × JsValue)}
    (h : property (.obj properties) key = some x) : (JsString.ofText key, x) ∈ properties := by
  obtain ⟨p, hp, rfl⟩ := Option.map_eq_some_iff.1 h
  have hkey : p.1 = JsString.ofText key := by simpa using List.find?_some hp
  rw [← hkey]
  exact List.mem_of_find?_eq_some hp

theorem property_eq_none {properties : List (JsString × JsValue)} :
    property (.obj properties) key = none ↔ JsString.ofText key ∉ properties.map Prod.fst := by
  rw [property, Option.map_eq_none_iff, List.find?_eq_none, List.mem_map]
  constructor
  · rintro h ⟨p, hp, hkey⟩
    exact absurd hkey (by simpa using h p hp)
  · intro h p hp
    rw [decide_eq_true_eq]
    exact fun hkey => h ⟨p, hp, hkey⟩

/-- The only property of its name. -/
theorem property_of_mem {properties : List (JsString × JsValue)}
    (hnodup : (properties.map Prod.fst).Nodup) (h : (JsString.ofText key, x) ∈ properties) :
    property (.obj properties) key = some x := by
  cases hfound : property (.obj properties) key with
  | none => exact absurd (List.mem_map_of_mem h) (property_eq_none.1 hfound)
  | some y =>
      have hsame := List.inj_on_of_nodup_map hnodup (property_mem hfound) h rfl
      rw [(Prod.mk.inj hsame).2]

end

end JsValue

section

variable {fields : List (List Char × Json)} {key : List Char}

theorem Json.keys_nodup (h : (fields.map Prod.fst).Nodup) :
    ((fields.map fun p => (JsString.ofText p.1, p.2.toJs)).map Prod.fst).Nodup := by
  have hmap := List.Nodup.map (fun _ _ heq => JsValue.ofText_injective heq) h
  rw [List.map_map] at hmap ⊢
  exact hmap

/-- What a server wrote for a key is the property of that name. -/
theorem Json.property_obj (h : (fields.map Prod.fst).Nodup) {v : Json} (hv : (key, v) ∈ fields) :
    (Json.obj fields).toJs.property key = some v.toJs := by
  rw [Json.toJs_obj h]
  exact JsValue.property_of_mem (Json.keys_nodup h) (List.mem_map.2 ⟨_, hv, rfl⟩)

theorem Json.property_obj_none (h : (fields.map Prod.fst).Nodup)
    (hkey : key ∉ fields.map Prod.fst) : (Json.obj fields).toJs.property key = none := by
  rw [Json.toJs_obj h, JsValue.property_eq_none]
  intro hmem
  obtain ⟨p, hp, heq⟩ := List.mem_map.1 hmem
  obtain ⟨q, hq, rfl⟩ := List.mem_map.1 hp
  exact hkey (List.mem_map.2 ⟨q, hq, JsValue.ofText_injective heq⟩)

end

/-! ## Tables -/

/-- The fields of a table do not touch each other and are all there is to a
structure, and their names are no array indices. -/
structure FieldTable {σ : Type} (fields : List (JsonField σ)) : Prop where
  independent : fields.Pairwise JsonField.Independent
  get_put : ∀ f ∈ fields, ∀ x s, f.get (f.put x s) = x
  get_other : ∀ f ∈ fields, ∀ g ∈ fields, f.name ≠ g.name → ∀ x s, g.get (f.put x s) = g.get s
  ext : ∀ s t, (∀ f ∈ fields, f.get s = f.get t) → s = t
  plain : ∀ f ∈ fields, JsValue.arrayIndex (JsString.ofText f.name) = none

section

variable {σ : Type} {fields : List (JsonField σ)}

/-- A field is the one of its name. -/
theorem FieldTable.eq_of_name (ht : FieldTable fields) {f g : JsonField σ} (hf : f ∈ fields)
    (hg : g ∈ fields) (h : f.name = g.name) : f = g := by
  have hfind := find_field ht.independent hf
  rw [h, find_field ht.independent hg] at hfind
  exact (Option.some.inj hfind).symm

end

/-! ## What an object stands for -/

section

variable {σ : Type} (T : NumberText) (fields : List (JsonField σ)) (zero : σ)

structure Shows (v : JsValue) (s : σ) : Prop where
  object : ∃ properties, v = .obj properties ∧ (properties.map Prod.fst).Nodup ∧
    ∀ p ∈ properties, ∃ f ∈ fields, p.1 = JsString.ofText f.name
  read : ∀ f ∈ fields, ∀ x, v.property f.name = some x →
    f.read (f.get zero) (x.posted T) = some (f.get s)
  absent : ∀ f ∈ fields, v.property f.name = none → f.get s = f.get zero

end

section

variable {σ : Type} {T : NumberText} {fields : List (JsonField σ)} {zero s : σ} {v x : JsValue}

/-- `{}` -/
theorem shows_empty : Shows T fields zero (.obj []) zero where
  object := ⟨[], rfl, List.nodup_nil, fun _ h => nomatch h⟩
  read _ _ _ h := nomatch h
  absent _ _ _ := rfl

/-- A property is changed. -/
theorem Shows.spread (ht : FieldTable fields) (h : Shows T fields zero v s) {f : JsonField σ}
    (hf : f ∈ fields) {y : f.Value} (hread : f.read (f.get zero) (x.posted T) = some y) :
    Shows T fields zero (v.spread f.name x) (f.put y s) := by
  obtain ⟨properties, rfl, hnodup, hnames⟩ := h.object
  refine ⟨⟨_, rfl, JsValue.createProperty_nodup hnodup, fun p hp => ?_⟩, fun g hg z hz => ?_,
    fun g hg hnone => ?_⟩
  · have hkey : p.1 ∈
        (JsValue.createProperty properties (JsString.ofText f.name, x)).map Prod.fst :=
      List.mem_map_of_mem hp
    rw [JsValue.createProperty_keys] at hkey
    have hcases : p.1 ∈ properties.map Prod.fst ∨ p.1 = JsString.ofText f.name := by
      split at hkey
      · exact .inl hkey
      · simpa using hkey
    rcases hcases with hold | hnew
    · obtain ⟨q, hq, heq⟩ := List.mem_map.1 hold
      rw [← heq]
      exact hnames q hq
    · exact ⟨f, hf, hnew⟩
  · rw [JsValue.property_spread] at hz
    split at hz
    · next heq =>
        obtain rfl := ht.eq_of_name hg hf heq
        rw [← Option.some.inj hz, hread, ht.get_put g hg]
    · next hne =>
        rw [ht.get_other f hf g hg (Ne.symm hne)]
        exact h.read g hg z hz
  · rw [JsValue.property_spread] at hnone
    split at hnone
    · cases hnone
    · next hne =>
        rw [ht.get_other f hf g hg (Ne.symm hne)]
        exact h.absent g hg hnone

theorem Shows.property_spread (h : Shows T fields zero v s) (key : List Char) (x : JsValue)
    (other : List Char) :
    (v.spread key x).property other = if other = key then some x else v.property other := by
  obtain ⟨properties, rfl, -⟩ := h.object
  exact JsValue.property_spread other

/-- What is still to be decoded finds zero, what was decoded is there. -/
def Half (fields : List (JsonField σ)) (zero s : σ) (rest : List (JsString × JsValue)) (d : σ) :
    Prop :=
  ∀ f ∈ fields, (JsString.ofText f.name ∈ rest.map Prod.fst → f.get d = f.get zero) ∧
    (JsString.ofText f.name ∉ rest.map Prod.fst → f.get d = f.get s)

theorem Half.decode (ht : FieldTable fields) {rest : List (JsString × JsValue)}
    (hnodup : (rest.map Prod.fst).Nodup)
    (hread : ∀ p ∈ rest, ∃ f ∈ fields, p.1 = JsString.ofText f.name ∧
      f.read (f.get zero) (p.2.posted T) = some (f.get s))
    {d : σ} (hd : Half fields zero s rest d) :
    (rest.map fun p => (p.1.text, p.2.posted T)).foldlM
      (fun d field => decodeField fields field.1 field.2 d) d = some s := by
  induction rest generalizing d with
  | nil => exact congrArg some (ht.ext d s fun f hf => (hd f hf).2 (by simp))
  | cons p rest ih =>
      obtain ⟨f, hf, hname, hvalue⟩ := hread p (.head _)
      obtain ⟨hnew, hnodup'⟩ := List.nodup_cons.1 hnodup
      have hzero : f.get d = f.get zero := (hd f hf).1 (by simp [hname])
      have hstep : decodeField fields p.1.text (p.2.posted T) d = some (f.put (f.get s) d) := by
        rw [decodeField, hname, JsString.text_ofText, find_field ht.independent hf,
          Option.bind_some, hzero, hvalue, Option.map_some]
      rw [List.map_cons, List.foldlM_cons, hstep]
      refine ih hnodup' (fun q hq => hread q (.tail _ hq)) fun g hg => ?_
      by_cases hsame : f.name = g.name
      · obtain rfl := ht.eq_of_name hf hg hsame
        refine ⟨fun hmem => absurd hmem (hname ▸ hnew), fun _ => ht.get_put f hf _ _⟩
      · have hkey : JsString.ofText g.name ≠ p.1 := by
          rw [hname]
          exact fun h => hsame (JsValue.ofText_injective h).symm
        rw [ht.get_other f hf g hg hsame]
        refine ⟨fun hmem => (hd g hg).1 (.tail _ hmem), fun hmem => (hd g hg).2 ?_⟩
        rw [List.map_cons, List.mem_cons, not_or]
        exact ⟨hkey, hmem⟩

/-- An object is decoded as what it stands for. -/
theorem Shows.decode (ht : FieldTable fields) (h : Shows T fields zero v s) :
    decodeStruct fields zero (v.posted T) = some s := by
  obtain ⟨properties, rfl, hnodup, hnames⟩ := h.object
  have hplain : ∀ p ∈ properties, JsValue.arrayIndex p.1 = none := by
    intro p hp
    obtain ⟨f, hf, hname⟩ := hnames p hp
    rw [hname]
    exact ht.plain f hf
  rw [JsValue.posted_obj hplain]
  refine Half.decode ht hnodup (fun p hp => ?_) fun f hf => ⟨fun _ => rfl, fun hmem => ?_⟩
  · obtain ⟨f, hf, hname⟩ := hnames p hp
    refine ⟨f, hf, hname, h.read f hf p.2 (JsValue.property_of_mem hnodup ?_)⟩
    rw [← hname]
    exact hp
  · exact (h.absent f hf (JsValue.property_eq_none.2 hmem)).symm

/-! ## What the server wrote -/

theorem mem_written {key : List Char} {w : Json} :
    (key, w) ∈ writtenFields fields s ↔
      ∃ f ∈ fields, f.omits (f.get s) = false ∧ key = f.name ∧ w = f.write (f.get s) := by
  simp only [writtenFields, List.mem_filterMap]
  refine exists_congr fun f => and_congr_right fun _ => ?_
  cases f.omits (f.get s) with
  | true => simp
  | false => simp [eq_comm]

theorem written_sublist (fields : List (JsonField σ)) (s : σ) :
    List.Sublist ((writtenFields fields s).map Prod.fst) (fields.map JsonField.name) := by
  induction fields with
  | nil => exact .slnil
  | cons f rest ih =>
      cases homits : f.omits (f.get s) with
      | true =>
          rw [writtenFields_omitted homits]
          exact ih.cons _
      | false =>
          rw [writtenFields_cons homits]
          exact ih.cons_cons _

theorem written_nodup (ht : FieldTable fields) (s : σ) :
    ((writtenFields fields s).map Prod.fst).Nodup := by
  have hnames : (fields.map JsonField.name).Nodup := by
    rw [List.Nodup, List.pairwise_map]
    refine ht.independent.imp fun {f g} hind hname => ?_
    have hne := hind.names
    rw [hname, Json.names, beq_self_eq_true] at hne
    cases hne
  exact List.Nodup.sublist (written_sublist fields s) hnames

theorem encodeStruct_small (ht : FieldTable fields)
    (hsmall : ∀ f ∈ fields, f.omits (f.get s) = false → (f.write (f.get s)).Small) :
    (encodeStruct fields s).Small := by
  refine ⟨written_nodup ht s, fun key hkey => ?_, Json.smallFields_iff.2 fun p hp => ?_⟩
  · obtain ⟨p, hp, rfl⟩ := List.mem_map.1 hkey
    obtain ⟨f, hf, -, hname, -⟩ := mem_written.1 hp
    rw [hname]
    exact ht.plain f hf
  · obtain ⟨f, hf, homits, -, hwrite⟩ := mem_written.1 hp
    rw [hwrite]
    exact hsmall f hf homits

/-- The property of a field that is written. -/
theorem property_toJs (ht : FieldTable fields) {f : JsonField σ} (hf : f ∈ fields)
    (homits : f.omits (f.get s) = false) :
    (encodeStruct fields s).toJs.property f.name = some (f.write (f.get s)).toJs :=
  Json.property_obj (written_nodup ht s) (mem_written.2 ⟨f, hf, homits, rfl, rfl⟩)

/-- What was written of a structure stands for it. -/
theorem shows_toJs (ht : FieldTable fields) (hreads : ∀ f ∈ fields, f.Reads zero s)
    (hsmall : ∀ f ∈ fields, f.omits (f.get s) = false → (f.write (f.get s)).Small) :
    Shows T fields zero (encodeStruct fields s).toJs s := by
  have hnodup := written_nodup ht s
  have hobject : (encodeStruct fields s).toJs =
      .obj ((writtenFields fields s).map fun p => (JsString.ofText p.1, p.2.toJs)) :=
    Json.toJs_obj hnodup
  have hkeys := Json.keys_nodup hnodup
  rw [hobject]
  refine ⟨⟨_, rfl, hkeys, fun p hp => ?_⟩, fun f hf x hx => ?_, fun f hf hnone => ?_⟩
  · obtain ⟨q, hq, rfl⟩ := List.mem_map.1 hp
    obtain ⟨f, hf, -, hname, -⟩ := mem_written.1 hq
    exact ⟨f, hf, congrArg JsString.ofText hname⟩
  · obtain ⟨q, hq, heq⟩ := List.mem_map.1 (JsValue.property_mem hx)
    obtain ⟨g, hg, homits, hname, hwrite⟩ := mem_written.1 hq
    obtain ⟨hkey, hvalue⟩ := Prod.mk.inj heq
    obtain rfl := ht.eq_of_name hf hg ((JsValue.ofText_injective hkey).symm.trans hname)
    rw [← hvalue, hwrite, Json.posted_toJs T (hsmall f hf homits), (hreads f hf).written homits]
  · refine (hreads f hf).omitted ?_
    by_contra homits
    refine JsValue.property_eq_none.1 hnone (List.mem_map.2 ⟨_, List.mem_map_of_mem
      (mem_written.2 ⟨f, hf, by simpa using homits, rfl, rfl⟩), rfl⟩)

end

end Lib
