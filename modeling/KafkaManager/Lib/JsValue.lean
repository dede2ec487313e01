import KafkaManager.Lib.JsNumber
import KafkaManager.Lib.JsString
import Mathlib.Data.List.Nodup

/-!
# `JSON.parse` and `JSON.stringify`

`JSON.parse` reads a tree and makes values of it: numbers are rounded, of the
fields of an object that have the same name the last one counts. What
`JSON.stringify` writes is the tree of a value: the properties of an object
stand in the order of its own keys, which is not the one of their creation if
there are array indices, and a number that is not finite is written as null.

For values without such numbers and keys the second is undone by the first.
-/

namespace Lib

inductive JsValue
  | null
  | bool (b : Bool)
  | num (n : JsNumber)
  | str (s : JsString)
  | arr (items : List JsValue)
  | obj (properties : List (JsString × JsValue))

namespace JsValue

section

variable {α : Type}

/-- `CreateDataProperty`. A property that is there keeps its place. -/
def createProperty (properties : List (JsString × α)) (p : JsString × α) :
    List (JsString × α) :=
  if p.1 ∈ properties.map Prod.fst then
    properties.map fun q => if q.1 = p.1 then p else q
  else properties ++ [p]

def createProperties (fields : List (JsString × α)) : List (JsString × α) :=
  fields.foldl createProperty []

/-- The number a key is if it is an array index. -/
def arrayIndex (key : JsString) : Option Nat :=
  (parseDigits (key.map fun u => Char.ofNat u.toNat)).filter fun n =>
    n < 2 ^ 32 - 1 && JsString.ofText (Nat.toDigits 10 n) == key

/-- `OrdinaryOwnPropertyKeys`: array indices by their number, then the others by
their age. -/
def ownOrder (properties : List (JsString × α)) : List (JsString × α) :=
  (properties.filter fun p => (arrayIndex p.1).isSome).mergeSort
      (fun p q => (arrayIndex p.1).getD 0 ≤ (arrayIndex q.1).getD 0) ++
    properties.filter fun p => (arrayIndex p.1).isNone

end

mutual

def ofTree : JsonTree JsString → JsValue
  | .null => null
  | .bool b => bool b
  | .num n => num (.ofRat n.value)
  | .str s => str s
  | .arr items => arr (ofItems items)
  | .obj fields => obj (createProperties (ofFields fields))

def ofItems : List (JsonTree JsString) → List JsValue
  | [] => []
  | t :: rest => ofTree t :: ofItems rest

def ofFields : List (JsString × JsonTree JsString) → List (JsString × JsValue)
  | [] => []
  | (key, t) :: rest => (key, ofTree t) :: ofFields rest

end

/-- `JSON.parse`; `none` is the `SyntaxError`. -/
def parse (text : List Char) : Option JsValue := (JsonTree.read JsString.form text).map ofTree

section

variable (T : NumberText)

def numberTree : JsNumber → JsonTree JsString
  | .finite x => .num (T.numeral x)
  | .nan | .infinite _ => .null

mutual

def toTree : JsValue → JsonTree JsString
  | null => .null
  | bool b => .bool b
  | num n => numberTree T n
  | str s => .str s
  | arr items => .arr (toItems items)
  | obj properties => .obj (ownOrder (toFields properties))

def toItems : List JsValue → List (JsonTree JsString)
  | [] => []
  | v :: rest => toTree v :: toItems rest

def toFields : List (JsString × JsValue) → List (JsString × JsonTree JsString)
  | [] => []
  | (key, v) :: rest => (key, toTree v) :: toFields rest

end

/-- `JSON.stringify` -/
def stringify (L : Layout) (v : JsValue) : List Char := (toTree T v).write JsString.form L 0

end

/-! ## What is written and read again -/

section

variable {α : Type}

theorem createProperties_append {done fields : List (JsString × α)}
    (h : ((done ++ fields).map Prod.fst).Nodup) :
    fields.foldl createProperty done = done ++ fields := by
  induction fields generalizing done with
  | nil => simp
  | cons p fields ih =>
      have hnew : p.1 ∉ done.map Prod.fst := by
        rw [List.map_append, List.map_cons] at h
        exact fun hmem => (List.nodup_append.1 h).2.2 _ hmem _ List.mem_cons_self rfl
      rw [List.foldl_cons, createProperty, if_neg hnew, ih (by simpa using h), List.append_assoc]
      rfl

/-- Fields with different names are the properties. -/
theorem createProperties_nodup {fields : List (JsString × α)} (h : (fields.map Prod.fst).Nodup) :
    createProperties fields = fields :=
  createProperties_append (by simpa using h)

theorem ownOrder_plain {properties : List (JsString × α)}
    (h : ∀ p ∈ properties, arrayIndex p.1 = none) : ownOrder properties = properties := by
  have hindices : properties.filter (fun p => (arrayIndex p.1).isSome) = [] := by
    rw [List.filter_eq_nil_iff]
    intro p hp
    simp [h p hp]
  have hothers : properties.filter (fun p => (arrayIndex p.1).isNone) = properties := by
    rw [List.filter_eq_self]
    intro p hp
    simp [h p hp]
  rw [ownOrder, hindices, hothers, List.mergeSort_nil, List.nil_append]

end

mutual

/-- Every number is finite, no key of an object repeats or is an array index. -/
def Regular : JsValue → Prop
  | null | bool _ | str _ => True
  | num n => ∃ x, n = .finite x
  | arr items => RegularItems items
  | obj properties =>
      (properties.map Prod.fst).Nodup ∧ (∀ key ∈ properties.map Prod.fst, arrayIndex key = none) ∧
        RegularFields properties

def RegularItems : List JsValue → Prop
  | [] => True
  | v :: rest => v.Regular ∧ RegularItems rest

def RegularFields : List (JsString × JsValue) → Prop
  | [] => True
  | (_, v) :: rest => v.Regular ∧ RegularFields rest

end

section

variable (T : NumberText)

theorem toFields_keys (properties : List (JsString × JsValue)) :
    (toFields T properties).map Prod.fst = properties.map Prod.fst := by
  induction properties with
  | nil => rfl
  | cons p rest ih => rw [toFields, List.map_cons, List.map_cons, ih]

mutual

theorem ofTree_toTree : (v : JsValue) → v.Regular → ofTree (toTree T v) = v
  | null, _ => rfl
  | bool _, _ => rfl
  | num n, h => by
      obtain ⟨x, rfl⟩ := h
      rw [toTree, numberTree, ofTree, JsNumber.ofRat, T.numeral_rounds, Option.elim_some]
  | str _, _ => rfl
  | arr items, h => by rw [toTree, ofTree, ofItems_toItems items h]
  | obj properties, h => by
      obtain ⟨hnodup, hplain, hfields⟩ := h
      have horder : ownOrder (toFields T properties) = toFields T properties := by
        refine ownOrder_plain fun p hp => hplain _ ?_
        rw [← toFields_keys T]
        exact List.mem_map_of_mem hp
      rw [toTree, horder, ofTree, ofFields_toFields properties hfields,
        createProperties_nodup hnodup]

theorem ofItems_toItems : (items : List JsValue) → RegularItems items →
    ofItems (toItems T items) = items
  | [], _ => rfl
  | v :: rest, h => by
      rw [toItems, ofItems, ofTree_toTree v h.1, ofItems_toItems rest h.2]

theorem ofFields_toFields : (properties : List (JsString × JsValue)) →
    RegularFields properties → ofFields (toFields T properties) = properties
  | [], _ => rfl
  | (key, v) :: rest, h => by
      rw [toFields, ofFields, ofTree_toTree v h.1, ofFields_toFields rest h.2]

end

/-- `JSON.parse` undoes `JSON.stringify`. -/
theorem parse_stringify {v : JsValue} (L : Layout) (h : v.Regular) :
    parse (stringify T L v) = some v := by
  rw [parse, stringify, JsonTree.read_write, Option.map_some, ofTree_toTree T v h]

end

end JsValue

end Lib
