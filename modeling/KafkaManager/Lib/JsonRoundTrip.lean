import KafkaManager.Lib.JsonTree

/-!
# Reading what `Marshal` wrote

`Json` is the tree whose strings are characters, and `Json.write` writes it
without white space. So reading gives back what was written, as it does for
every tree.
-/

namespace Lib

namespace Json

/-- The strings of `encoding/json` -/
def textForm : StringForm (List Char) := ⟨readString, writeChars, readString_writeChars⟩

mutual

def toTree : Json → JsonTree (List Char)
  | null => .null
  | bool b => .bool b
  | num n => .num n
  | str s => .str s
  | arr items => .arr (toItems items)
  | obj fields => .obj (toFields fields)

def toItems : List Json → List (JsonTree (List Char))
  | [] => []
  | v :: rest => toTree v :: toItems rest

def toFields : List (List Char × Json) → List (List Char × JsonTree (List Char))
  | [] => []
  | (key, v) :: rest => (key, toTree v) :: toFields rest

end

mutual

def ofTree : JsonTree (List Char) → Json
  | .null => null
  | .bool b => bool b
  | .num n => num n
  | .str s => str s
  | .arr items => arr (ofItems items)
  | .obj fields => obj (ofFields fields)

def ofItems : List (JsonTree (List Char)) → List Json
  | [] => []
  | t :: rest => ofTree t :: ofItems rest

def ofFields : List (List Char × JsonTree (List Char)) → List (List Char × Json)
  | [] => []
  | (key, t) :: rest => (key, ofTree t) :: ofFields rest

end

mutual

theorem ofTree_toTree : (v : Json) → ofTree (toTree v) = v
  | null | bool _ | num _ | str _ => rfl
  | arr items => by rw [toTree, ofTree, ofItems_toItems]
  | obj fields => by rw [toTree, ofTree, ofFields_toFields]

theorem ofItems_toItems : (items : List Json) → ofItems (toItems items) = items
  | [] => rfl
  | v :: rest => by rw [toItems, ofItems, ofTree_toTree, ofItems_toItems]

theorem ofFields_toFields : (fields : List (List Char × Json)) → ofFields (toFields fields) = fields
  | [] => rfl
  | (key, v) :: rest => by rw [toFields, ofFields, ofTree_toTree, ofFields_toFields]

end

mutual

theorem write_toTree : (v : Json) → (depth : Nat) →
    (toTree v).write textForm .compact depth = v.write
  | null, _ | bool _, _ | num _, _ | str _, _ => rfl
  | arr items, depth => by
      rw [toTree, JsonTree.write, write, writeItems_toItems]
  | obj fields, depth => by
      rw [toTree, JsonTree.write, write, writeFields_toFields]

theorem writeItems_toItems : (items : List Json) → (depth : Nat) → (first : Bool) →
    JsonTree.writeItems textForm .compact depth first (toItems items) = writeItems first items
  | [], _, first => by cases first <;> rfl
  | v :: rest, depth, first => by
      rw [toItems, JsonTree.writeItems, writeItems, write_toTree, writeItems_toItems]
      rfl

theorem writeFields_toFields : (fields : List (List Char × Json)) → (depth : Nat) →
    (first : Bool) →
    JsonTree.writeFields textForm .compact depth first (toFields fields) = writeFields first fields
  | [], _, first => by cases first <;> rfl
  | (key, v) :: rest, depth, first => by
      rw [toFields, JsonTree.writeFields, writeFields, write_toTree, writeFields_toFields]
      rfl

end

mutual

/-- A text is read as the tree it is. -/
theorem readValue_tree : (fuel : Nat) → (s : List Char) →
    readValue fuel s = (JsonTree.readValue textForm fuel s).map (Prod.map ofTree id)
  | 0, _ => rfl
  | fuel + 1, s => by
      simp only [readValue, JsonTree.readValue]
      cases skipWhite s with
      | nil => rfl
      | cons c rest =>
          dsimp only
          by_cases hobj : (c == '{') = true
          · rw [if_pos hobj, if_pos hobj]
            cases expect '}' (skipWhite rest) with
            | some after => rfl
            | none =>
                dsimp only
                rw [readFields_tree fuel rest, Option.map_map, Option.map_map]
                rfl
          · rw [if_neg hobj, if_neg hobj]
            by_cases harr : (c == '[') = true
            · rw [if_pos harr, if_pos harr]
              cases expect ']' (skipWhite rest) with
              | some after => rfl
              | none =>
                  dsimp only
                  rw [readItems_tree fuel rest, Option.map_map, Option.map_map]
                  rfl
            · rw [if_neg harr, if_neg harr]
              simp only [apply_ite (Option.map (Prod.map ofTree id)), Option.map_map]
              rfl

theorem readItems_tree : (fuel : Nat) → (s : List Char) →
    readItems fuel s = (JsonTree.readItems textForm fuel s).map (Prod.map ofItems id)
  | 0, _ => rfl
  | fuel + 1, s => by
      simp only [readItems, JsonTree.readItems, readValue_tree fuel s]
      cases JsonTree.readValue textForm fuel s with
      | none => rfl
      | some found =>
          obtain ⟨t, after⟩ := found
          simp only [Option.map_some, Prod.map_apply, id]
          cases expect ',' (skipWhite after) with
          | none =>
              dsimp only
              rw [Option.map_map]
              rfl
          | some rest =>
              dsimp only
              rw [readItems_tree fuel rest, Option.map_map, Option.map_map]
              rfl

theorem readFields_tree : (fuel : Nat) → (s : List Char) →
    readFields fuel s = (JsonTree.readFields textForm fuel s).map (Prod.map ofFields id)
  | 0, _ => rfl
  | fuel + 1, s => by
      simp only [readFields, JsonTree.readFields, textForm]
      cases (expect '"' (skipWhite s)).bind readString with
      | none => rfl
      | some found =>
          obtain ⟨key, after⟩ := found
          dsimp only
          cases expect ':' (skipWhite after) with
          | none => rfl
          | some rest =>
              simp only [Option.bind_some, readValue_tree fuel rest, textForm]
              cases JsonTree.readValue ⟨readString, writeChars, readString_writeChars⟩ fuel rest with
              | none => rfl
              | some found =>
                  obtain ⟨t, after⟩ := found
                  simp only [Option.map_some, Prod.map_apply, id]
                  cases expect ',' (skipWhite after) with
                  | none =>
                      dsimp only
                      rw [Option.map_map]
                      rfl
                  | some rest =>
                      dsimp only
                      rw [readFields_tree fuel rest, Option.map_map, Option.map_map]
                      rfl

end

theorem readValue_write (v : Json) (fuel : Nat) (after : List Char) (hfuel : v.write.length ≤ fuel)
    (hafter : Stops after) : readValue fuel (v.write ++ after) = some (v, after) := by
  rw [← write_toTree v 0] at hfuel ⊢
  rw [readValue_tree, JsonTree.readValue_write _ _ _ _ hfuel hafter, Option.map_some,
    Prod.map_apply, ofTree_toTree]
  rfl

/-- Reading what was written gives the value back. -/
theorem parse_write (v : Json) : parse v.write = some v := by
  have hread := readValue_write v (v.write.length + 1) [] (by omega) trivial
  rw [List.append_nil] at hread
  simp only [parse, hread]
  rfl

theorem read_write {v : Json} (h : v.depth ≤ maxNestingDepth) : read v.write = some v := by
  rw [read, parse_write, Option.filter_some, if_pos (decide_eq_true h)]

end Json

end Lib
