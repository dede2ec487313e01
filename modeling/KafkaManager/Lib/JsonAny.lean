import KafkaManager.Lib.Json

/-!
# Values of any type

What `json.Unmarshal` makes of a value of no given type: an object is a map, in
which the last of equal keys counts and which is written in the order of its
keys. A number keeps its literal, as with `UseNumber`.
-/

namespace Lib.Json

/-- The value of a key of a map. -/
def field (key : List Char) (fields : List (List Char × Json)) : Option Json :=
  (fields.reverse.find? fun f => f.1 == key).map Prod.snd

/-- A field that comes before others of an object. -/
def insertField (key : List Char) (v : Json) : List (List Char × Json) → List (List Char × Json)
  | [] => [(key, v)]
  | (k, w) :: rest =>
      if key = k then (k, w) :: rest
      else if key < k then (key, v) :: (k, w) :: rest
      else (k, w) :: insertField key v rest

mutual

/-- The value with its objects as maps. -/
def canonical : Json → Json
  | arr items => arr (canonicalItems items)
  | obj fields => obj (canonicalFields fields)
  | null => null
  | bool b => bool b
  | num n => num n
  | str s => str s

def canonicalItems : List Json → List Json
  | [] => []
  | v :: rest => v.canonical :: canonicalItems rest

def canonicalFields : List (List Char × Json) → List (List Char × Json)
  | [] => []
  | (key, v) :: rest => insertField key v.canonical (canonicalFields rest)

end

end Lib.Json
