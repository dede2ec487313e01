import KafkaManager.Lib.GoText
import KafkaManager.Lib.Url

/-!
# The query of a URL (`url.ParseQuery`)

A query is a list of pairs with an ampersand between them. A pair that cannot be
read is left out, and nobody is told. So what a program gets for a name is what
is written under it only if that can be read (`getQuery_written`).
-/

namespace Lib

/-- `url.QueryUnescape` -/
def queryUnescape (s : List Char) : Option String :=
  (unescape (s.map fun c => if c = '+' then ' ' else c)).map fun bytes => String.ofList (runes bytes)

/-- The pairs of a query, in order. -/
def queryPairs (raw : List Char) : List (List Char) :=
  (raw.splitOn '&').filter fun pair => !pair.isEmpty

def pairKey (pair : List Char) : Option String := queryUnescape (pair.takeWhile (· != '='))

def pairValue (pair : List Char) : Option String :=
  queryUnescape ((pair.dropWhile (· != '=')).drop 1)

/-- A pair with a semicolon in it is not read either. -/
def readPair (pair : List Char) : Option (String × String) :=
  if pair.contains ';' then none
  else (pairKey pair).bind fun key => (pairValue pair).map fun value => (key, value)

/-- `url.ParseQuery`, the values of all names in one list. -/
def parseQuery (raw : List Char) : List (String × String) := (queryPairs raw).filterMap readPair

/-- `Values.Get`: the first value, or nothing. -/
def getQuery (raw : List Char) (name : String) : String :=
  (((parseQuery raw).find? fun pair => pair.1 == name).map Prod.snd).getD ""

/-- What is first written under a name, if it can be read. -/
def written (raw : List Char) (name : String) : Option (Option String) :=
  ((queryPairs raw).find? fun pair => pairKey pair == some name).map fun pair =>
    (readPair pair).map Prod.snd

theorem readPair_key {pair : List Char} {key value : String} (h : readPair pair = some (key, value)) :
    pairKey pair = some key := by
  unfold readPair at h
  split at h
  · cases h
  · obtain ⟨key', hkey, h⟩ := Option.bind_eq_some_iff.1 h
    obtain ⟨value', -, heq⟩ := Option.map_eq_some_iff.1 h
    rw [hkey, (Prod.mk.inj heq).1]

/-- The pairs that are left out are not those of another name. -/
theorem find_readPair {pairs : List (List Char)} {name : String} {pair : List Char}
    {key value : String} (hfind : (pairs.find? fun pair => pairKey pair == some name) = some pair)
    (hread : readPair pair = some (key, value)) :
    ((pairs.filterMap readPair).find? fun pair => pair.1 == name) = some (name, value) := by
  induction pairs with
  | nil => cases hfind
  | cons first rest ih =>
      rw [List.find?_cons] at hfind
      split at hfind
      · next hkey =>
          obtain rfl := Option.some.inj hfind
          rw [beq_iff_eq, readPair_key hread] at hkey
          obtain rfl := Option.some.inj hkey
          rw [List.filterMap_cons_some hread, List.find?_cons_of_pos (by simp)]
      · next hkey =>
          cases hfirst : readPair first with
          | none =>
              rw [List.filterMap_cons_none hfirst]
              exact ih hfind
          | some kv =>
              obtain ⟨k, v⟩ := kv
              have hne : k ≠ name := by
                rw [readPair_key hfirst] at hkey
                simpa using hkey
              rw [List.filterMap_cons_some hfirst, List.find?_cons_of_neg (by simpa using hne)]
              exact ih hfind

/-- What is written under a name is what the program gets. -/
theorem getQuery_written {raw : List Char} {name value : String}
    (h : written raw name = some (some value)) : getQuery raw name = value := by
  obtain ⟨pair, hfind, hread⟩ := Option.map_eq_some_iff.1 h
  obtain ⟨⟨key, value'⟩, hpair, rfl⟩ := Option.map_eq_some_iff.1 hread
  rw [getQuery, parseQuery, find_readPair hfind hpair]
  rfl

end Lib
