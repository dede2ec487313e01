import KafkaManager.Kafka.Client
import KafkaManager.Lib.GoInt
import KafkaManager.Lib.GoText
import KafkaManager.Lib.Sort

/-!
# The list of topics (`Service.List` in `internal/kafka/topic/service.go`)

The topics whose name contains the search, sorted by name, and of them one page.
The page is cut out with `int`s of 64 bits, and a slice expression out of range
panics.

How a letter is lowered is a parameter, and so is the sort.
-/

namespace KafkaManager

open Lib

structure Topic.Partition where
  id : Int
  leader : Int
  replicas : List Int
  isr : List Int
  offlineReplicas : List Int
deriving DecidableEq, Repr

structure Topic where
  name : String
  internal : Bool
  partitionCount : Int
  replicationFactor : Int
  underReplicated : Int
  partitions : List Topic.Partition
deriving DecidableEq, Repr

namespace Topic

/-- `filtered[i].Name < filtered[j].Name` -/
def nameLess (a b : Topic) : Bool := decide (a.name < b.name)

/-- What `Service.List` comes to. -/
inductive Listing
  | failed (e : Kafka.Error)
  | panicked
  | listed (items : List Topic) (total : Nat)

/-- `xs[start:stop]`, if that is in range. -/
def slice {α : Type} (xs : List α) (start stop : Int) : Option (List α) :=
  if 0 ≤ start ∧ start ≤ stop ∧ stop ≤ xs.length then
    some ((xs.take stop.toNat).drop start.toNat)
  else none

def clampPage (page : Int) : Int := if page < 1 then 1 else page

def clampSize (pageSize : Int) : Int :=
  let pageSize := if pageSize < 1 then 20 else pageSize
  if pageSize > 200 then 200 else pageSize

section

variable (toLower : Char → Char) (sorter : Sorter nameLess)

/-- `strings.ToLower` -/
def lower (s : String) : List Char := s.toList.map toLower

/-- The name contains the search, which has been lowered. -/
def found (search : List Char) (item : Topic) : Bool :=
  search.isEmpty || (cut search (lower toLower item.name)).isSome

/-- The sorted topics of a search. -/
def filtered (search : String) (items : List Topic) : List Topic :=
  sorter.sort (items.filter (found toLower (lower toLower (trimSpace search))))

/-- `Service.List` -/
def list (items : Except Kafka.Error (List Topic)) (search : String) (page pageSize : Int) :
    Listing :=
  match items with
  | .error e => .failed e
  | .ok items =>
      let filtered := filtered toLower sorter search items
      let total := filtered.length
      let page := clampPage page
      let pageSize := clampSize pageSize
      let start := wrap64 (wrap64 (page - 1) * pageSize)
      if start ≥ total then .listed [] total
      else
        let stop := wrap64 (start + pageSize)
        let stop := if stop > total then (total : Int) else stop
        match slice filtered start stop with
        | none => .panicked
        | some items => .listed items total

end

end Topic

end KafkaManager
