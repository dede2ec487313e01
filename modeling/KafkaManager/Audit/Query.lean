import KafkaManager.Audit.Writer
import KafkaManager.Lib.GoText
import KafkaManager.Lib.Sort

/-!
# Reading the audit log (`Query` in `internal/audit/query.go`)

Nothing fails on the disk while the files are read, and the path of the
directory has no characters that mean something to `filepath.Glob`.
-/

namespace KafkaManager.Audit

open Lib

structure Filter where
  fromDay : String
  toDay : String
  clusterID : String
  action : String
  result : String
  limit : Int

namespace Filter

/-- The directory is one to look into. -/
def inDays (f : Filter) (day : String) : Bool :=
  !(f.fromDay != "" && decide (day < f.fromDay) || f.toDay != "" && decide (f.toDay < day))

def accepts (f : Filter) (e : Entry) : Bool :=
  !(f.clusterID != "" && e.clusterID != f.clusterID ||
    f.action != "" && !(cut f.action.toList e.action.toList).isSome ||
    f.result != "" && e.result != f.result)

end Filter

/-- The longest token of the scanner. -/
def tokenSize : Nat := 1024 * 1024

/-- What is in a file. A line that is no record is left out. -/
def LogFile.found (f : Filter) (file : LogFile) : Option (List Entry) :=
  (scanLines tokenSize file.content).map fun lines =>
    (lines.filterMap Entry.ofLine).filter f.accepts

def newer (a b : Entry) : Bool := a.timestamp.after b.timestamp

def query (sorter : Sorter newer) (files : List LogFile) (f : Filter) : Option (List Entry) :=
  let limit := if f.limit < 1 then 100 else f.limit
  let limit := if limit > 500 then 500 else limit
  ((files.filter fun file => f.inDays file.day).mapM (LogFile.found f)).map fun items =>
    (sorter.sort items.flatten).take limit.toNat

theorem newer_total (a b : Entry) : newer a b = false ∨ newer b a = false := by
  simp only [newer, Time.after, Instant.before, Bool.or_eq_false_iff, Bool.and_eq_false_iff,
    decide_eq_false_iff_not, beq_eq_false_iff_ne]
  omega

theorem newer_trans (a b c : Entry) (hab : newer b a = false) (hbc : newer c b = false) :
    newer c a = false := by
  simp only [newer, Time.after, Instant.before, Bool.or_eq_false_iff, Bool.and_eq_false_iff,
    decide_eq_false_iff_not, beq_eq_false_iff_ne] at hab hbc ⊢
  omega

end KafkaManager.Audit
