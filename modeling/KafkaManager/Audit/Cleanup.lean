import KafkaManager.Lib.Civil
import KafkaManager.Config.Store

/-!
# Removing what is too old

`Cleanup` of `internal/audit/cleanup.go` and `Store.CleanupBackups` of
`internal/config/store.go` go through the subdirectories whose name is a date
and remove those before a cutoff. The cutoff is an instant for the one and the
beginning of a day for the other.
-/

namespace KafkaManager

open Lib

/-- An entry `os.ReadDir` lists. -/
structure DirEntry where
  name : String
  isDir : Bool
deriving DecidableEq, Repr

/-- What `Store.Load` returns instead of a configuration. -/
inductive StoreError
  | read (e : FileError)  -- read config file: %w
  | load (e : LoadError)

inductive DiskCall
  | load
  | readDir (directory : String)
  | removeAll (directory name : String)

abbrev DiskCall.Answer : DiskCall → Type
  | .load => Except StoreError Config
  | .readDir _ => Except FileError (List DirEntry)
  | .removeAll .. => Option FileError

abbrev DiskProg (α : Type) : Type := Prog DiskCall DiskCall.Answer α

abbrev DiskCall.call (c : DiskCall) : DiskProg c.Answer := Prog.call c

section

variable (z : Location)

/-- The subdirectory is of a day before the cutoff. -/
def expired (cutoff : Instant) (e : DirEntry) : Bool :=
  e.isDir &&
    match Date.parse e.name.toList with
    | none => false
    | some date => (z.midnight date.number).before cutoff

/-- The loop of both. -/
def removeExpired (directory : String) (cutoff : Instant) :
    List DirEntry → DiskProg (Option FileError)
  | [] => pure none
  | entry :: rest =>
      if expired z cutoff entry then do
        match ← DiskCall.call (.removeAll directory entry.name) with
        | some e => pure (some e)
        | none => removeExpired directory cutoff rest
      else removeExpired directory cutoff rest

/-- What both do with their cutoff. -/
def cleanupBefore (directory : String) (cutoff : Instant) : DiskProg (Option FileError) := do
  match ← DiskCall.call (.readDir directory) with
  | .error .notExist => pure none
  | .error e => pure (some e)
  | .ok entries => removeExpired z directory cutoff entries

/-- `audit.Cleanup` -/
def cleanup (directory : String) (retentionDays : Int) (now : Instant) :
    DiskProg (Option FileError) :=
  cleanupBefore z directory (z.addDays now (-retentionDays))

/-- `Store.CleanupBackups` -/
def cleanupBackups (backupDir : String) (retentionDays : Int) (now : Instant) :
    DiskProg (Option FileError) :=
  cleanupBefore z backupDir (z.midnight (z.day (z.addDays now (-retentionDays))))

end

/-! ## On a disk -/

/-- The directories, and the configuration `Store.Load` reads. -/
structure Disk where
  dirs : String → Option (List DirEntry)
  file : Config

namespace Disk

def setDir (k : Disk) (directory : String) (entries : Option (List DirEntry)) : Disk :=
  { k with dirs := Function.update k.dirs directory entries }

def removeAll (k : Disk) (directory name : String) : Disk :=
  k.setDir directory ((k.dirs directory).map fun es => es.filter fun e => e.name != name)

/-- `os.MkdirAll` of a subdirectory. -/
def mkdirAll (k : Disk) (directory name : String) : Disk :=
  match k.dirs directory with
  | none => k.setDir directory (some [⟨name, true⟩])
  | some es =>
      if es.any fun e => e.name == name then k else k.setDir directory (some (⟨name, true⟩ :: es))

end Disk

/-- A disk on which nothing fails, with a configuration that can be read. -/
def DiskCall.exec : (c : DiskCall) → Disk → c.Answer × Disk
  | .load, k => (.ok k.file, k)
  | .readDir directory, k =>
      (match k.dirs directory with
        | none => .error .notExist
        | some es => .ok es, k)
  | .removeAll directory name, k => (none, k.removeAll directory name)

/-- What a disk is after a program. -/
def DiskProg.on {α : Type} (p : DiskProg α) (k : Disk) : α × Disk := p.exec DiskCall.exec k

end KafkaManager
