import KafkaManager.Config.Store
import KafkaManager.Lib.ClockText
import KafkaManager.Lib.Filepath
import KafkaManager.Lib.Sort

/-!
# The backups of `config.yaml` (`ListBackups` and `LoadBackup` in `internal/config/store.go`)

`Save` puts the old configuration into a file that is named by the day and the
time. `ListBackups` walks the directory, and the id of a backup is the path from
there; `LoadBackup` takes any id and has to stay inside.

The program of `loadBackup` is over the one call it makes to the operating
system, which reads the file with a path. A walk that meets an error of the
operating system is not modelled: it lists nothing. On Unix `FromSlash` and
`ToSlash` change nothing.
-/

namespace KafkaManager

open Lib

/-! ## The file of a backup -/

def yamlSuffix : List Char := ['.', 'y', 'a', 'm', 'l']

/-- The path `Save` writes to, from what the clock says for the directory and
for the file. -/
def backupFile (backupDir day time : List Char) : List Char :=
  Filepath.join [Filepath.join [backupDir, day], time ++ yamlSuffix]

/-! ## LoadBackup -/

inductive LoadBackupError
  | invalidID             -- invalid backup id
  | read (e : FileError)  -- read backup: %w
  | load (e : LoadError)
deriving DecidableEq, Repr

/-- A program that reads files by their paths. -/
abbrev ReadProg (α : Type) : Type :=
  Prog (List Char) (fun _ => Except FileError (List Char)) α

/-- The path of an id that passes the checks. -/
def backupPath (backupDir id : List Char) : Option (List Char) :=
  let clean := Filepath.clean id
  if clean = Filepath.dot ∨ Filepath.isAbs clean ∨
      (Filepath.dotDot ++ ['/']).isPrefixOf clean ∨ clean = Filepath.dotDot then none
  else
    let path := Filepath.join [backupDir, clean]
    match Filepath.rel backupDir path with
    | none => none
    | some relative => if Filepath.dotDot.isPrefixOf relative then none else some path

def loadBackup (yaml : Yaml) (env : Environment) (backupDir id : List Char) :
    ReadProg (Except LoadBackupError (List Char × Config)) :=
  match backupPath backupDir id with
  | none => pure (.error .invalidID)
  | some path => do
      match ← Prog.call path with
      | .error e => pure (.error (.read e))
      | .ok data =>
          match load yaml env data with
          | .error e => pure (.error (.load e))
          | .ok cfg => pure (.ok (data, cfg))

/-! ## ListBackups -/

/-- A name in a directory. -/
structure FileName where
  text : List Char
  plain : Filepath.Plain text

/-- What is in a directory under a name. -/
inductive FileNode
  | file (modTime : Int) (size : Nat)
  | dir (entries : List (FileName × FileNode))

structure Backup where
  id : List Char
  createdAt : Int
  size : Nat
deriving DecidableEq, Repr

/-- A call of the function that `WalkDir` is given. -/
structure Visit where
  path : List Char
  name : FileName
  node : FileNode

mutual

/-- `WalkDir` -/
def walk (path : List Char) (name : FileName) : FileNode → List Visit
  | .file modTime size => [⟨path, name, .file modTime size⟩]
  | .dir entries => ⟨path, name, .dir entries⟩ :: walkEntries path entries

def walkEntries (path : List Char) : List (FileName × FileNode) → List Visit
  | [] => []
  | (name, node) :: rest =>
      walk (Filepath.join [path, name.text]) name node ++ walkEntries path rest

end

/-- What is appended for a file, or the error of `Rel`. -/
def collectBackups (backupDir : List Char) : List Visit → Option (List Backup)
  | [] => some []
  | v :: rest =>
      match v.node with
      | .dir _ => collectBackups backupDir rest
      | .file modTime size =>
          if yamlSuffix.isSuffixOf v.name.text then do
            let relative ← Filepath.rel backupDir v.path
            let backups ← collectBackups backupDir rest
            some ({ id := relative, createdAt := modTime, size } :: backups)
          else collectBackups backupDir rest

/-- The newest is first. -/
def newerBackup (a b : Backup) : Bool := a.createdAt > b.createdAt

/-- `ListBackups` of a directory, or of none. -/
def listBackups (sorter : Sorter newerBackup) (backupDir : List Char)
    (dir : Option (List (FileName × FileNode))) : Option (List Backup) :=
  match dir with
  | none => some []
  | some entries => (collectBackups backupDir (walkEntries backupDir entries)).map sorter.sort

/-! ## Restore -/

/-- The file of the model with a path, if it is a backup. -/
def backupAt (backupDir path : List Char) : Option File :=
  match Filepath.rel backupDir path with
  | none => none
  | some relative =>
      match segments '/' relative with
      | [day, name] =>
          if yamlSuffix.isSuffixOf name then
            some (.backup (String.ofList day)
              (String.ofList (name.take (name.length - yamlSuffix.length))))
          else none
      | _ => none

/-- `os.ReadFile` of a path in the directory of the backups. -/
def readBackupFile (backupDir : List Char) (files : FileSystem) (path : List Char) :
    Except FileError (List Char) :=
  match (backupAt backupDir path).bind files.content with
  | some data => .ok data
  | none => .error .notExist

inductive RestoreError
  | backup (e : LoadBackupError)
  | save (e : SaveError)
deriving DecidableEq, Repr

/-- `Restore`, the backup being read from these files. -/
def restore (yaml : Yaml) (env : Environment) (backupDir id : List Char) (files : FileSystem) :
    FileProg (Except RestoreError Config) :=
  match (loadBackup yaml env backupDir id).result (readBackupFile backupDir files) with
  | .error e => pure (.error (.backup e))
  | .ok (data, cfg) => do
      match ← save yaml env data with
      | .error e => pure (.error (.save e))
      | .ok _ => pure (.ok cfg)

end KafkaManager
