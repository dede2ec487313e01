import KafkaManager.Lib.Threads
import KafkaManager.Config.Load

/-!
# Replacing `config.yaml` (`Store.Save` in `internal/config/store.go`)

`save` is the Go function as a program over the calls it makes to the
operating system, in its order: the old file is read and kept as a backup, the
new text is written to a temporary file beside it, and that file is renamed
over the old one. A file that Docker has mounted cannot be renamed over; then,
and only then, it is emptied and written in place.

What each call does to the files is `FileCall.exec`. The outside decides which
calls fail, and after how many characters a write does. `Save` holds the
store's mutex, so one is in progress at a time.

A `FileSystem` also remembers whether a rename was refused as busy and whether
the configuration was opened in place; nothing reads that.
-/

namespace KafkaManager

open Lib

/-- The configuration, a backup named by its day and time, and a temporary
file beside the configuration. -/
inductive File
  | config
  | backup (day time : String)
  | temp (n : Nat)
deriving DecidableEq, Repr

inductive Directory
  | config                  -- filepath.Dir(s.path)
  | backups (day : String)  -- filepath.Join(s.backupDir, day)
deriving DecidableEq, Repr

inductive FileError
  | notExist
  | busy
  | other (errno : Nat)
deriving DecidableEq, Repr

inductive FileCall
  | readFile (f : File)
  | now (layout : String)
  | mkdirAll (d : Directory)
  | writeFile (f : File) (data : List Char)
  | createTemp
  | chmod (f : File)
  | write (f : File) (data : List Char)
  | sync (f : File)
  | close (f : File)
  | rename (old new : File)
  | openTruncate (f : File)
  | remove (f : File)

/-- What a call returns. A write that fails has written some of its data. -/
abbrev FileCall.Answer : FileCall → Type
  | .readFile _ => Except FileError (List Char)
  | .now _ => String
  | .createTemp => Except FileError Nat
  | .writeFile .. | .write .. => Option (Nat × FileError)
  | .mkdirAll _ | .chmod _ | .sync _ | .close _ | .rename .. | .openTruncate _ | .remove _ =>
      Option FileError

abbrev FileProg (α : Type) : Type := Prog FileCall FileCall.Answer α

abbrev FileCall.call (c : FileCall) : FileProg c.Answer := Prog.call c

/-! ## Save -/

inductive SaveError
  | load (e : LoadError)
  | io (e : FileError)
  | backup (e : FileError)        -- backup config: %w
  | replace (e : FileError)       -- replace config: %w
  | openMounted (e : FileError)   -- open bind-mounted config: %w
  | writeMounted (e : FileError)  -- write bind-mounted config: %w
  | syncMounted (e : FileError)   -- sync bind-mounted config: %w
  | closeMounted (e : FileError)  -- close bind-mounted config: %w
deriving DecidableEq, Repr

def backupOld (old : List Char) : FileProg (Option SaveError) :=
  if old.length > 0 then do
    let day ← FileCall.call (.now "2006-01-02")
    match ← FileCall.call (.mkdirAll (.backups day)) with
    | some e => pure (some (.io e))
    | none => do
        let time ← FileCall.call (.now "150405.000000000")
        match ← FileCall.call (.writeFile (.backup day time) old) with
        | some (_, e) => pure (some (.backup e))
        | none => pure none
  else pure none

def writeTemp (tmp : File) (data : List Char) : FileProg (Option FileError) := do
  match ← FileCall.call (.chmod tmp) with
  | some e => do
      let _ ← FileCall.call (.close tmp)
      pure (some e)
  | none => do
      match ← FileCall.call (.write tmp data) with
      | some (_, e) => do
          let _ ← FileCall.call (.close tmp)
          pure (some e)
      | none => do
          match ← FileCall.call (.sync tmp) with
          | some e => do
              let _ ← FileCall.call (.close tmp)
              pure (some e)
          | none => FileCall.call (.close tmp)

/-- The fallback for a mounted file. -/
def rewriteInPlace (data : List Char) : FileProg (Option SaveError) := do
  match ← FileCall.call (.openTruncate .config) with
  | some e => pure (some (.openMounted e))
  | none => do
      match ← FileCall.call (.write .config data) with
      | some (_, e) => do
          let _ ← FileCall.call (.close .config)
          pure (some (.writeMounted e))
      | none => do
          match ← FileCall.call (.sync .config) with
          | some e => do
              let _ ← FileCall.call (.close .config)
              pure (some (.syncMounted e))
          | none => do
              match ← FileCall.call (.close .config) with
              | some e => pure (some (.closeMounted e))
              | none => pure none

def replaceConfig (tmp : File) (data : List Char) : FileProg (Option SaveError) := do
  match ← writeTemp tmp data with
  | some e => pure (some (.io e))
  | none => do
      match ← FileCall.call (.rename tmp .config) with
      | none => pure none
      | some .busy => rewriteInPlace data
      | some e => pure (some (.replace e))

/-- `Save`. The deferred removal of the temporary file comes last. -/
def save (yaml : Yaml) (env : Environment) (data : List Char) :
    FileProg (Except SaveError Config) :=
  match load yaml env data with
  | .error e => pure (.error (.load e))
  | .ok cfg => do
      match ← FileCall.call (.readFile .config) with
      | .error (.busy) => pure (.error (.io .busy))
      | .error (.other errno) => pure (.error (.io (.other errno)))
      | .error .notExist => replaceOld cfg []
      | .ok old => replaceOld cfg old
where
  replaceOld (cfg : Config) (old : List Char) : FileProg (Except SaveError Config) := do
    match ← backupOld old with
    | some e => pure (.error e)
    | none => do
        match ← FileCall.call (.mkdirAll .config) with
        | some e => pure (.error (.io e))
        | none => do
            match ← FileCall.call .createTemp with
            | .error e => pure (.error (.io e))
            | .ok n => do
                let outcome ← replaceConfig (.temp n) data
                let _ ← FileCall.call (.remove (.temp n))
                match outcome with
                | some e => pure (.error e)
                | none => pure (.ok cfg)

/-! ## The files -/

structure FileSystem where
  content : File → Option (List Char)
  refused : Bool
  truncated : Bool

def FileSystem.set (s : FileSystem) (f : File) (v : Option (List Char)) : FileSystem :=
  { s with content := Function.update s.content f v }

/-- A rename failed with `e`. -/
def FileSystem.noteRename (s : FileSystem) (e : FileError) : FileSystem :=
  { s with refused := s.refused || e == .busy }

/-- `f` was opened in place. -/
def FileSystem.noteOpen (s : FileSystem) (f : File) : FileSystem :=
  { s with truncated := s.truncated || f == .config }

/-- What a call does, given how it turned out. The data a successful read
returns is what the file holds. -/
def FileCall.exec : (c : FileCall) → c.Answer → FileSystem → Option (c.Answer × FileSystem)
  | .readFile _, .error e, s => some (.error e, s)
  | .readFile f, .ok _, s =>
      match s.content f with
      | none => some (.error .notExist, s)
      | some data => some (.ok data, s)
  | .now _, r, s => some (r, s)
  | .mkdirAll _, r, s => some (r, s)
  | .writeFile f data, none, s => some (none, s.set f (some data))
  | .writeFile f data, some (n, e), s => some (some (n, e), s.set f (some (data.take n)))
  | .createTemp, .error e, s => some (.error e, s)
  | .createTemp, .ok n, s =>
      if (s.content (.temp n)).isSome then none
      else some (.ok n, s.set (.temp n) (some []))
  | .chmod _, r, s => some (r, s)
  | .write f data, r, s =>
      match s.content f, r with
      | none, _ => none
      | some written, none => some (none, s.set f (some (written ++ data)))
      | some written, some (n, e) => some (some (n, e), s.set f (some (written ++ data.take n)))
  | .sync _, r, s => some (r, s)
  | .close _, r, s => some (r, s)
  | .rename old new, none, s =>
      match s.content old with
      | none => some (some .notExist, s)
      | some data => some (none, (s.set new (some data)).set old none)
  | .rename _ _, some e, s => some (some e, s.noteRename e)
  | .openTruncate f, none, s =>
      match s.content f with
      | none => some (some .notExist, s)
      | some _ => some (none, (s.set f (some [])).noteOpen f)
  | .openTruncate _, some e, s => some (some e, s)
  | .remove f, none, s => some (none, s.set f none)
  | .remove _, some e, s => some (some e, s)

/-- The calls of one `save` against a file system. -/
def saveMachine : Machine FileCall FileCall.Answer (Except SaveError Config) FileSystem Empty Empty
    where
  exec _ c o s := (o c).bind fun r => c.exec r s
  env e _ := e.elim
  prog r := r.elim

end KafkaManager
