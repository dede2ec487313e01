import KafkaManager.Config.Backups

/-!
# One `Save` after the other

The store holds its mutex for a whole `Save`, so a run is a sequence of them.
Besides the files there is the clock, which `Save` reads twice if there is
something to keep: once for the directory of the backup, once for its file.
-/

namespace KafkaManager

open Lib

/-- The files, and what has been read of the clock, the last reading first. -/
structure SaveWorld where
  files : FileSystem
  readings : List Clock

/-- A content that was replaced, and the two readings of the `Save` that
replaced it. -/
structure Replacement where
  content : List Char
  first : Clock
  second : Clock

section

variable (offset : Int)

/-- What the clock on the wall shows, in seconds, where it is `offset` seconds
ahead of UTC. -/
def wallClock (t : Clock) : Int := t.unix + offset

/-- `s.now().Format(layout)` -/
def showClock (layout : String) (t : Clock) : String :=
  if layout = "2006-01-02" then String.ofList (formatDay (wallClock offset t))
  else String.ofList (formatTime (wallClock offset t) t.nsec)

/-- What a call reads of the clock. A file is said to be missing only if it
is. -/
def FileCall.reads : (c : FileCall) → SaveWorld → c.Answer → List Clock → Prop
  | .now layout, w, r, readings =>
      ∃ t : Clock, (∀ u ∈ w.readings, u.before t.toInstant = true) ∧
        r = showClock offset layout t ∧ readings = t :: w.readings
  | .readFile f, w, r, readings =>
      (r = .error .notExist → w.files.content f = none) ∧ readings = w.readings
  | .mkdirAll _, w, _, readings | .writeFile .., w, _, readings | .createTemp, w, _, readings
  | .chmod _, w, _, readings | .write .., w, _, readings | .sync _, w, _, readings
  | .close _, w, _, readings | .rename .., w, _, readings | .openTruncate _, w, _, readings
  | .remove _, w, _, readings => readings = w.readings

/-- How a call may turn out. -/
def FileCall.happens (c : FileCall) (w : SaveWorld) (r : c.Answer) (w' : SaveWorld) : Prop :=
  (∃ o, c.exec o w.files = some (r, w'.files)) ∧ c.reads offset w r w'.readings

/-- The file it is kept in. -/
def Replacement.file (k : Replacement) : File :=
  .backup (String.ofList (formatDay (wallClock offset k.first)))
    (String.ofList (formatTime (wallClock offset k.second) k.second.nsec))

def Replacement.path (backupDir : List Char) (k : Replacement) : List Char :=
  backupFile backupDir (formatDay (wallClock offset k.first))
    (formatTime (wallClock offset k.second) k.second.nsec)

/-- The two readings are on different days. -/
def Replacement.Straddles (k : Replacement) : Prop :=
  wallClock offset k.first / 86400 ≠ wallClock offset k.second / 86400

/-- The day of the first reading and the time of day of the second are those of
an earlier one. -/
def Replacement.Repeats (a b : Replacement) : Prop :=
  wallClock offset a.first / 86400 = wallClock offset b.first / 86400 ∧
    wallClock offset a.second % 86400 = wallClock offset b.second % 86400 ∧
    a.second.nsec = b.second.nsec

/-- No `Save` during which midnight passes repeats an earlier one. -/
def Apart (log : List Replacement) : Prop :=
  log.Pairwise fun a b => b.Straddles offset → ¬a.Repeats offset b

end

/-- What a `Save` has replaced that was not empty, and what it read of the
clock. -/
def replaced (w w' : SaveWorld) : List Replacement :=
  match w.files.content .config, w'.readings with
  | some (c :: old), second :: first :: _ => [{ content := c :: old, first, second }]
  | _, _ => []

/-- A run of successful calls of `Save`, and what they have replaced. -/
inductive Saves (yaml : Yaml) (env : Environment) (offset : Int) :
    SaveWorld → List Replacement → SaveWorld → Prop
  | refl (w : SaveWorld) : Saves yaml env offset w [] w
  | save {w w' w'' : SaveWorld} {log : List Replacement} {data : List Char} {cfg : Config}
      (h : Saves yaml env offset w log w')
      (hsave : (save yaml env data).Runs (FileCall.happens offset) w' (.ok cfg) w'') :
      Saves yaml env offset w (log ++ replaced w' w'') w''

end KafkaManager
