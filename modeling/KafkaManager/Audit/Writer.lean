import KafkaManager.Audit.Entry
import KafkaManager.Lib.JsonLines

/-!
# The audit log (`Writer` in `internal/audit/writer.go`)

The directory of a day has files `audit-001.jsonl` and so on, to which one
writer after the other appends lines. A process has one writer, and a new
process begins with the first file of its day again.

A `Write` comes in two steps, with the lock held: up to the buffer, and from
there to the file. The file may take only a part of the line; the buffer keeps
that error and takes nothing any more.
-/

namespace KafkaManager.Audit

open Lib

structure WriterConfig where
  directory : String
  maxFileSizeBytes : Int
  retentionDays : Int

/-- A file `audit-%03d.jsonl` of a day. -/
structure LogFile where
  day : String
  index : Nat
  content : List UInt8
deriving DecidableEq

def LogFile.named (day : String) (index : Nat) (file : LogFile) : Bool :=
  file.day == day && file.index == index

/-- The file and the buffer before it. -/
structure OpenFile where
  day : String
  index : Nat
  failed : Bool

structure Writer where
  cfg : WriterConfig
  date : String
  index : Nat
  size : Nat
  file : Option OpenFile

/-- The calls of a `Write` that fail. -/
structure Faults where
  close : Bool
  mkdirAll : Bool
  stat : Nat → Bool
  openFile : Nat → Bool

/-- `NewWriter`. The error says that the directory is required. -/
def newWriter (cfg : WriterConfig) : Option Writer :=
  if cfg.directory = "" then none
  else
    some {
      cfg := {
        directory := cfg.directory
        maxFileSizeBytes :=
          if cfg.maxFileSizeBytes < 1 then 50 * 1024 * 1024 else cfg.maxFileSizeBytes
        retentionDays := if cfg.retentionDays < 1 then 30 else cfg.retentionDays }
      date := ""
      index := 0
      size := 0
      file := none }

/-- `O_APPEND` -/
def appendTo (day : String) (index : Nat) (data : List UInt8) : List LogFile → List LogFile
  | [] => []
  | file :: files =>
      if file.named day index then { file with content := file.content ++ data } :: files
      else file :: appendTo day index data files

/-- The size of a `bufio.Writer`. What is longer is not copied. -/
def bufferSize : Nat := 4096

namespace Writer

/-- There is nothing in the buffer, but it may have failed. -/
def closeLocked (fault : Bool) (w : Writer) : Bool × Writer :=
  match w.file with
  | none => (true, w)
  | some file => if file.failed then (false, w) else (!fault, { w with file := none })

def fits (incoming size : Nat) (w : Writer) : Bool :=
  (size : Int) + incoming ≤ w.cfg.maxFileSizeBytes

/-- The file of the index is open. -/
def opened (size : Nat) (w : Writer) : Writer :=
  { w with file := some { day := w.date, index := w.index, failed := false }, size }

/-- The loop of `ensureFile`. -/
def openNext (faults : Faults) (incoming : Nat) :
    Nat → Writer → List LogFile → Bool × Writer × List LogFile
  | 0, w, files => (false, w, files)
  | fuel + 1, w, files =>
      let w := { w with index := w.index + 1 }
      if faults.stat w.index then (false, w, files)
      else
        match files.find? (LogFile.named w.date w.index) with
        | none =>
            if faults.openFile w.index then (false, w, files)
            else (true, w.opened 0, files ++ [{ day := w.date, index := w.index, content := [] }])
        | some file =>
            if w.fits incoming file.content.length then
              if faults.openFile w.index then (false, w, files)
              else (true, w.opened file.content.length, files)
            else openNext faults incoming fuel w files

/-- A day that is not the writer's begins with its first file. -/
def turnTo (date : String) (w : Writer) : Writer :=
  if w.date = date then w else { w with date, index := 0 }

def ensureFile (faults : Faults) (date : String) (incoming : Nat) (w : Writer)
    (files : List LogFile) : Bool × Writer × List LogFile :=
  if w.file.isSome ∧ w.date = date ∧ w.fits incoming w.size then (true, w, files)
  else
    match w.closeLocked faults.close with
    | (false, w) => (false, w, files)
    | (true, w) =>
        if faults.mkdirAll then (false, w.turnTo date, files)
        else openNext faults incoming (files.length + 1) (w.turnTo date) files

/-- The data through the buffer, all of it or this much. -/
def put (data : List UInt8) (fault : Option Nat) (w : Writer) (files : List LogFile) :
    Bool × Writer × List LogFile :=
  match w.file with
  | none => (false, w, files)
  | some file =>
      if file.failed then (false, w, files)
      else
        match fault with
        | none =>
            (true, { w with size := w.size + data.length },
              appendTo file.day file.index data files)
        | some n =>
            let torn := data.dropLast.take n
            let written := if data.length ≤ bufferSize then data.length else torn.length
            (false, { w with size := w.size + written, file := some { file with failed := true } },
              appendTo file.day file.index torn files)

end Writer

/-- The time a record gets that has none. -/
def Entry.stamped (z : Location) (now : Instant) (e : Entry) : Entry :=
  if e.timestamp.isZero then { e with timestamp := Time.ofClock z now } else e

/-- What `Write` makes of a record. -/
def Entry.line (e : Entry) : Option (List UInt8) :=
  e.marshal.map fun json => utf8 json ++ [newline]

/-! ## Processes, one after the other -/

/-- A `Write` that has come to its buffer. -/
structure Pending where
  day : String
  entry : Entry
  data : List UInt8

/-- `written` has what `Write` returned nil for, by the day it was called on. -/
structure AuditLog where
  files : List LogFile
  writer : Option Writer
  pending : Option Pending
  written : List (String × Entry)

inductive LogEvent
  | start
  | write (now : Instant) (entry : Entry) (faults : Faults)
  | flush (fault : Option Nat)
  | close (fault : Bool)

def AuditLog.step (z : Location) (cfg : WriterConfig) (s : AuditLog) : LogEvent → AuditLog
  | .start => { s with writer := newWriter cfg, pending := none }
  | .write now entry faults =>
      match s.writer, s.pending with
      | some w, none =>
          match (entry.stamped z now).line with
          | none => s
          | some data =>
              let (ok, w, files) := w.ensureFile faults (z.format now) data.length s.files
              let p := { day := z.format now, entry := entry.stamped z now, data }
              { s with files, writer := some w, pending := if ok then some p else none }
      | _, _ => s
  | .flush fault =>
      match s.writer, s.pending with
      | some w, some p =>
          let (ok, w, files) := w.put p.data fault s.files
          { files
            writer := some w
            pending := none
            written := if ok then (p.day, p.entry) :: s.written else s.written }
      | _, _ => s
  | .close fault =>
      match s.writer, s.pending with
      | some w, none => { s with writer := some (w.closeLocked fault).2 }
      | _, _ => s

/-- An empty directory. -/
def FreshLog (s : AuditLog) : Prop :=
  s.files = [] ∧ s.writer = none ∧ s.pending = none ∧ s.written = []

/-! ## The search for a file ends -/

namespace Writer

/-- The files of the day the loop has not looked at. -/
def ahead (w : Writer) (files : List LogFile) : Nat :=
  files.countP fun file => file.day == w.date && decide (w.index < file.index)

theorem ahead_next {w : Writer} {files : List LogFile} {file : LogFile}
    (h : files.find? (LogFile.named w.date (w.index + 1)) = some file) :
    ({ w with index := w.index + 1 } : Writer).ahead files < w.ahead files := by
  obtain ⟨hnamed, before, after, rfl, -⟩ := List.find?_eq_some_iff_append.1 h
  obtain ⟨hday, hindex⟩ := Bool.and_eq_true_iff.1 hnamed
  have hmono : ∀ l : List LogFile,
      l.countP (fun f => f.day == w.date && decide (w.index + 1 < f.index)) ≤
        l.countP fun f => f.day == w.date && decide (w.index < f.index) := by
    intro l
    refine List.countP_mono_left fun f _ hf => ?_
    simp only [Bool.and_eq_true, decide_eq_true_eq] at hf ⊢
    exact ⟨hf.1, by omega⟩
  have hbefore := hmono before
  have hafter := hmono after
  have hfile : file.index = w.index + 1 := eq_of_beq hindex
  simp only [ahead, List.countP_append, List.countP_cons, hday, hfile, Bool.true_and,
    decide_eq_true_eq]
  simp only [Nat.lt_irrefl, if_false, Nat.lt_succ_self, if_true]
  omega

/-- More fuel than there are files ahead changes nothing. -/
theorem openNext_fuel {faults : Faults} {incoming fuel fuel' : Nat} {w : Writer}
    {files : List LogFile} (h : w.ahead files < fuel) (h' : w.ahead files < fuel') :
    openNext faults incoming fuel w files = openNext faults incoming fuel' w files := by
  induction fuel generalizing fuel' w with
  | zero => omega
  | succ fuel ih =>
      cases fuel' with
      | zero => omega
      | succ fuel' =>
          simp only [openNext]
          split
          · rfl
          · split
            · rfl
            · next file hfile =>
                have hahead := ahead_next hfile
                have hless : ({ w with index := w.index + 1 } : Writer).ahead files < fuel' := by omega
                rw [ih (by omega) hless]

/-- The loop stops by itself. -/
theorem openNext_enough {faults : Faults} {incoming : Nat} {w : Writer} {files : List LogFile}
    (fuel : Nat) (h : files.length < fuel) :
    openNext faults incoming fuel w files =
      openNext faults incoming (files.length + 1) w files := by
  have hahead : w.ahead files ≤ files.length := List.countP_le_length
  exact openNext_fuel (by omega) (by omega)

end Writer

end KafkaManager.Audit
