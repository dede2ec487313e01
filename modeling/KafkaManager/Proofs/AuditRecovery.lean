import KafkaManager.Proofs.AuditLog

/-!
# The audit log after an error

A directory that cannot be made, a file that cannot be opened or closed leave
the writer without a file, and the next `Write` looks for one. Only an error of
the buffer stays: the file remains open, nothing is taken for it, and neither a
full file nor another day gets rid of it, for closing begins with `Flush`.
-/

namespace KafkaManager.Audit

open Lib

namespace Writer

variable {w w' : Writer} {files files' : List LogFile} {incoming fuel : Nat}

/-- The buffer of the file that is open has failed. -/
def broken (w : Writer) : Bool :=
  match w.file with
  | none => false
  | some o => o.failed

theorem failed_of_broken (h : w.broken = true) : ∃ o, w.file = some o ∧ o.failed = true := by
  unfold broken at h
  split at h
  · cases h
  · next o ho => exact ⟨o, ho, h⟩

/-- The search finds a file if nothing fails. -/
theorem openNext_noFaults (h : w.ahead files < fuel) :
    ∃ w' files' o, openNext noFaults incoming fuel w files = (true, w', files') ∧
      w'.file = some o ∧ o.failed = false := by
  induction fuel generalizing w with
  | zero => omega
  | succ fuel ih =>
      have hstat : noFaults.stat (w.index + 1) = false := rfl
      have hopen : noFaults.openFile (w.index + 1) = false := rfl
      simp only [openNext, hstat, hopen, Bool.false_eq_true, if_false]
      split
      · exact ⟨_, _, _, rfl, rfl, rfl⟩
      · next file hfile =>
          split
          · exact ⟨_, _, _, rfl, rfl, rfl⟩
          · have hahead := ahead_next hfile
            exact ih (w := { w with index := w.index + 1 }) (by omega)

theorem ensureFile_noFaults (date : String) (incoming : Nat) (files : List LogFile)
    (h : w.broken = false) :
    ∃ w' files' o, w.ensureFile noFaults date incoming files = (true, w', files') ∧
      w'.file = some o ∧ o.failed = false := by
  have hclose : ∃ w₁, w.closeLocked noFaults.close = (true, w₁) := by
    unfold closeLocked
    cases ho : w.file with
    | none => exact ⟨w, rfl⟩
    | some o =>
        simp only [broken, ho] at h
        exact ⟨{ w with file := none }, by simp [h, noFaults]⟩
  obtain ⟨w₁, hclose⟩ := hclose
  have hmkdir : noFaults.mkdirAll = false := rfl
  unfold ensureFile
  split
  · next hopen =>
      obtain ⟨o, ho⟩ := Option.isSome_iff_exists.1 hopen.1
      simp only [broken, ho] at h
      exact ⟨w, files, o, rfl, ho, h⟩
  · simp only [hclose, hmkdir, Bool.false_eq_true, if_false]
    have hahead : (w₁.turnTo date).ahead files ≤ files.length := List.countP_le_length
    exact openNext_noFaults (by omega)

/-- A failed buffer does not let go of its file. -/
theorem ensureFile_broken (faults : Faults) (date : String) (incoming : Nat) (files : List LogFile)
    (h : w.broken = true) :
    ∃ ok, w.ensureFile faults date incoming files = (ok, w, files) := by
  obtain ⟨o, ho, hfailed⟩ := failed_of_broken h
  have hclose : w.closeLocked faults.close = (false, w) := by
    simp only [closeLocked, ho, hfailed, if_true]
  unfold ensureFile
  split
  · exact ⟨true, rfl⟩
  · rw [hclose]
    exact ⟨false, rfl⟩

theorem put_broken {data : List UInt8} {fault : Option Nat} (h : w.broken = true) :
    w.put data fault files = (false, w, files) := by
  obtain ⟨o, ho, hfailed⟩ := failed_of_broken h
  simp only [put, ho, hfailed, if_true]

end Writer

section

variable {z : Location} {cfg : WriterConfig} {s : AuditLog}

/-- No process runs. The directory may hold any files. -/
def AuditLog.Idle (s : AuditLog) : Prop := s.writer = none ∧ s.pending = none

/-- The file that is open is there. -/
def AuditLog.Opened (s : AuditLog) : Prop := ∀ w, s.writer = some w → w.Opened s.files

theorem AuditLog.Opened.step (hs : s.Opened) (e : LogEvent) : (s.step z cfg e).Opened := by
  intro w' hw'
  cases e with
  | start =>
      simp only [AuditLog.step, newWriter] at hw'
      split at hw'
      · cases hw'
      · obtain rfl := Option.some.inj hw'
        exact Writer.opened_of_none rfl
  | write now entry faults =>
      simp only [AuditLog.step] at hw' ⊢
      split at hw'
      · next w hwriter hpending =>
          split at hw'
          · exact hs w' hw'
          · next data hline =>
              obtain rfl := Option.some.inj hw'
              exact (Writer.ensureFile_spec (hs w hwriter) rfl).1
      · exact hs w' hw'
  | flush fault =>
      simp only [AuditLog.step] at hw' ⊢
      split at hw'
      · next w p hwriter hpending =>
          obtain rfl := Option.some.inj hw'
          exact Writer.put_opened (hs w hwriter) rfl
      · exact hs w' hw'
  | close fault =>
      simp only [AuditLog.step] at hw' ⊢
      split at hw'
      · next w hwriter hpending =>
          obtain rfl := Option.some.inj hw'
          exact Writer.closeLocked_opened _ (hs w hwriter)
      · exact hs w' hw'

theorem opened_reach (hs : Reach (AuditLog.step z cfg) (fun _ _ => true) AuditLog.Idle s) :
    s.Opened := by
  refine hs.invariant ?_ fun s e h _ => h.step e
  rintro s ⟨hwriter, -⟩ w hw
  rw [hwriter] at hw
  cases hw

/-! ## The next `Write` -/

/-- A `Write` in which nothing fails. -/
def AuditLog.write (z : Location) (cfg : WriterConfig) (s : AuditLog) (now : Instant)
    (entry : Entry) : AuditLog :=
  run (AuditLog.step z cfg) s [.write now entry noFaults, .flush none]

/-- It has returned nil, and its line is in a file of its day. -/
def Stored (z : Location) (s s' : AuditLog) (now : Instant) (entry : Entry) : Prop :=
  s'.written = (z.format now, entry.stamped z now) :: s.written ∧
    ∃ data, (entry.stamped z now).line = some data ∧
      ∃ file ∈ s'.files, file.day = z.format now ∧ ∃ before, file.content = before ++ data

def AuditLog.broken (s : AuditLog) : Bool :=
  match s.writer with
  | none => false
  | some w => w.broken

theorem not_stored {s' : AuditLog} {now : Instant} {entry : Entry} (h : s'.written = s.written) :
    ¬ Stored z s s' now entry := by
  rintro ⟨hwritten, -⟩
  rw [h] at hwritten
  exact absurd (congrArg List.length hwritten) (by simp)

theorem write_broken (hpending : s.pending = none) (hbroken : s.broken = true) (now : Instant)
    (entry : Entry) : ¬ Stored z s (s.write z cfg now entry) now entry := by
  refine not_stored ?_
  unfold AuditLog.broken at hbroken
  split at hbroken
  · cases hbroken
  · next w hwriter =>
      simp only [AuditLog.write, run_cons, run_nil, AuditLog.step, hwriter, hpending]
      cases (entry.stamped z now).line with
      | none => simp [hpending]
      | some data =>
          obtain ⟨ok, hensure⟩ := Writer.ensureFile_broken noFaults (z.format now) data.length
            s.files hbroken
          simp only [hensure]
          cases ok with
          | false => rfl
          | true => simp [Writer.put_broken hbroken]

theorem write_stored (hs : s.Opened) {w : Writer} (hwriter : s.writer = some w)
    (hpending : s.pending = none) (hbroken : w.broken = false) {now : Instant} {entry : Entry}
    {data : List UInt8} (hline : (entry.stamped z now).line = some data) :
    Stored z s (s.write z cfg now entry) now entry := by
  obtain ⟨w', files', o, hensure, ho, hfailed⟩ := Writer.ensureFile_noFaults (z.format now)
    data.length s.files hbroken
  obtain ⟨hopened, -, hday⟩ := Writer.ensureFile_spec (hs w hwriter) hensure
  obtain ⟨o', ho', hday⟩ := hday rfl
  obtain rfl := Option.some.inj (ho.symm.trans ho')
  obtain ⟨before, file, after, -, -, hfile, -, happend⟩ := Writer.appended hopened ho data
  simp only [AuditLog.write, run_cons, run_nil, AuditLog.step, hwriter, hpending, hline, hensure,
    if_true, Writer.put, ho, hfailed, Bool.false_eq_true, if_false]
  refine ⟨rfl, data, hline, { file with content := file.content ++ data }, ?_, ?_, _, rfl⟩
  · rw [happend]
    exact List.mem_append_right _ (.head _)
  · exact hfile.trans hday

end

/-! ## The results -/

/-- A process whose first line is half written. -/
def halfWritten : List LogEvent :=
  [.start, .write tenOClock (created "orders") noFaults, .flush (some 40)]

/-- Ten o'clock on the next day. -/
def dayAfter : Instant := Instant.ofUnix (20648 * 86400 + 36000)

abbrev utc : Location := Location.fixed 0 Location.zero_range

abbrev dayLogConfig : WriterConfig where
  directory := "./data/audit"
  maxFileSizeBytes := 50 * 1024 * 1024
  retentionDays := 30

/-- Not even the next day gets a file. -/
theorem write_recovers_tomorrow :
    Reach (AuditLog.step utc dayLogConfig) (fun _ _ => true) AuditLog.Idle
        (run (AuditLog.step utc dayLogConfig) emptyLog halfWritten) ∧
      ((created "payments").stamped utc dayAfter).line.isSome = true ∧
      ¬ Stored utc (run (AuditLog.step utc dayLogConfig) emptyLog halfWritten)
        ((run (AuditLog.step utc dayLogConfig) emptyLog halfWritten).write utc dayLogConfig
          dayAfter (created "payments")) dayAfter (created "payments") :=
  ⟨(Reach.init ⟨rfl, rfl⟩).run_any _, by decide +kernel,
    write_broken (by decide +kernel) (by decide +kernel) _ _⟩

/-- Between two calls, whatever the directory held at first, whatever has failed
before and whatever the date, the next `Write` that nothing fails in stores its record if and only if the buffer
of the open file has not failed, and the record can be written as JSON. -/
theorem write_recovers (z : Location) (cfg : WriterConfig) {s : AuditLog}
    (hs : Reach (AuditLog.step z cfg) (fun _ _ => true) AuditLog.Idle s)
    (hwriter : s.writer.isSome = true) (hpending : s.pending = none) (now : Instant)
    (entry : Entry) :
    Stored z s (s.write z cfg now entry) now entry ↔
      s.broken = false ∧ (entry.stamped z now).line.isSome = true := by
  constructor
  · intro hstored
    constructor
    · rw [← Bool.not_eq_true]
      exact fun hbroken => write_broken hpending hbroken now entry hstored
    · obtain ⟨-, data, hline, -⟩ := hstored
      rw [hline]
      rfl
  · rintro ⟨hbroken, hsome⟩
    obtain ⟨w, hw⟩ := Option.isSome_iff_exists.1 hwriter
    obtain ⟨data, hline⟩ := Option.isSome_iff_exists.1 hsome
    refine write_stored (opened_reach hs) hw hpending ?_ hline
    rw [AuditLog.broken, hw] at hbroken
    exact hbroken

/-- A file of an earlier process. -/
def usedLog : AuditLog where
  files := [⟨"2026-07-13", 1, List.replicate 900 0⟩]
  writer := none
  pending := none
  written := []

/-- A directory cannot be made, and then it can. -/
def madeLate : List LogEvent :=
  [.start, .write tenOClock (created "orders") { noFaults with mkdirAll := true }]

theorem write_recovers_directory :
    (run (AuditLog.step utc dayLogConfig) usedLog madeLate).broken = false ∧
      Stored utc (run (AuditLog.step utc dayLogConfig) usedLog madeLate)
        ((run (AuditLog.step utc dayLogConfig) usedLog madeLate).write utc dayLogConfig dayAfter
          (created "payments")) dayAfter (created "payments") := by
  have hbroken : (run (AuditLog.step utc dayLogConfig) usedLog madeLate).broken = false := by
    decide +kernel
  exact ⟨hbroken, (write_recovers utc dayLogConfig ((Reach.init ⟨rfl, rfl⟩).run_any _)
    (by decide +kernel) (by decide +kernel) dayAfter (created "payments")).2
      ⟨hbroken, by decide +kernel⟩⟩

end KafkaManager.Audit
