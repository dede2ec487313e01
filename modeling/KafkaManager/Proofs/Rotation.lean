import KafkaManager.Proofs.AuditRecovery

/-!
# Where a line goes

A run without errors, in which processes with limits of their own come one after
the other and the dates go as they like, on a directory with any files. The
search for a file ends, a line goes to one file of its day as a whole, and what
the writer takes for the size of its file is that size. So a file with something
in it gets a line only if it then is within the limit.

The invariant says of the open file what the loop found out about it. That the
names are distinct makes it one file.
-/

namespace KafkaManager.Audit

open Lib

/-- Nothing fails. -/
def Calm : LogEvent → Prop
  | .start => True
  | .write _ _ faults => faults = noFaults
  | .flush fault => fault = none
  | .close fault => fault = false

def LogFile.key (file : LogFile) : String × Nat := (file.day, file.index)

theorem LogFile.named_iff {day : String} {index : Nat} {file : LogFile} :
    file.named day index = true ↔ file.key = (day, index) := by
  simp [named, key]

/-- The files have distinct names. -/
def Distinct (files : List LogFile) : Prop := (files.map LogFile.key).Nodup

namespace Writer

variable {w w' : Writer} {files files' : List LogFile} {incoming fuel : Nat}

/-- The writer's file is open, has this size, and is empty or has room. -/
structure Ready (w : Writer) (files : List LogFile) (day : String) (incoming : Nat)
    (o : OpenFile) (file : LogFile) : Prop where
  opened : w.file = some o
  failed : o.failed = false
  ofDay : o.day = day
  date : w.date = day
  mem : file ∈ files
  named : file.named o.day o.index = true
  size : w.size = file.content.length
  room : file.content = [] ∨ w.fits incoming file.content.length = true

/-- The file is one of those there were, or a new one of another name. -/
def Found (files files' : List LogFile) (file : LogFile) : Prop :=
  files' = files ∨
    files' = files ++ [file] ∧ file.content = [] ∧ file.key ∉ files.map LogFile.key

theorem Found.grown {file : LogFile} (h : Found files files' file) : Grown files files' := by
  rcases h with rfl | ⟨rfl, hempty, -⟩
  · exact .inl rfl
  · exact .inr ⟨file.day, file.index, by rw [← hempty]⟩

theorem Found.distinct {file : LogFile} (h : Found files files' file) (hfiles : Distinct files) :
    Distinct files' := by
  rcases h with rfl | ⟨rfl, -, hfresh⟩
  · exact hfiles
  · rw [Distinct, List.map_append, List.nodup_append]
    refine ⟨hfiles, List.nodup_singleton _, fun a ha b hb hab => hfresh ?_⟩
    rw [← show b = file.key from List.mem_singleton.1 hb, ← hab]
    exact ha

/-- The loop ends at a file that is new or has room. -/
theorem openNext_ready (incoming : Nat) (h : w.ahead files < fuel) :
    ∃ w' files' o file, openNext noFaults incoming fuel w files = (true, w', files') ∧
      w'.cfg = w.cfg ∧ Found files files' file ∧ w'.Ready files' w.date incoming o file := by
  induction fuel generalizing w with
  | zero => omega
  | succ fuel ih =>
      have hstat : noFaults.stat (w.index + 1) = false := rfl
      have hopen : noFaults.openFile (w.index + 1) = false := rfl
      simp only [openNext, hstat, hopen, Bool.false_eq_true, if_false]
      cases hfind : files.find? (LogFile.named w.date (w.index + 1)) with
      | none =>
          have hfresh : (w.date, w.index + 1) ∉ files.map LogFile.key := by
            intro hmem
            obtain ⟨file, hfile, hkey⟩ := List.mem_map.1 hmem
            exact List.find?_eq_none.1 hfind file hfile (LogFile.named_iff.2 hkey)
          refine ⟨_, _, ⟨w.date, w.index + 1, false⟩, ⟨w.date, w.index + 1, []⟩, rfl, rfl,
            .inr ⟨rfl, rfl, hfresh⟩, ?_⟩
          exact ⟨rfl, rfl, rfl, rfl, List.mem_append_right _ (.head _),
            LogFile.named_iff.2 rfl, rfl, .inl rfl⟩
      | some file =>
          dsimp only
          split
          · next hfits =>
              refine ⟨_, _, ⟨w.date, w.index + 1, false⟩, file, rfl, rfl, .inl rfl, ?_⟩
              exact ⟨rfl, rfl, rfl, rfl, List.mem_of_find?_eq_some hfind, List.find?_some hfind,
                rfl, .inr hfits⟩
          · have hahead := ahead_next hfind
            exact ih (w := { w with index := w.index + 1 }) (by omega)

/-- What a writer has open between two calls, if it has. -/
def Tracks (w : Writer) (files : List LogFile) : Prop :=
  ∀ o, w.file = some o → o.failed = false ∧ o.day = w.date ∧
    ∃ file ∈ files, file.named o.day o.index = true ∧ w.size = file.content.length

theorem Tracks.opened (h : w.Tracks files) : w.Opened files := by
  intro o ho
  obtain ⟨-, hday, file, hfile, hnamed, -⟩ := h o ho
  exact ⟨hday, file, hfile, hnamed⟩

theorem Ready.tracks {day : String} {o : OpenFile} {file : LogFile}
    (h : w.Ready files day incoming o file) : w.Tracks files := by
  intro o' ho'
  obtain rfl := Option.some.inj (h.opened.symm.trans ho')
  exact ⟨h.failed, h.ofDay.trans h.date.symm, file, h.mem, h.named, h.size⟩

theorem turnTo_date (date : String) (w : Writer) : (w.turnTo date).date = date := by
  unfold turnTo
  split
  · assumption
  · rfl

theorem turnTo_cfg (date : String) (w : Writer) : (w.turnTo date).cfg = w.cfg := by
  unfold turnTo
  split
  · rfl
  · rfl

/-- What `ensureFile` leaves if nothing fails. -/
theorem ensureFile_ready (hw : w.Tracks files) (date : String) (incoming : Nat) :
    ∃ w' files' o file, w.ensureFile noFaults date incoming files = (true, w', files') ∧
      w'.cfg = w.cfg ∧ Found files files' file ∧ w'.Ready files' date incoming o file := by
  by_cases hfast : w.file.isSome ∧ w.date = date ∧ w.fits incoming w.size
  · obtain ⟨hsome, hdate, hfits⟩ := hfast
    obtain ⟨o, ho⟩ := Option.isSome_iff_exists.1 hsome
    obtain ⟨hfailed, hday, file, hfile, hnamed, hsize⟩ := hw o ho
    refine ⟨w, files, o, file, ?_, rfl, .inl rfl, ?_⟩
    · rw [ensureFile, if_pos ⟨hsome, hdate, hfits⟩]
    · rw [hsize] at hfits
      exact ⟨ho, hfailed, hday.trans hdate, hdate, hfile, hnamed, hsize, .inr hfits⟩
  · obtain ⟨w₁, hclose, hcfg⟩ : ∃ w₁, w.closeLocked noFaults.close = (true, w₁) ∧
        w₁.cfg = w.cfg := by
      unfold closeLocked
      cases ho : w.file with
      | none => exact ⟨w, rfl, rfl⟩
      | some o =>
          obtain ⟨hfailed, -⟩ := hw o ho
          exact ⟨{ w with file := none }, by simp [hfailed, noFaults], rfl⟩
    have hahead : (w₁.turnTo date).ahead files < files.length + 1 :=
      Nat.lt_succ_of_le List.countP_le_length
    obtain ⟨w', files', o, file, hopen, hcfg', hfound, hready⟩ :=
      openNext_ready incoming hahead
    rw [turnTo_date] at hready
    rw [turnTo_cfg] at hcfg'
    refine ⟨w', files', o, file, ?_, hcfg'.trans hcfg, hfound, hready⟩
    have hmkdir : noFaults.mkdirAll = false := rfl
    rw [ensureFile, if_neg hfast, hclose]
    dsimp only
    rw [hmkdir, if_neg Bool.false_ne_true, hopen]

/-- With distinct names the line gets to that file and to no other. -/
theorem Ready.put {day : String} (data : List UInt8) {o : OpenFile} {file : LogFile}
    (h : w.Ready files day incoming o file) (hdistinct : Distinct files) :
    ∃ before after, files = before ++ file :: after ∧
      w.put data none files = (true, { w with size := w.size + data.length },
        before ++ { file with content := file.content ++ data } :: after) := by
  obtain ⟨before, after, rfl⟩ := List.append_of_mem h.mem
  have hbefore : ∀ f ∈ before, (!f.named o.day o.index) = true := by
    intro f hf
    rw [Distinct, List.map_append, List.nodup_append] at hdistinct
    have hne := hdistinct.2.2 _ (List.mem_map_of_mem hf) _ (.head _)
    rw [LogFile.named_iff.1 h.named] at hne
    rw [Bool.not_eq_true', ← Bool.not_eq_true, LogFile.named_iff]
    exact hne
  refine ⟨before, after, rfl, ?_⟩
  simp only [Writer.put, h.opened, h.failed, Bool.false_eq_true, if_false,
    appendTo_named h.named hbefore]

end Writer

/-! ## Runs -/

/-- What a run comes to, and for each file that has got a line the limit when it
got the last one and what was in it before. -/
structure Appends where
  log : AuditLog
  last : String × Nat → Option (Int × Nat)

/-- A process that starts has a limit of its own. -/
def Appends.step (z : Location) (cfg : WriterConfig) (t : Appends) (e : Int × LogEvent) :
    Appends where
  log := t.log.step z { cfg with maxFileSizeBytes := e.1 } e.2
  last :=
    match e.2, t.log.writer, t.log.pending with
    | .flush _, some w, some _ =>
        match w.file with
        | none => t.last
        | some o =>
            Function.update t.last (o.day, o.index) (some (w.cfg.maxFileSizeBytes,
              match t.log.openFile o with
              | none => 0
              | some file => file.content.length))
    | _, _, _ => t.last

/-- There is no process, and every name is that of one file. -/
def Resting (t : Appends) : Prop :=
  t.log.writer = none ∧ t.log.pending = none ∧ Distinct t.log.files ∧ ∀ key, t.last key = none

structure RotationInv (t : Appends) : Prop where
  distinct : Distinct t.log.files
  tracks : ∀ w, t.log.writer = some w → w.Tracks t.log.files
  pending : ∀ p, t.log.pending = some p → ∀ w, t.log.writer = some w →
    ∃ o file, w.Ready t.log.files p.day p.data.length o file
  known : ∀ key, (t.last key).isSome = true → key ∈ t.log.files.map LogFile.key
  last : ∀ file ∈ t.log.files, ∀ limit before, t.last file.key = some (limit, before) →
    before = 0 ∨ (file.content.length : Int) ≤ limit

section

variable {z : Location} {cfg : WriterConfig} {t : Appends} {limit : Int}

theorem Resting.inv (h : Resting t) : RotationInv t := by
  obtain ⟨hwriter, hpending, hdistinct, hlast⟩ := h
  refine ⟨hdistinct, fun w hw => ?_, fun p hp => ?_, fun key hkey => ?_, fun file _ l b hb => ?_⟩
  · rw [hwriter] at hw
    cases hw
  · rw [hpending] at hp
    cases hp
  · rw [hlast] at hkey
    cases hkey
  · rw [hlast] at hb
    cases hb

/-- The files are as they were. -/
theorem RotationInv.sameFiles (h : RotationInv t) {t' : Appends}
    (hfiles : t'.log.files = t.log.files) (hlast : t'.last = t.last)
    (htracks : ∀ w, t'.log.writer = some w → w.Tracks t.log.files)
    (hpending : t'.log.pending = none) : RotationInv t' := by
  refine ⟨?_, ?_, fun p hp => ?_, ?_, ?_⟩
  · rw [hfiles]
    exact h.distinct
  · rw [hfiles]
    exact htracks
  · rw [hpending] at hp
    cases hp
  · rw [hfiles, hlast]
    exact h.known
  · rw [hfiles, hlast]
    exact h.last

theorem RotationInv.start (h : RotationInv t) : RotationInv (t.step z cfg (limit, .start)) := by
  refine h.sameFiles rfl rfl (fun w hw o ho => ?_) rfl
  simp only [Appends.step, AuditLog.step, newWriter] at hw
  split at hw
  · cases hw
  · obtain rfl := Option.some.inj hw
    cases ho

theorem Writer.Tracks.closeLocked {w : Writer} {files : List LogFile} (h : w.Tracks files) :
    (w.closeLocked false).2.Tracks files := by
  intro o ho
  cases hopen : w.file with
  | none => simp [Writer.closeLocked, hopen] at ho
  | some o' => simp [Writer.closeLocked, hopen, (h o' hopen).1] at ho

/-- The two halves of a `Write`, and `Close`, are for a process. -/
theorem step_idle (hidle : t.log.writer = none) (e : LogEvent) (he : e ≠ .start) :
    t.step z cfg (limit, e) = t := by
  cases e with
  | start => exact absurd rfl he
  | write now entry faults => simp [Appends.step, AuditLog.step, hidle]
  | flush fault => simp [Appends.step, AuditLog.step, hidle]
  | close fault => simp [Appends.step, AuditLog.step, hidle]

theorem RotationInv.close (h : RotationInv t) :
    RotationInv (t.step z cfg (limit, .close false)) := by
  cases hwriter : t.log.writer with
  | none =>
      rw [step_idle hwriter _ (by simp)]
      exact h
  | some w =>
      cases hpending : t.log.pending with
      | some p =>
          have hsame : t.step z cfg (limit, .close false) = t := by
            simp [Appends.step, AuditLog.step, hwriter, hpending]
          rw [hsame]
          exact h
      | none =>
          have hlog : (t.step z cfg (limit, .close false)).log =
              { t.log with writer := some (w.closeLocked false).2 } := by
            simp [Appends.step, AuditLog.step, hwriter, hpending]
          refine h.sameFiles (by rw [hlog]) rfl (fun w' hw' => ?_) (by rw [hlog, hpending])
          rw [hlog] at hw'
          obtain rfl := Option.some.inj hw'
          exact (h.tracks w hwriter).closeLocked

/-- The first half of a `Write`: the file is found, and nothing is in it yet. -/
theorem step_write (z : Location) (cfg : WriterConfig) (h : RotationInv t) {w : Writer}
    (hwriter : t.log.writer = some w) (hpending : t.log.pending = none)
    {now : Instant} {entry : Entry} {data : List UInt8}
    (hline : (entry.stamped z now).line = some data) :
    ∃ w' files' o file,
      t.log.step z cfg (.write now entry noFaults) =
        { t.log with
          files := files'
          writer := some w'
          pending := some { day := z.format now, entry := entry.stamped z now, data } } ∧
      w'.cfg = w.cfg ∧ Writer.Found t.log.files files' file ∧
        w'.Ready files' (z.format now) data.length o file := by
  obtain ⟨w', files', o, file, hensure, hcfg, hfound, hready⟩ :=
    Writer.ensureFile_ready (h.tracks w hwriter) (z.format now) data.length
  refine ⟨w', files', o, file, ?_, hcfg, hfound, hready⟩
  simp only [AuditLog.step, hwriter, hpending, hline, hensure, if_true]

theorem RotationInv.write (h : RotationInv t) (now : Instant) (entry : Entry) :
    RotationInv (t.step z cfg (limit, .write now entry noFaults)) := by
  cases hwriter : t.log.writer with
  | none =>
      rw [step_idle hwriter _ (by simp)]
      exact h
  | some w =>
      cases hpending : t.log.pending with
      | some p =>
          have hsame : t.step z cfg (limit, .write now entry noFaults) = t := by
            simp [Appends.step, AuditLog.step, hwriter, hpending]
          rw [hsame]
          exact h
      | none =>
          cases hline : (entry.stamped z now).line with
          | none =>
              have hsame : t.step z cfg (limit, .write now entry noFaults) = t := by
                simp [Appends.step, AuditLog.step, hwriter, hpending, hline]
              rw [hsame]
              exact h
          | some data =>
              obtain ⟨w', files', o, file, hlog, -, hfound, hready⟩ :=
                step_write z { cfg with maxFileSizeBytes := limit } h hwriter hpending hline
              have hfiles : (t.step z cfg (limit, .write now entry noFaults)).log.files =
                  files' := congrArg AuditLog.files hlog
              refine ⟨?_, fun w₁ hw₁ => ?_, fun p hp w₁ hw₁ => ?_, fun key hkey => ?_,
                fun f hf l b hb => ?_⟩
              · rw [hfiles]
                exact hfound.distinct h.distinct
              · obtain rfl := Option.some.inj ((congrArg AuditLog.writer hlog).symm.trans hw₁)
                rw [hfiles]
                exact hready.tracks
              · obtain rfl := Option.some.inj ((congrArg AuditLog.writer hlog).symm.trans hw₁)
                obtain rfl := Option.some.inj ((congrArg AuditLog.pending hlog).symm.trans hp)
                rw [hfiles]
                exact ⟨o, file, hready⟩
              · rw [hfiles]
                have hknown := h.known key hkey
                rcases hfound with rfl | ⟨rfl, -, -⟩
                · exact hknown
                · rw [List.map_append]
                  exact List.mem_append_left _ hknown
              · rw [hfiles] at hf
                have hold : f ∈ t.log.files := by
                  rcases hfound with rfl | ⟨rfl, -, hfresh⟩
                  · exact hf
                  · refine (List.mem_append.1 hf).resolve_right fun hnew => hfresh ?_
                    -- no line has gone to a file of this name before
                    rw [← List.mem_singleton.1 hnew]
                    exact h.known f.key (Option.isSome_iff_exists.2 ⟨(l, b), hb⟩)
                exact h.last f hold l b hb

/-- The second half: the line is in the file. -/
theorem step_flush (z : Location) (cfg : WriterConfig) (h : RotationInv t) {w : Writer}
    {p : Pending} (hwriter : t.log.writer = some w) (hpending : t.log.pending = some p) :
    ∃ o file before after, w.Ready t.log.files p.day p.data.length o file ∧
      t.log.files = before ++ file :: after ∧
      t.log.step z cfg (.flush none) =
        { files := before ++ { file with content := file.content ++ p.data } :: after
          writer := some { w with size := w.size + p.data.length }
          pending := none
          written := (p.day, p.entry) :: t.log.written } := by
  obtain ⟨o, file, hready⟩ := h.pending p hpending w hwriter
  obtain ⟨before, after, hfiles, hput⟩ := hready.put p.data h.distinct
  refine ⟨o, file, before, after, hready, hfiles, ?_⟩
  simp only [AuditLog.step, hwriter, hpending, hput, if_true]

theorem find_named {files : List LogFile} (hdistinct : Distinct files) {file : LogFile}
    (hfile : file ∈ files) {day : String} {index : Nat} (hnamed : file.named day index = true) :
    files.find? (LogFile.named day index) = some file := by
  obtain ⟨found, hfound⟩ := Option.isSome_iff_exists.1 (List.find?_isSome.2 ⟨file, hfile, hnamed⟩)
  rw [hfound, List.inj_on_of_nodup_map hdistinct (List.mem_of_find?_eq_some hfound) hfile]
  rw [LogFile.named_iff.1 hnamed, LogFile.named_iff.1 (List.find?_some hfound)]

theorem RotationInv.flush (h : RotationInv t) :
    RotationInv (t.step z cfg (limit, .flush none)) := by
  cases hwriter : t.log.writer with
  | none =>
      rw [step_idle hwriter _ (by simp)]
      exact h
  | some w =>
      cases hpending : t.log.pending with
      | none =>
          have hsame : t.step z cfg (limit, .flush none) = t := by
            simp [Appends.step, AuditLog.step, hwriter, hpending]
          rw [hsame]
          exact h
      | some p =>
          obtain ⟨o, file, before, after, hready, hold, hlog⟩ :=
            step_flush z { cfg with maxFileSizeBytes := limit } h hwriter hpending
          have hopen : t.log.openFile o = some file := find_named h.distinct hready.mem hready.named
          have hkey : (o.day, o.index) = file.key := (LogFile.named_iff.1 hready.named).symm
          have hlast : (t.step z cfg (limit, .flush none)).last = Function.update t.last file.key
              (some (w.cfg.maxFileSizeBytes, file.content.length)) := by
            simp only [Appends.step, hwriter, hpending, hready.opened, hopen, hkey]
          have hfiles : (t.step z cfg (limit, .flush none)).log.files =
              before ++ { file with content := file.content ++ p.data } :: after :=
            congrArg AuditLog.files hlog
          have hkeys : (t.step z cfg (limit, .flush none)).log.files.map LogFile.key =
              t.log.files.map LogFile.key := by
            rw [hfiles, hold, List.map_append, List.map_append]
            rfl
          refine ⟨?_, fun w' hw' o' ho' => ?_, fun p' hp' => ?_, fun key hk => ?_,
            fun f hf l b hb => ?_⟩
          · rw [Distinct, hkeys]
            exact h.distinct
          · obtain rfl := Option.some.inj ((congrArg AuditLog.writer hlog).symm.trans hw')
            obtain rfl := Option.some.inj (hready.opened.symm.trans ho')
            rw [hfiles]
            refine ⟨hready.failed, hready.ofDay.trans hready.date.symm, _,
              List.mem_append_right _ (.head _), hready.named, ?_⟩
            rw [List.length_append, ← hready.size]
          · exact absurd ((congrArg AuditLog.pending hlog).symm.trans hp') (by simp)
          · rw [hkeys]
            rw [hlast] at hk
            by_cases hsame : key = file.key
            · rw [hsame]
              exact List.mem_map_of_mem hready.mem
            · rw [Function.update_of_ne hsame] at hk
              exact h.known key hk
          · rw [hfiles] at hf
            rw [hlast] at hb
            by_cases hsame : f.key = file.key
            · -- the file that has got the line
              have hf' : f = { file with content := file.content ++ p.data } := by
                rw [hold] at hkeys
                refine List.inj_on_of_nodup_map (f := LogFile.key) ?_ hf
                  (List.mem_append_right _ (.head _)) hsame
                have hdistinct := h.distinct
                rw [Distinct, hold, ← hkeys, hfiles] at hdistinct
                exact hdistinct
              rw [hsame, Function.update_self] at hb
              obtain ⟨rfl, rfl⟩ := Prod.mk.inj (Option.some.inj hb)
              rw [hf', List.length_append]
              rcases hready.room with hempty | hfits
              · exact .inl (by rw [hempty]; rfl)
              · simp only [Writer.fits, decide_eq_true_eq] at hfits
                exact .inr (by omega)
            · rw [Function.update_of_ne hsame] at hb
              refine h.last f ?_ l b hb
              rw [hold]
              rcases List.mem_append.1 hf with hf | hf
              · exact List.mem_append_left _ hf
              · rcases List.mem_cons.1 hf with rfl | hf
                · exact absurd rfl hsame
                · exact List.mem_append_right _ (.tail _ hf)

theorem rotationInv_run (ht : Resting t) {es : List (Int × LogEvent)}
    (hcalm : ∀ e ∈ es, Calm e.2) : RotationInv (run (Appends.step z cfg) t es) := by
  refine run_invariant_of (A := fun e : Int × LogEvent => Calm e.2) (fun t e he h => ?_) ht.inv
    hcalm
  obtain ⟨limit, e⟩ := e
  cases e with
  | start => exact h.start
  | write now entry faults =>
      obtain rfl : faults = noFaults := he
      exact h.write now entry
  | flush fault =>
      obtain rfl : fault = none := he
      exact h.flush
  | close fault =>
      obtain rfl : fault = false := he
      exact h.close

end

/-! ## The result -/

/-- One file of the day has got the data and no other byte has changed. It had
nothing in it, or has room. -/
def AppendsLine (limit : Int) (day : String) (data : List UInt8) (files files' : List LogFile) :
    Prop :=
  ∃ before file after,
    (files = before ++ file :: after ∨
      files = before ∧ after = [] ∧ file.content = [] ∧ file.key ∉ files.map LogFile.key) ∧
    files' = before ++ { file with content := file.content ++ data } :: after ∧
    file.day = day ∧ (file.content = [] ∨ (file.content.length : Int) + data.length ≤ limit)

/-- What holds after every run. -/
structure Rotated (z : Location) (cfg : WriterConfig) (t : Appends) : Prop where
  /-- The search for a file ends, with a file. -/
  search : ∀ (w : Writer) (incoming : Nat), ∃ w' files', ∀ fuel, t.log.files.length < fuel →
    Writer.openNext noFaults incoming fuel w t.log.files = (true, w', files')
  /-- The next `Write` returns nil and puts its line where it belongs. -/
  write : ∀ w now entry data, t.log.writer = some w → t.log.pending = none →
    (entry.stamped z now).line = some data →
      (t.log.write z cfg now entry).written =
          (z.format now, entry.stamped z now) :: t.log.written ∧
        AppendsLine w.cfg.maxFileSizeBytes (z.format now) data t.log.files
          (t.log.write z cfg now entry).files
  /-- Nothing else changes a byte. -/
  frame : ∀ limit e, Calm e → e ≠ .flush none →
    Writer.Grown t.log.files (t.step z cfg (limit, e)).log.files
  /-- The size is that of the file that is open. -/
  size : ∀ w o, t.log.writer = some w → w.file = some o →
    ∃ file, t.log.openFile o = some file ∧ w.size = file.content.length
  /-- A file that is over the limit of its last line holds that line alone. -/
  last : ∀ file ∈ t.log.files, ∀ limit before, t.last file.key = some (limit, before) →
    before = 0 ∨ (file.content.length : Int) ≤ limit

theorem RotationInv.rotated (z : Location) (cfg : WriterConfig) {t : Appends}
    (h : RotationInv t) : Rotated z cfg t where
  search w incoming := by
    have hahead : w.ahead t.log.files ≤ t.log.files.length := List.countP_le_length
    obtain ⟨w', files', -, -, hopen, -⟩ :=
      Writer.openNext_ready incoming (Nat.lt_succ_of_le hahead)
    exact ⟨w', files', fun fuel hfuel => (Writer.openNext_enough fuel hfuel).trans hopen⟩
  write w now entry data hwriter hpending hline := by
    obtain ⟨w', files', o, file, hlog, hcfg, hfound, hready⟩ :=
      step_write z cfg h hwriter hpending hline
    have hdistinct := hfound.distinct h.distinct
    obtain ⟨before, after, hfiles', hput⟩ := hready.put data hdistinct
    have hwrite : t.log.write z cfg now entry =
        { files := before ++ { file with content := file.content ++ data } :: after
          writer := some { w' with size := w'.size + data.length }
          pending := none
          written := (z.format now, entry.stamped z now) :: t.log.written } := by
      simp only [AuditLog.write, run_cons, run_nil, hlog]
      simp only [AuditLog.step, hput, if_true]
    rw [hwrite]
    have hroom : file.content = [] ∨ (file.content.length : Int) + data.length ≤
        w.cfg.maxFileSizeBytes := by
      rw [← hcfg]
      refine hready.room.imp_right fun hfits => ?_
      simpa only [Writer.fits, decide_eq_true_eq] using hfits
    have hday : file.day = z.format now := by
      rw [← hready.ofDay]
      exact (Prod.mk.inj (LogFile.named_iff.1 hready.named)).1
    refine ⟨rfl, before, file, after, ?_, rfl, hday, hroom⟩
    rcases hfound with rfl | ⟨rfl, hempty, hfresh⟩
    · exact .inl hfiles'
    · have hnot : file ∉ t.log.files := fun hmem => hfresh (List.mem_map_of_mem hmem)
      obtain ⟨hbefore, -, hafter⟩ :=
        (List.append_cons_inj_of_notMem hnot (List.not_mem_nil)).1 hfiles'
      exact .inr ⟨hbefore, hafter.symm, hempty, hfresh⟩
  frame limit e he hne := by
    cases e with
    | start => exact .inl rfl
    | write now entry faults =>
        simp only [Appends.step, AuditLog.step]
        split
        · next w hwriter hpending =>
            split
            · exact .inl rfl
            · exact (Writer.ensureFile_spec (h.tracks w hwriter).opened rfl).2.1
        · exact .inl rfl
    | flush fault =>
        obtain rfl : fault = none := he
        exact absurd rfl hne
    | close fault =>
        simp only [Appends.step, AuditLog.step]
        split
        · exact .inl rfl
        · exact .inl rfl
  size w o hwriter ho := by
    obtain ⟨-, -, file, hfile, hnamed, hsize⟩ := h.tracks w hwriter o ho
    exact ⟨file, find_named h.distinct hfile hnamed, hsize⟩
  last := h.last

/-- In every run without errors, from a directory with any files: the search for
a file ends, every `Write` puts its line as a whole into one file of its day
that is empty or has room, nothing else changes, and the size is the file's. -/
theorem rotation_run (z : Location) (cfg : WriterConfig) {t : Appends} (ht : Resting t)
    {es : List (Int × LogEvent)} (hcalm : ∀ e ∈ es, Calm e.2) :
    Rotated z cfg (run (Appends.step z cfg) t es) :=
  (rotationInv_run ht hcalm).rotated z cfg

/-- A file of an earlier process, and one that is nearly full. -/
def partlyFilled : Appends where
  log :=
    { files := [⟨"2026-07-13", 1, List.replicate 900 0⟩, ⟨"2026-07-13", 2, []⟩]
      writer := none
      pending := none
      written := [] }
  last _ := none

/-- Two processes with limits of 1000 and 10 bytes, and a date that goes back. -/
def twoLimits : List (Int × LogEvent) :=
  [(1000, .start), (0, .write tenOClock (created "orders") noFaults), (0, .flush none),
    (0, .write dayAfter (created "payments") noFaults), (0, .flush none), (10, .start),
    (0, .write tenOClock (created "users") noFaults), (0, .flush none), (0, .close false)]

theorem rotation_run_two :
    Resting partlyFilled ∧
      Rotated utc dayLogConfig (run (Appends.step utc dayLogConfig) partlyFilled twoLimits) := by
  have hresting : Resting partlyFilled :=
    ⟨rfl, rfl, by unfold Distinct; decide, fun _ => rfl⟩
  refine ⟨hresting, rotation_run utc dayLogConfig hresting fun e he => ?_⟩
  simp only [twoLimits, List.mem_cons, List.not_mem_nil, or_false] at he
  rcases he with rfl | rfl | rfl | rfl | rfl | rfl | rfl | rfl | rfl
  all_goals trivial

end KafkaManager.Audit
