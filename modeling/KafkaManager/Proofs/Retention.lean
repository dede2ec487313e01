import KafkaManager.Main
import KafkaManager.Proofs.SaveLoad
import KafkaManager.Proofs.Sessions

/-!
# What the cleanups leave

A subdirectory is overdue if its whole day lies more than one day beyond the
retention. Both cleanups remove what is overdue, whichever offsets are in force
on the days they calculate with, for two days are more than offsets differ.

The ticker only cleans the backups. What the audit directory holds at a tick is
of the days the last start-up with auditing has kept and of those on which
records were written since (`Chronicle`), so nothing in it is overdue as long
as the retention has passed over none of these days.
-/

namespace Lib

variable {z : Location}

/-- Midnights are in the order of their days. -/
theorem Location.midnight_before {k k' : Int} (h : k < k')
    (hk : -2 ^ 62 ≤ k * 86400) (hk' : k' * 86400 ≤ 2 ^ 62 + 500000) :
    (z.midnight k).before (z.midnight k') = true := by
  obtain ⟨o, ho, hlo, hhi⟩ := z.unixOf_eq (k * 86400) (decide_eq_true (by omega))
  obtain ⟨o', ho', hlo', hhi'⟩ := z.unixOf_eq (k' * 86400) (decide_eq_true (by omega))
  have hleast := z.least_range
  have hsec : (z.midnight k).sec = k * 86400 - o + unixToInternal := by
    rw [midnight, ho]
    exact Instant.sec_ofUnix (by omega)
  have hsec' : (z.midnight k').sec = k' * 86400 - o' + unixToInternal := by
    rw [midnight, ho']
    exact Instant.sec_ofUnix (by omega)
  rw [Instant.before, hsec, hsec', Bool.or_eq_true, decide_eq_true_eq]
  omega

end Lib

namespace KafkaManager

open Lib

/-- The day ended more than one day beyond these days before now. -/
def overdueDay (z : Location) (now : Instant) (retentionDays day : Int) : Bool :=
  let due := (day + 1 + retentionDays + 1) * 86400
  decide (due < z.civil now) || (due == z.civil now && decide (0 < now.nsec))

/-- The subdirectory is of such a day. -/
def overdue (z : Location) (now : Instant) (retentionDays : Int) (e : DirEntry) : Bool :=
  e.isDir &&
    match Date.parse e.name.toList with
    | none => false
    | some date => overdueDay z now retentionDays date.number

section

variable {z : Location} {now : Clock} {n : Int} {e : DirEntry}

/-- The number of an overdue day. -/
theorem overdue_iff : overdue z now.toInstant n e = true ↔
    e.isDir = true ∧ ∃ date, Date.parse e.name.toList = some date ∧
      ((date.number + n + 2) * 86400 < z.civil now.toInstant ∨
        (date.number + n + 2) * 86400 = z.civil now.toInstant ∧ 0 < now.nsec) := by
  have hdue : ∀ k : Int, (k + 1 + n + 1) * 86400 = (k + n + 2) * 86400 := by omega
  unfold overdue
  cases hdate : Date.parse e.name.toList with
  | none => simp
  | some date => simp [overdueDay, hdue]

/-- The days before an overdue day and today. -/
theorem overdue_range (z : Location) (now : Clock) {date : Date}
    (hdate : Date.parse e.name.toList = some date) (hn : 1 ≤ n)
    (h : (date.number + n + 2) * 86400 ≤ z.civil now.toInstant) :
    ∃ o, z.unixOf (z.civil now.toInstant + -n * 86400) =
        z.civil now.toInstant + -n * 86400 - o ∧ 60 * z.least ≤ o ∧ o < 60 * z.least + 86400 ∧
      -720000 ≤ date.number ∧ z.civil now.toInstant ≤ 2 ^ 62 + 172800 := by
  obtain ⟨o, ho, hlo, hhi⟩ := z.civil_eq now.toInstant
  have hleast := z.least_range
  have hclock := now.range
  obtain ⟨hfirst, -⟩ := Date.parse_range hdate
  obtain ⟨o', ho', hlo', hhi'⟩ := z.unixOf_eq (z.civil now.toInstant + -n * 86400)
    (decide_eq_true (by omega))
  exact ⟨o', ho', hlo', hhi', hfirst, by omega⟩

/-- `audit.Cleanup` removes what is overdue. -/
theorem expired_cleanup (hn : 1 ≤ n) (h : overdue z now.toInstant n e = true) :
    expired z (z.addDays now.toInstant (-n)) e = true := by
  obtain ⟨hdir, date, hdate, hdue⟩ := overdue_iff.1 h
  obtain ⟨o, ho, hlo, hhi, hfirst, hcivil⟩ := overdue_range z now hdate hn (by omega)
  obtain ⟨o', ho', hlo', hhi'⟩ := z.unixOf_eq (date.number * 86400)
    (decide_eq_true (by omega))
  have hleast := z.least_range
  have hsec : (z.midnight date.number).sec = date.number * 86400 - o' + unixToInternal := by
    rw [Location.midnight, ho']
    exact Instant.sec_ofUnix (by omega)
  have hcutoff : (z.addDays now.toInstant (-n)).sec =
      z.civil now.toInstant + -n * 86400 - o + unixToInternal := by
    show (Instant.ofUnix (z.unixOf (z.civil now.toInstant + -n * 86400))).sec = _
    rw [ho]
    exact Instant.sec_ofUnix (by omega)
  have hbefore : (z.midnight date.number).before (z.addDays now.toInstant (-n)) = true := by
    rw [Instant.before, hsec, hcutoff, Bool.or_eq_true, decide_eq_true_eq]
    omega
  simp [expired, hdir, hdate, hbefore]

/-- `CleanupBackups` removes it, too. -/
theorem expired_cleanupBackups (hn : 1 ≤ n) (h : overdue z now.toInstant n e = true) :
    expired z (z.midnight (z.day (z.addDays now.toInstant (-n)))) e = true := by
  obtain ⟨hdir, date, hdate, hdue⟩ := overdue_iff.1 h
  obtain ⟨o, ho, hlo, hhi, hfirst, hcivil⟩ := overdue_range z now hdate hn (by omega)
  obtain ⟨o', ho', hlo', hhi'⟩ := z.civil_eq (z.addDays now.toInstant (-n))
  have hleast := z.least_range
  have hunix : (z.addDays now.toInstant (-n)).unix = z.civil now.toInstant + -n * 86400 - o := by
    show Int.bmod ((Instant.ofUnix (z.unixOf (z.civil now.toInstant + -n * 86400))).sec -
      unixToInternal) (2 ^ 64) = _
    rw [ho, Instant.sec_ofUnix (by omega), Int.add_sub_cancel]
    exact bmod_of_fits (decide_eq_true (by omega))
  have hday : date.number + 1 ≤ z.day (z.addDays now.toInstant (-n)) ∧
      z.day (z.addDays now.toInstant (-n)) * 86400 ≤ 2 ^ 62 + 500000 := by
    rw [Location.day, ho', hunix]
    omega
  have hbefore := z.midnight_before (k := date.number) (by omega) (by omega) hday.2
  simp [expired, hdir, hdate, hbefore]

end

/-! ## The cleanups on a disk -/

section

variable {z : Location} {cutoff : Instant} {directory : String} {k : Disk}

/-- A directory has no more entries than before. -/
def Disk.Within (k k' : Disk) : Prop :=
  ∀ directory es', k'.dirs directory = some es' →
    ∃ es, k.dirs directory = some es ∧ es' ⊆ es

theorem Disk.Within.refl (k : Disk) : k.Within k := fun _ es h => ⟨es, h, List.Subset.refl _⟩

theorem Disk.Within.trans {k₁ k₂ k₃ : Disk} (h : k₁.Within k₂) (h' : k₂.Within k₃) :
    k₁.Within k₃ := by
  intro directory es₃ h₃
  obtain ⟨es₂, h₂, hsub⟩ := h' directory es₃ h₃
  obtain ⟨es₁, h₁, hsub'⟩ := h directory es₂ h₂
  exact ⟨es₁, h₁, List.Subset.trans hsub hsub'⟩

theorem Disk.dirs_removeAll (name : String) : (k.removeAll directory name).dirs directory =
    (k.dirs directory).map fun es => es.filter fun e => e.name != name :=
  Function.update_self ..

theorem Disk.within_removeAll (name : String) : k.Within (k.removeAll directory name) := by
  intro d es' h
  by_cases hd : d = directory
  · subst hd
    rw [dirs_removeAll] at h
    obtain ⟨es, hes, rfl⟩ := Option.map_eq_some_iff.1 h
    exact ⟨es, hes, List.filter_subset_self _⟩
  · have hsame : (k.removeAll directory name).dirs d = k.dirs d := Function.update_of_ne hd _ _
    rw [hsame] at h
    exact ⟨es', h, List.Subset.refl _⟩

/-- A program removes at most. -/
theorem DiskProg.on_keeps {α : Type} (p : DiskProg α) (k : Disk) :
    (p.on k).2.file = k.file ∧ k.Within (p.on k).2 := by
  have hcall : ∀ (c : DiskCall) (k : Disk), (c.exec k).2.file = k.file ∧ k.Within (c.exec k).2 := by
    intro c k
    cases c with
    | load => exact ⟨rfl, Disk.Within.refl k⟩
    | readDir directory => exact ⟨rfl, Disk.Within.refl k⟩
    | removeAll directory name => exact ⟨rfl, Disk.within_removeAll name⟩
  unfold on
  induction p generalizing k with
  | ret a => exact ⟨rfl, Disk.Within.refl k⟩
  | cmd c rest ih =>
      obtain ⟨hfile, hwithin⟩ := hcall c k
      obtain ⟨hfile', hwithin'⟩ := ih (c.exec k).1 (c.exec k).2
      exact ⟨hfile'.trans hfile, hwithin.trans hwithin'⟩

/-- The loop comes to its end, and what it goes over and is before the cutoff
is gone. -/
theorem removeExpired_on (z : Location) (directory : String) (cutoff : Instant)
    (es : List DirEntry) (k : Disk) :
    ((removeExpired z directory cutoff es).on k).1 = none ∧
      ∀ e ∈ es, expired z cutoff e = true →
        ∀ es', ((removeExpired z directory cutoff es).on k).2.dirs directory = some es' →
          e ∉ es' := by
  induction es generalizing k with
  | nil => exact ⟨rfl, fun e he => by cases he⟩
  | cons entry rest ih =>
      by_cases hexpired : expired z cutoff entry = true
      · have heq : (removeExpired z directory cutoff (entry :: rest)).on k =
            (removeExpired z directory cutoff rest).on (k.removeAll directory entry.name) := by
          rw [removeExpired, if_pos hexpired]
          rfl
        obtain ⟨hnone, hgone⟩ := ih (k.removeAll directory entry.name)
        rw [heq]
        refine ⟨hnone, fun e he hold es' hes' => ?_⟩
        rcases List.mem_cons.1 he with rfl | he
        · obtain ⟨-, hwithin⟩ := DiskProg.on_keeps (removeExpired z directory cutoff rest)
            (k.removeAll directory e.name)
          obtain ⟨es, hes, hsub⟩ := hwithin directory es' hes'
          rw [Disk.dirs_removeAll] at hes
          obtain ⟨es₀, -, rfl⟩ := Option.map_eq_some_iff.1 hes
          intro hmem
          simpa using (List.mem_filter.1 (hsub hmem)).2
        · exact hgone e he hold es' hes'
      · have heq : (removeExpired z directory cutoff (entry :: rest)).on k =
            (removeExpired z directory cutoff rest).on k := by
          rw [removeExpired, if_neg hexpired]
        obtain ⟨hnone, hgone⟩ := ih k
        rw [heq]
        refine ⟨hnone, fun e he hold => ?_⟩
        rcases List.mem_cons.1 he with rfl | he
        · exact absurd hold hexpired
        · exact hgone e he hold

theorem cleanupBefore_on (z : Location) (directory : String) (cutoff : Instant) (k : Disk) :
    ((cleanupBefore z directory cutoff).on k).1 = none ∧
      ∀ es', ((cleanupBefore z directory cutoff).on k).2.dirs directory = some es' →
        ∀ e ∈ es', expired z cutoff e = false := by
  cases hdir : k.dirs directory with
  | none =>
      have heq : (cleanupBefore z directory cutoff).on k = (none, k) := by
        simp [cleanupBefore, DiskProg.on, DiskCall.call, DiskCall.exec, hdir]
      rw [heq]
      refine ⟨rfl, fun es' hes' => ?_⟩
      rw [hdir] at hes'
      cases hes'
  | some es =>
      have heq : (cleanupBefore z directory cutoff).on k =
          (removeExpired z directory cutoff es).on k := by
        simp [cleanupBefore, DiskProg.on, DiskCall.call, DiskCall.exec, hdir]
      obtain ⟨hnone, hgone⟩ := removeExpired_on z directory cutoff es k
      obtain ⟨-, hwithin⟩ := DiskProg.on_keeps (removeExpired z directory cutoff es) k
      rw [heq]
      refine ⟨hnone, fun es' hes' e he => ?_⟩
      obtain ⟨es₀, hes₀, hsub⟩ := hwithin directory es' hes'
      rw [hdir] at hes₀
      obtain rfl := Option.some.inj hes₀
      rw [← Bool.not_eq_true]
      exact fun hold => hgone e (hsub he) hold es' hes' he

end

/-! ## Runs -/

section

variable {gcm : Gcm} {secret : List UInt8} {z : Location} {backupDir : String}

/-- Nothing in the directory is overdue. -/
def Disk.timely (k : Disk) (z : Location) (directory : String) (now : Instant)
    (retentionDays : Int) : Bool :=
  match k.dirs directory with
  | none => true
  | some es => es.all fun e => !overdue z now retentionDays e

theorem Disk.timely_iff {k : Disk} {directory : String} {now : Instant} {n : Int} :
    k.timely z directory now n = true ↔
      ∀ es, k.dirs directory = some es → ∀ e ∈ es, overdue z now n e = false := by
  unfold timely
  cases k.dirs directory with
  | none => simp
  | some es => simp

theorem Disk.timely_of_within {k k' : Disk} {directory : String} {now : Instant} {n : Int}
    (h : k.timely z directory now n = true) (hwithin : k.Within k') :
    k'.timely z directory now n = true := by
  rw [timely_iff] at h ⊢
  intro es' hes' e he
  obtain ⟨es, hes, hsub⟩ := hwithin directory es' hes'
  exact h es hes e (hsub he)

/-- A cleanup whose cutoff is after what is overdue. -/
theorem cleanupBefore_timely {directory : String} {cutoff : Instant} {n : Int} {now : Clock}
    (hcutoff : ∀ e, overdue z now.toInstant n e = true → expired z cutoff e = true) (k : Disk) :
    ((cleanupBefore z directory cutoff).on k).2.timely z directory now.toInstant n = true := by
  obtain ⟨-, hgone⟩ := cleanupBefore_on z directory cutoff k
  refine Disk.timely_iff.2 fun es hes e he => ?_
  rw [← Bool.not_eq_true]
  intro hold
  have hkept := hgone es hes e he
  rw [hcutoff e hold] at hkept
  cases hkept

theorem cleanupConfigBackups_on (z : Location) (backupDir : String) (now : Clock) {k : Disk}
    (hvalid : 1 ≤ k.file.audit.configBackupRetentionDays) :
    ((cleanupConfigBackups z backupDir now.toInstant).on k).2.timely z backupDir now.toInstant
      k.file.audit.configBackupRetentionDays = true := by
  have heq : ((cleanupConfigBackups z backupDir now.toInstant).on k).2 =
      ((cleanupBackups z backupDir k.file.audit.configBackupRetentionDays now.toInstant).on k).2 := by
    simp only [cleanupConfigBackups, DiskProg.on, DiskCall.call, Prog.call_bind, Prog.exec_cmd,
      DiskCall.exec, Prog.exec_bind]
    rfl
  rw [heq]
  exact cleanupBefore_timely (fun e => expired_cleanupBackups hvalid) k

theorem retention_pos {cfg : Config} (h : cfg.validate = none) :
    1 ≤ cfg.audit.retentionDays ∧ 1 ≤ cfg.audit.configBackupRetentionDays := by
  unfold Config.validate at h
  split at h
  · cases h
  · split at h
    · cases h
    · split at h
      · cases h
      · split at h
        · cases h
        · split at h
          · cases h
          · split at h
            · cases h
            · split at h
              · cases h
              · omega

theorem runtime_audit {key : List UInt8} {c cfg : Config} (h : runtime gcm c key = .ok cfg) :
    cfg.audit = c.audit := by
  unfold runtime at h
  split at h
  · cases h
  · obtain rfl := Except.ok.inj h
    rfl

/-- After the start-up the backups are timely, and the audit directory is if it
was before or is in use. -/
theorem startUp_on {now : Clock} {k k' : Disk} {cfg : Config} (hvalid : k.file.validate = none)
    (h : (startUp gcm secret z backupDir now.toInstant).on k = (some cfg, k')) :
    cfg.audit = k.file.audit ∧
      k'.timely z backupDir now.toInstant k.file.audit.configBackupRetentionDays = true ∧
      (k.file.audit.auditing = true ∨
          k.timely z k.file.audit.directory now.toInstant k.file.audit.retentionDays = true →
        k'.timely z cfg.audit.directory now.toInstant k.file.audit.retentionDays = true) := by
  obtain ⟨hretention, hbackups⟩ := retention_pos hvalid
  have htimely := cleanupConfigBackups_on z backupDir now hbackups
  simp only [startUp, DiskProg.on, DiskCall.call, Prog.call_bind, Prog.exec_cmd, DiskCall.exec] at h
  cases hruntime : runtime gcm k.file secret with
  | error e => simp [hruntime] at h
  | ok runtimeCfg =>
      have haudit := runtime_audit hruntime
      simp only [hruntime, Prog.exec_bind] at h
      split at h
      · split at h
        · simp at h
        · simp only [Prog.exec_bind, Prog.pure_eq, Prog.exec_ret, Prod.mk.injEq,
            Option.some.injEq] at h
          obtain ⟨rfl, rfl⟩ := h
          obtain ⟨-, hwithin⟩ := DiskProg.on_keeps
            (cleanup z runtimeCfg.audit.directory runtimeCfg.audit.retentionDays now.toInstant)
            ((cleanupConfigBackups z backupDir now.toInstant).on k).2
          refine ⟨haudit, Disk.timely_of_within htimely hwithin, fun _ => ?_⟩
          rw [← haudit] at hretention ⊢
          exact cleanupBefore_timely (fun e => expired_cleanup hretention) _
      · next hoff =>
          simp only [Prog.pure_eq, Prog.exec_ret, Prod.mk.injEq, Option.some.injEq] at h
          obtain ⟨rfl, rfl⟩ := h
          refine ⟨haudit, htimely, fun hor => ?_⟩
          rw [haudit] at hoff ⊢
          rcases hor with hon | hbefore
          · exact absurd hon hoff
          · exact Disk.timely_of_within hbefore (DiskProg.on_keeps _ k).2

/-! ### Written and kept days -/

/-- The day of a dated subdirectory. -/
def datedDay (e : DirEntry) : Option Int :=
  if e.isDir then (Date.parse e.name.toList).map Date.number else none

theorem datedDay_iff {e : DirEntry} {day : Int} : datedDay e = some day ↔
    e.isDir = true ∧ ∃ date, Date.parse e.name.toList = some date ∧ date.number = day := by
  unfold datedDay
  split
  · next hdir => simp [hdir]
  · next hdir => simp [hdir]

theorem datedDay_of_overdue {e : DirEntry} {now : Instant} {n : Int}
    (h : overdue z now n e = true) :
    ∃ day, datedDay e = some day ∧ overdueDay z now n day = true := by
  obtain ⟨hdir, hdate⟩ := Bool.and_eq_true_iff.1 h
  split at hdate
  · cases hdate
  · next date hparse => exact ⟨_, datedDay_iff.2 ⟨hdir, date, hparse, rfl⟩, hdate⟩

/-- The subdirectory of today. -/
theorem datedDay_format {now : Instant} {day : Int}
    (h : datedDay ⟨z.format now, true⟩ = some day) : day = z.day now := by
  obtain ⟨-, date, hdate, rfl⟩ := datedDay_iff.1 h
  obtain ⟨hvalid, hnumber⟩ := Date.ofNumber_spec (z.day now)
  rw [Location.format, String.toList_ofList] at hdate
  rw [Date.parse_of_format hvalid hdate, hnumber]

theorem expired_of_dated {e : DirEntry} {cutoff : Instant} {day : Int}
    (h : datedDay e = some day) : expired z cutoff e = (z.midnight day).before cutoff := by
  obtain ⟨hdir, date, hdate, rfl⟩ := datedDay_iff.1 h
  rw [expired, hdir, hdate, Bool.true_and]

/-- A process, and the days of each directory by what has happened: what the
directory had at the beginning and what has been written to it, less what a
start-up with auditing was to remove. -/
structure Chronicle where
  process : Process
  days : String → List Int

/-- A start-up comes to the cleanup of the audit directory. -/
def Process.startsLog (gcm : Gcm) (secret : List UInt8) (p : Process) : Bool :=
  (runtime gcm p.disk.file secret).toOption.isSome && p.disk.file.audit.auditing &&
    p.disk.file.audit.directory != ""

def Chronicle.write (z : Location) (c : Chronicle) (directory : String) (now : Clock) :
    String → List Int :=
  Function.update c.days directory (z.day now.toInstant :: c.days directory)

/-- What is not before the cutoff of `audit.Cleanup`. -/
def Chronicle.keep (z : Location) (c : Chronicle) (audit : AuditConfig) (now : Clock) :
    String → List Int :=
  Function.update c.days audit.directory ((c.days audit.directory).filter fun day =>
    !(z.midnight day).before (z.addDays now.toInstant (-audit.retentionDays)))

def Chronicle.step (gcm : Gcm) (secret : List UInt8) (z : Location) (backupDir : String)
    (c : Chronicle) (e : ProcessEvent) : Chronicle where
  process := c.process.step gcm secret z backupDir e
  days :=
    match e with
    | .start now =>
        if c.process.startsLog gcm secret then c.keep z c.process.disk.file.audit now else c.days
    | .audit now =>
        match c.process.running with
        | none => c.days
        | some cfg => if cfg.audit.auditing then c.write z cfg.audit.directory now else c.days
    | .save now _ => if c.process.running.isNone then c.days else c.write z backupDir now
    | .reload _ | .tick _ => c.days

/-- Before the process starts. -/
def FreshChronicle (c : Chronicle) : Prop :=
  FreshProcess c.process ∧
    ∀ directory, c.days directory = ((c.process.disk.dirs directory).getD []).filterMap datedDay

theorem Chronicle.process_run (c : Chronicle) (es : List ProcessEvent) :
    (run (Chronicle.step gcm secret z backupDir) c es).process =
      run (Process.step gcm secret z backupDir) c.process es := by
  induction es generalizing c with
  | nil => rfl
  | cons e es ih => exact ih (c.step gcm secret z backupDir e)

/-- A step the ticker's omission does not matter to: by the time of a tick, or
of a start-up without auditing, the retention then configured has passed over
none of the days kept or written. -/
def inRetention (z : Location) (c : Chronicle) : ProcessEvent → Bool
  | .start now =>
      let audit := c.process.disk.file.audit
      audit.auditing ||
        (c.days audit.directory).all fun day =>
          !overdueDay z now.toInstant audit.retentionDays day
  | .tick now =>
      match c.process.running with
      | none => true
      | some cfg =>
          (c.days cfg.audit.directory).all fun day =>
            !overdueDay z now.toInstant c.process.disk.file.audit.retentionDays day
  | .audit _ | .save .. | .reload _ => true

/-- After a start-up and after a tick nothing is overdue in either directory,
by the configuration the file then holds. -/
def Retained (z : Location) (backupDir : String) (p : Process) : Prop :=
  ∀ now, p.swept = some now →
    (∀ es, p.disk.dirs backupDir = some es → ∀ e ∈ es,
      overdue z now.toInstant p.disk.file.audit.configBackupRetentionDays e = false) ∧
    ∀ cfg, p.running = some cfg → ∀ es, p.disk.dirs cfg.audit.directory = some es → ∀ e ∈ es,
      overdue z now.toInstant p.disk.file.audit.retentionDays e = false

/-- The dated subdirectories are of these days. -/
def Disk.DatedBy (k : Disk) (days : String → List Int) : Prop :=
  ∀ directory es, k.dirs directory = some es → ∀ e ∈ es, ∀ day, datedDay e = some day →
    day ∈ days directory

section

variable {k k' : Disk} {days : String → List Int}

theorem Disk.DatedBy.within (h : k.DatedBy days) (hwithin : k.Within k') : k'.DatedBy days := by
  intro directory es' hes' e he
  obtain ⟨es, hes, hsub⟩ := hwithin directory es' hes'
  exact h directory es hes e (hsub he)

theorem Disk.DatedBy.timely {directory : String} {now : Instant} {n : Int} (h : k.DatedBy days)
    (hdays : ((days directory).all fun day => !overdueDay z now n day) = true) :
    k.timely z directory now n = true := by
  refine timely_iff.2 fun es hes e he => ?_
  rw [← Bool.not_eq_true]
  intro hold
  obtain ⟨day, hday, hover⟩ := datedDay_of_overdue hold
  have hin := List.all_eq_true.1 hdays day (h directory es hes e he day hday)
  rw [hover] at hin
  cases hin

theorem Disk.mem_mkdirAll {directory name d : String} {es' : List DirEntry} {e : DirEntry}
    (h : (k.mkdirAll directory name).dirs d = some es') (he : e ∈ es') :
    (∃ es, k.dirs d = some es ∧ e ∈ es) ∨ (d = directory ∧ e = ⟨name, true⟩) := by
  have hset : ∀ es, (k.setDir directory (some (⟨name, true⟩ :: es))).dirs d = some es' →
      (∀ e ∈ es, ∃ es, k.dirs directory = some es ∧ e ∈ es) →
        (∃ es, k.dirs d = some es ∧ e ∈ es) ∨ (d = directory ∧ e = ⟨name, true⟩) := by
    intro es hes hold
    by_cases hd : d = directory
    · subst hd
      have hes' : (k.setDir d (some (⟨name, true⟩ :: es))).dirs d =
        some (⟨name, true⟩ :: es) := Function.update_self ..
      obtain rfl := Option.some.inj (hes'.symm.trans hes)
      rcases List.mem_cons.1 he with rfl | he
      · exact .inr ⟨rfl, rfl⟩
      · exact .inl (hold e he)
    · have hsame : (k.setDir directory (some (⟨name, true⟩ :: es))).dirs d = k.dirs d :=
        Function.update_of_ne hd _ _
      rw [hsame] at hes
      exact .inl ⟨es', hes, he⟩
  unfold mkdirAll at h
  split at h
  · exact hset [] h fun e he => absurd he List.not_mem_nil
  · next es hes =>
      split at h
      · exact .inl ⟨es', h, he⟩
      · exact hset es h fun e he => ⟨es, hes, he⟩

/-- A record or a backup of today. -/
theorem Disk.DatedBy.mkdirAll {c : Chronicle} (h : k.DatedBy c.days) (directory : String)
    (now : Clock) :
    (k.mkdirAll directory (z.format now.toInstant)).DatedBy (c.write z directory now) := by
  intro d es' hes' e he day hday
  rcases Disk.mem_mkdirAll hes' he with ⟨es, hes, he⟩ | ⟨rfl, rfl⟩
  · have hin := h d es hes e he day hday
    by_cases hd : d = directory
    · subst hd
      rw [Chronicle.write, Function.update_self]
      exact List.mem_cons_of_mem _ hin
    · rw [Chronicle.write, Function.update_of_ne hd]
      exact hin
  · rw [Chronicle.write, Function.update_self, datedDay_format hday]
    exact List.mem_cons_self

/-- The start-up has cleaned the audit directory. -/
theorem Disk.DatedBy.keep {c : Chronicle} {audit : AuditConfig} {now : Clock}
    (h : k.DatedBy c.days)
    (hgone : ∀ es, k.dirs audit.directory = some es → ∀ e ∈ es,
      expired z (z.addDays now.toInstant (-audit.retentionDays)) e = false) :
    k.DatedBy (c.keep z audit now) := by
  intro d es hes e he day hday
  have hin := h d es hes e he day hday
  by_cases hd : d = audit.directory
  · subst hd
    have hkept := hgone es hes e he
    rw [expired_of_dated hday] at hkept
    rw [Chronicle.keep, Function.update_self, List.mem_filter, hkept]
    exact ⟨hin, rfl⟩
  · rw [Chronicle.keep, Function.update_of_ne hd]
    exact hin

end

/-- What a start-up leaves that comes to the cleanup of the audit directory. -/
theorem startUp_gone (z : Location) (backupDir : String) (now : Clock) {p : Process}
    (h : p.startsLog gcm secret = true) :
    ∀ es, ((startUp gcm secret z backupDir now.toInstant).on p.disk).2.dirs
        p.disk.file.audit.directory = some es → ∀ e ∈ es,
      expired z (z.addDays now.toInstant (-p.disk.file.audit.retentionDays)) e = false := by
  simp only [Process.startsLog, Bool.and_eq_true, bne_iff_ne] at h
  obtain ⟨⟨hok, hauditing⟩, hdirectory⟩ := h
  cases hruntime : runtime gcm p.disk.file secret with
  | error e => simp [hruntime, Except.toOption] at hok
  | ok cfg =>
      have haudit := runtime_audit hruntime
      have heq : ((startUp gcm secret z backupDir now.toInstant).on p.disk).2 =
          ((cleanup z cfg.audit.directory cfg.audit.retentionDays now.toInstant).on
            ((cleanupConfigBackups z backupDir now.toInstant).on p.disk).2).2 := by
        rw [← haudit] at hauditing hdirectory
        simp only [startUp, DiskProg.on, DiskCall.call, Prog.call_bind, Prog.exec_cmd,
          DiskCall.exec, hruntime, Prog.exec_bind, if_pos hauditing, if_neg hdirectory]
        rfl
      obtain ⟨-, hgone⟩ := cleanupBefore_on z cfg.audit.directory
        (z.addDays now.toInstant (-cfg.audit.retentionDays))
        ((cleanupConfigBackups z backupDir now.toInstant).on p.disk).2
      rw [heq, ← haudit]
      exact hgone

structure ChronicleInv (z : Location) (backupDir : String) (c : Chronicle) : Prop where
  valid : c.process.disk.file.validate = none
  retained : Retained z backupDir c.process
  dated : c.process.disk.DatedBy c.days

theorem Disk.file_mkdirAll (k : Disk) (directory name : String) :
    (k.mkdirAll directory name).file = k.file := by
  unfold mkdirAll
  split
  · rfl
  · split <;> rfl

theorem retained_of_none {p : Process} (h : p.swept = none) : Retained z backupDir p := by
  intro now hnow
  rw [h] at hnow
  cases hnow

theorem ChronicleInv.step {c : Chronicle} (hc : ChronicleInv z backupDir c) {e : ProcessEvent}
    (he : inRetention z c e = true) :
    ChronicleInv z backupDir (c.step gcm secret z backupDir e) := by
  cases e with
  | start now =>
      obtain ⟨hfile, hwithin⟩ :=
        DiskProg.on_keeps (startUp gcm secret z backupDir now.toInstant) c.process.disk
      refine ⟨(congrArg Config.validate hfile).trans hc.valid, fun now' hnow' => ?_, ?_⟩
      · cases hstart : (startUp gcm secret z backupDir now.toInstant).on c.process.disk with
        | mk running disk =>
            rw [hstart] at hfile
            simp only [Chronicle.step, Process.step, hstart] at hnow' ⊢
            cases running with
            | none => cases hnow'
            | some cfg =>
                obtain rfl : now = now' := Option.some.inj hnow'
                obtain ⟨haudit, hbackups, hdirectory⟩ := startUp_on hc.valid hstart
                rw [hfile]
                refine ⟨Disk.timely_iff.1 hbackups, fun cfg' hcfg' => ?_⟩
                obtain rfl := Option.some.inj hcfg'
                exact Disk.timely_iff.1 (hdirectory ((Bool.or_eq_true_iff.1 he).imp_right
                  hc.dated.timely))
      · simp only [Chronicle.step]
        split
        · next hlog => exact (hc.dated.within hwithin).keep (startUp_gone z backupDir now hlog)
        · exact hc.dated.within hwithin
  | audit now =>
      cases hrunning : c.process.running with
      | none =>
          simp only [Chronicle.step, Process.step, hrunning]
          exact ⟨hc.valid, retained_of_none rfl, hc.dated⟩
      | some cfg =>
          simp only [Chronicle.step, Process.step, hrunning]
          split
          · exact ⟨(congrArg Config.validate (Disk.file_mkdirAll ..)).trans hc.valid,
              retained_of_none rfl, hc.dated.mkdirAll _ now⟩
          · exact ⟨hc.valid, retained_of_none rfl, hc.dated⟩
  | save now new =>
      simp only [Chronicle.step, Process.step]
      split
      · exact ⟨hc.valid, retained_of_none rfl, hc.dated⟩
      · exact ⟨new.valid, retained_of_none rfl, hc.dated.mkdirAll backupDir now⟩
  | reload new => exact ⟨new.valid, retained_of_none rfl, hc.dated⟩
  | tick now =>
      simp only [Chronicle.step, Process.step]
      split
      · exact ⟨hc.valid, retained_of_none rfl, hc.dated⟩
      · obtain ⟨hfile, hwithin⟩ := DiskProg.on_keeps
          (cleanupConfigBackups z backupDir now.toInstant) c.process.disk
        refine ⟨(congrArg Config.validate hfile).trans hc.valid, fun now' hnow' => ?_,
          hc.dated.within hwithin⟩
        obtain rfl : now = now' := Option.some.inj hnow'
        have hbackups := cleanupConfigBackups_on z backupDir now (retention_pos hc.valid).2
        simp only [hfile]
        refine ⟨Disk.timely_iff.1 hbackups, fun cfg hcfg => ?_⟩
        simp only [inRetention, hcfg] at he
        exact Disk.timely_iff.1 (Disk.timely_of_within (hc.dated.timely he) hwithin)

theorem chronicleInv {c : Chronicle}
    (hc : Reach (Chronicle.step gcm secret z backupDir) (inRetention z) FreshChronicle c) :
    ChronicleInv z backupDir c := by
  refine hc.invariant ?_ fun c e h he => h.step he
  rintro c ⟨⟨-, hswept, hvalid⟩, hdays⟩
  refine ⟨hvalid, retained_of_none hswept, fun directory es hes e he day hday => ?_⟩
  rw [hdays, hes]
  exact List.mem_filterMap.2 ⟨e, he, hday⟩

end

/-! ## The results -/

/-- A configuration that keeps audit records for a day. -/
def dayConfig : Config :=
  { Api.hoursConfig 12 with audit := { defaultConfig.audit with retentionDays := 1 } }

theorem dayConfig_valid : dayConfig.validate = none := by
  have hadmin : isBlank "admin" = false := not_blank rfl (by decide)
  have ha : isBlank "a" = false := not_blank rfl (by decide)
  have hbroker : isBlank "k1:9092" = false := not_blank rfl (by decide)
  unfold dayConfig Api.hoursConfig Config.validate
  simp [defaultConfig, plainCluster, validateClusters, validateCluster, hadmin, ha, hbroker]

/-- Noon, so many days after 2026-07-13. -/
def noon (day : Fin 8) : Clock :=
  { Instant.ofUnix ((20647 + day.val) * 86400 + 43200) with
    range := by
      revert day
      decide }

/-- A container with UTC, its configuration in clear. -/
abbrev dayStep : Process → ProcessEvent → Process :=
  Process.step closedGcm [] (Location.fixed 0 Location.zero_range) "data/config-backups"

/-- The first start-up ever. -/
def beforeStart : Process where
  disk := { dirs := fun _ => none, file := dayConfig }
  running := none
  swept := none

theorem beforeStart_fresh : FreshProcess beforeStart := ⟨rfl, rfl, dayConfig_valid⟩

/-- A day with a record, and the ticks after it. -/
def days (n : Fin 8) : List ProcessEvent :=
  .start (noon 0) :: .audit (noon 0) ::
    (((List.finRange 8).filter fun i => 0 < i ∧ i ≤ n).map fun i => .tick (noon i))

/-- What the process is after a tick. -/
theorem swept_tick {p : Process} {cfg : Config} (h : p.running = some cfg) (now : Clock) :
    (dayStep p (.tick now)).swept = some now := by
  simp [dayStep, Process.step, h]

theorem days_facts : (run dayStep beforeStart (days 2)).running = some dayConfig ∧
    (run dayStep beforeStart (days 3)).running = some dayConfig ∧
    (run dayStep beforeStart (days 3)).disk.dirs "./data/audit" = some [⟨"2026-07-13", true⟩] ∧
    overdue (Location.fixed 0 Location.zero_range) (noon 3).toInstant 1 ⟨"2026-07-13", true⟩ = true ∧
    (run dayStep beforeStart (days 3)).disk.file.audit.retentionDays = 1 := by
  decide +kernel

/-- Records are kept for a day, and on the third day after a tick they are
still there. -/
theorem retention_enforced_days :
    Reach dayStep (fun _ _ => true) FreshProcess (run dayStep beforeStart (days 3)) ∧
      ¬ Retained (Location.fixed 0 Location.zero_range) "data/config-backups"
        (run dayStep beforeStart (days 3)) := by
  obtain ⟨hbefore, hrunning, hdirs, hoverdue, hretention⟩ := days_facts
  refine ⟨(Reach.init beforeStart_fresh).run_any (days 3), fun h => ?_⟩
  have hlast : days 3 = days 2 ++ [.tick (noon 3)] := rfl
  have hswept : (run dayStep beforeStart (days 3)).swept = some (noon 3) := by
    rw [hlast, run_append]
    exact swept_tick hbefore (noon 3)
  obtain ⟨-, haudit⟩ := h (noon 3) hswept
  have hkept := haudit dayConfig hrunning _ hdirs _ (.head _)
  rw [hretention, hoverdue] at hkept
  cases hkept

/-- In every run in which the retention has passed over none of the days kept
or written by the time of a tick, nor of a start-up without auditing, nothing
is overdue in either directory after any of them. -/
theorem retention_enforced (gcm : Gcm) (secret : List UInt8) (z : Location) (backupDir : String)
    {c : Chronicle}
    (hc : Reach (Chronicle.step gcm secret z backupDir) (inRetention z) FreshChronicle c) :
    Retained z backupDir c.process :=
  (chronicleInv hc).retained

/-- Nothing has been written yet. -/
def unwritten : Chronicle := ⟨beforeStart, fun _ => []⟩

abbrev chronicleStep : Chronicle → ProcessEvent → Chronicle :=
  Chronicle.step closedGcm [] (Location.fixed 0 Location.zero_range) "data/config-backups"

/-- On the second day after the record it is still to be there. -/
theorem retention_enforced_two :
    (run dayStep beforeStart (days 2)).swept = some (noon 2) ∧
      (run chronicleStep unwritten (days 2)).days "./data/audit" = [20647] ∧
      Retained (Location.fixed 0 Location.zero_range) "data/config-backups"
        (run dayStep beforeStart (days 2)) := by
  have hlast : days 2 = days 1 ++ [.tick (noon 2)] := rfl
  have hbefore : (run dayStep beforeStart (days 1)).running = some dayConfig := by decide +kernel
  have hmeets : meets chronicleStep (inRetention (Location.fixed 0 Location.zero_range)) unwritten
    (days 2) = true := by decide +kernel
  have hfresh : FreshChronicle unwritten := ⟨beforeStart_fresh, fun _ => rfl⟩
  have hretained := retention_enforced _ _ _ _ ((Reach.init hfresh).run hmeets)
  rw [Chronicle.process_run] at hretained
  refine ⟨?_, by decide +kernel, hretained⟩
  rw [hlast, run_append]
  exact swept_tick hbefore (noon 2)

end KafkaManager
