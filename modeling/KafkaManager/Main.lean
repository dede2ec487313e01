import KafkaManager.Audit.Cleanup

/-!
# The process of `main.go`

What `main` does to the audit directory and to the directory of the backups:
at start-up, and whenever the ticker of 24 hours fires. In between records are
written and configurations are saved, which makes directories for the day, and
the configuration changes. Nothing fails on the disk, and the file always holds
a configuration `Load` accepts; a reload is the moment such a file is written.

`swept` is the time at which the start-up or the tick has ended that was the
last step, if it was one.
-/

namespace KafkaManager

open Lib

/-- A configuration `Load` accepts. -/
structure ValidConfig where
  cfg : Config
  valid : cfg.validate = none

section

variable (gcm : Gcm) (secret : List UInt8) (z : Location) (backupDir : String)

/-- The closure `cleanupBackups` of `main`. -/
def cleanupConfigBackups (now : Instant) : DiskProg Unit := do
  match ← DiskCall.call .load with
  | .error _ => pure ()
  | .ok current =>
      let _ ← cleanupBackups z backupDir current.audit.configBackupRetentionDays now
      pure ()

/-- The guard of `main` around the audit log. -/
def AuditConfig.auditing (a : AuditConfig) : Bool := a.enabled != some false

/-- `main` up to `SetAudit`, with the configuration it goes on with. It may end
with `log.Fatalf` instead. -/
def startUp (now : Instant) : DiskProg (Option Config) := do
  match ← DiskCall.call .load with
  | .error _ => pure none
  | .ok persisted =>
      match runtime gcm persisted secret with
      | .error _ => pure none
      | .ok cfg => do
          cleanupConfigBackups z backupDir now
          if cfg.audit.auditing then
            -- `NewWriter` wants a directory
            if cfg.audit.directory = "" then pure none
            else do
              let _ ← cleanup z cfg.audit.directory cfg.audit.retentionDays now
              pure (some cfg)
          else pure (some cfg)

end

structure Process where
  disk : Disk
  running : Option Config
  swept : Option Clock

inductive ProcessEvent
  | start (now : Clock)
  | audit (now : Clock)
  | save (now : Clock) (new : ValidConfig)
  | reload (new : ValidConfig)
  | tick (now : Clock)

section

variable (gcm : Gcm) (secret : List UInt8) (z : Location) (backupDir : String)

def Process.step (p : Process) : ProcessEvent → Process
  | .start now =>
      let (running, disk) := (startUp gcm secret z backupDir now.toInstant).on p.disk
      { disk, running, swept := if running.isSome then some now else none }
  | .audit now =>
      match p.running with
      | none => { p with swept := none }
      | some cfg =>
          { p with
            disk :=
              if cfg.audit.auditing then
                p.disk.mkdirAll cfg.audit.directory (z.format now.toInstant)
              else p.disk
            swept := none }
  | .save now new =>
      if p.running.isNone then { p with swept := none }
      else
        { p with
          disk := { p.disk.mkdirAll backupDir (z.format now.toInstant) with file := new.cfg }
          swept := none }
  | .reload new => { p with disk := { p.disk with file := new.cfg }, swept := none }
  | .tick now =>
      if p.running.isNone then { p with swept := none }
      else
        { p with
          disk := ((cleanupConfigBackups z backupDir now.toInstant).on p.disk).2
          swept := some now }

end

/-- Before the process starts. -/
def FreshProcess (p : Process) : Prop :=
  p.running = none ∧ p.swept = none ∧ p.disk.file.validate = none

end KafkaManager
