import KafkaManager.Proofs.Retention

/-!
# The two cutoffs

With one offset in force a day is due if the whole of it lies the retention
before now. `CleanupBackups` cuts off at the beginning of a day, and removes
what is due. `Cleanup` cuts off at the time of day it is now, and so it also
removes the day that began before and is not over: unless now is midnight.

A retention of more days than seconds since year 1 can count makes the cutoffs
wrap, and then it depends on where they come out (`CutoffsRight.wrapped`).
-/

namespace KafkaManager

open Lib

/-! ## What a cleanup leaves of a listing -/

section

variable {z : Location} {cutoff : Instant} {directory : String} {k : Disk}

theorem Disk.setDir_self {es : List DirEntry} (h : k.dirs directory = some es) :
    k.setDir directory (some es) = k := by
  rw [setDir, ← h, Function.update_eq_self]

theorem Disk.removeAll_setDir {es : List DirEntry} (name : String) :
    (k.setDir directory (some es)).removeAll directory name =
      k.setDir directory (some (es.filter fun e => e.name != name)) := by
  simp [removeAll, setDir, Function.update_idem]

/-- The loop removes what has the name of an entry it goes over and that is
before the cutoff. -/
theorem removeExpired_setDir (es' es : List DirEntry) :
    (removeExpired z directory cutoff es').on (k.setDir directory (some es)) =
      (none, k.setDir directory (some (es.filter fun e =>
        !es'.any fun e' => expired z cutoff e' && e'.name == e.name))) := by
  induction es' generalizing es with
  | nil => simp [removeExpired, DiskProg.on]
  | cons entry rest ih =>
      by_cases hexpired : expired z cutoff entry = true
      · have heq : (removeExpired z directory cutoff (entry :: rest)).on
              (k.setDir directory (some es)) =
            (removeExpired z directory cutoff rest).on
              ((k.setDir directory (some es)).removeAll directory entry.name) := by
          rw [removeExpired, if_pos hexpired]
          rfl
        rw [heq, Disk.removeAll_setDir, ih, List.filter_filter]
        simp only [List.any_cons, hexpired, Bool.true_and, Bool.not_or, bne, Bool.and_comm,
          BEq.comm (a := entry.name)]
      · have heq : (removeExpired z directory cutoff (entry :: rest)).on
              (k.setDir directory (some es)) =
            (removeExpired z directory cutoff rest).on (k.setDir directory (some es)) := by
          rw [removeExpired, if_neg hexpired]
        rw [heq, ih]
        simp only [List.any_cons, Bool.not_eq_true _ ▸ hexpired, Bool.false_and, Bool.false_or]

/-- With distinct names it removes what is before the cutoff, and nothing else. -/
theorem cleanupBefore_filter {es : List DirEntry} (hlist : k.dirs directory = some es)
    (hnames : (es.map DirEntry.name).Nodup) :
    (cleanupBefore z directory cutoff).on k =
      (none, k.setDir directory (some (es.filter fun e => !expired z cutoff e))) := by
  have heq : (cleanupBefore z directory cutoff).on k =
      (removeExpired z directory cutoff es).on (k.setDir directory (some es)) := by
    rw [Disk.setDir_self hlist]
    simp [cleanupBefore, DiskProg.on, DiskCall.call, DiskCall.exec, hlist]
  have hsame : ∀ e ∈ es, (es.any fun e' => expired z cutoff e' && e'.name == e.name) =
      expired z cutoff e := by
    intro e he
    rw [Bool.eq_iff_iff, List.any_eq_true]
    constructor
    · rintro ⟨e', he', hexpired⟩
      rw [Bool.and_eq_true, beq_iff_eq] at hexpired
      rw [← List.inj_on_of_nodup_map hnames he' he hexpired.2]
      exact hexpired.1
    · exact fun hexpired => ⟨e, he, by simp [hexpired]⟩
  rw [heq, removeExpired_setDir]
  congr 3
  exact List.filter_congr fun e he => by rw [hsame e he]

end

/-! ## The days that are due -/

/-- What a clock with this offset shows, in seconds and without bounds. -/
def wall (minutes : Int) (now : Instant) : Int := now.sec - unixToInternal + 60 * minutes

/-- The subdirectory is of a day of which the whole lies these days before now. -/
def due (minutes : Int) (now : Instant) (retentionDays : Int) (e : DirEntry) : Bool :=
  e.isDir &&
    match Date.parse e.name.toList with
    | none => false
    | some date => decide ((date.number + 1 + retentionDays) * 86400 ≤ wall minutes now)

/-- Both cleanups remove from a listing what is due and nothing else. -/
def RemoveDue {minutes : Int} (hminutes : -1440 < minutes ∧ minutes < 1440) (now : Instant)
    (retentionDays : Int) (k : Disk) (directory : String) (es : List DirEntry) : Prop :=
  let z := Location.fixed minutes hminutes
  let left := (none, k.setDir directory (some (es.filter fun e => !due minutes now retentionDays e)))
  (cleanup z directory retentionDays now).on k = left ∧
    (cleanupBackups z directory retentionDays now).on k = left

/-- The instant so many days before now, as an `int64` of seconds has it. -/
def wrappedCutoff (now : Instant) (retentionDays : Int) : Int :=
  wrap64 (now.sec - retentionDays * 86400)

/-- The time of day at a second. -/
def timeOfDay (minutes sec : Int) : Int := (wrap64 (sec - unixToInternal) + 60 * minutes) % 86400

/-- When the cutoffs are right about a day. -/
structure CutoffsRight (minutes : Int) (now : Instant) (retentionDays day : Int) : Prop where
  /-- Now is midnight, if the day is the one so many days before. -/
  midnight : day = wall minutes now / 86400 - retentionDays →
    wall minutes now % 86400 = 0 ∧ now.nsec = 0
  /-- A cutoff that is, or nearly is, before all instants comes out before the day. -/
  wrapped : now.sec - retentionDays * 86400 < -2 ^ 63 + 86400 →
    -2 ^ 63 ≤ wrappedCutoff now retentionDays -
        timeOfDay minutes (wrappedCutoff now retentionDays) ∧
      (wrappedCutoff now retentionDays < day * 86400 - 60 * minutes + unixToInternal ∨
        wrappedCutoff now retentionDays = day * 86400 - 60 * minutes + unixToInternal ∧
          now.nsec = 0)

section

variable {minutes : Int} {hminutes : -1440 < minutes ∧ minutes < 1440} {now : Instant} {n : Int}

theorem unixOf_fixed (civil : Int) :
    (Location.fixed minutes hminutes).unixOf civil = wrap64 civil - 60 * minutes := rfl

theorem civil_fixed (t : Instant) : (Location.fixed minutes hminutes).civil t =
    wrap64 (t.sec - unixToInternal) + 60 * minutes := rfl

theorem sec_addDays : ((Location.fixed minutes hminutes).addDays now (-n)).sec =
    wrappedCutoff now n := by
  have hsec : ((Location.fixed minutes hminutes).addDays now (-n)).sec =
      wrap64 (wrap64 (wrap64 (now.sec - unixToInternal) + 60 * minutes + -n * 86400) -
        60 * minutes + unixToInternal) := rfl
  have hinner : wrap64 (now.sec - unixToInternal) + 60 * minutes + -n * 86400 =
      wrap64 (now.sec - unixToInternal) + (60 * minutes - n * 86400) := by omega
  have houter : ∀ a : Int, a - 60 * minutes + unixToInternal =
      a + (unixToInternal - 60 * minutes) := fun a => by omega
  rw [hsec, hinner, houter, wrap64_add, Int.add_assoc, wrap64_add, wrappedCutoff]
  congr 1
  omega

/-- The beginning of the day of an instant. -/
theorem sec_midnight_day (t : Instant) : ((Location.fixed minutes hminutes).midnight
    ((Location.fixed minutes hminutes).day t)).sec = wrap64 (t.sec - timeOfDay minutes t.sec) := by
  have hday : (Location.fixed minutes hminutes).day t * 86400 =
      wrap64 (t.sec - unixToInternal) + (60 * minutes - timeOfDay minutes t.sec) := by
    rw [Location.day, civil_fixed, timeOfDay]
    omega
  have hsec : ((Location.fixed minutes hminutes).midnight
      ((Location.fixed minutes hminutes).day t)).sec =
      wrap64 (wrap64 ((Location.fixed minutes hminutes).day t * 86400) - 60 * minutes +
        unixToInternal) := rfl
  have houter : ∀ a : Int, a - 60 * minutes + unixToInternal =
      a + (unixToInternal - 60 * minutes) := fun a => by omega
  rw [hsec, hday, houter, wrap64_add, Int.add_assoc, wrap64_add]
  congr 1
  omega

theorem sec_midnight (hminutes : -1440 < minutes ∧ minutes < 1440) {day : Int}
    (hday : -720000 ≤ day ∧ day ≤ 3000000) :
    ((Location.fixed minutes hminutes).midnight day).sec =
      day * 86400 - 60 * minutes + unixToInternal := by
  rw [Location.midnight, unixOf_fixed, wrap64_fits (by omega) (by omega)]
  exact Instant.sec_ofUnix (by omega)

/-- What the two cutoffs come to for a day. -/
theorem expired_iff (hminutes : -1440 < minutes ∧ minutes < 1440) (now : Instant) (n : Int)
    {e : DirEntry} (hdir : e.isDir = true) {date : Date}
    (hdate : Date.parse e.name.toList = some date) :
    (expired (Location.fixed minutes hminutes)
        ((Location.fixed minutes hminutes).addDays now (-n)) e = true ↔
      date.number * 86400 - 60 * minutes + unixToInternal < wrappedCutoff now n ∨
        date.number * 86400 - 60 * minutes + unixToInternal = wrappedCutoff now n ∧
          0 < now.nsec) ∧
    (expired (Location.fixed minutes hminutes) ((Location.fixed minutes hminutes).midnight
        ((Location.fixed minutes hminutes).day
          ((Location.fixed minutes hminutes).addDays now (-n)))) e = true ↔
      date.number * 86400 - 60 * minutes + unixToInternal <
        wrap64 (wrappedCutoff now n - timeOfDay minutes (wrappedCutoff now n))) := by
  have hmidnight := sec_midnight hminutes (Date.parse_range hdate)
  have hzero : ((Location.fixed minutes hminutes).midnight date.number).nsec = 0 := rfl
  have hnsec : ((Location.fixed minutes hminutes).addDays now (-n)).nsec = now.nsec := rfl
  constructor
  · simp only [expired, hdir, hdate, Bool.true_and, Instant.before, hmidnight, sec_addDays, hzero,
      hnsec, Bool.or_eq_true, Bool.and_eq_true, decide_eq_true_eq, beq_iff_eq]
  · have hcutoff : ((Location.fixed minutes hminutes).midnight
        ((Location.fixed minutes hminutes).day
          ((Location.fixed minutes hminutes).addDays now (-n)))).nsec = 0 := rfl
    simp only [expired, hdir, hdate, Bool.true_and, Instant.before, hmidnight, sec_midnight_day,
      sec_addDays, hzero, hcutoff, Int.lt_irrefl, decide_false, Bool.and_false, Bool.or_false,
      decide_eq_true_eq]

theorem due_iff {e : DirEntry} (hdir : e.isDir = true) {date : Date}
    (hdate : Date.parse e.name.toList = some date) :
    due minutes now n e = true ↔ date.number * 86400 - 60 * minutes + unixToInternal + 86400 ≤
      now.sec - n * 86400 := by
  rw [due, hdir, hdate, Bool.true_and, decide_eq_true_iff, wall]
  omega

theorem timeOfDay_range (minutes sec : Int) :
    0 ≤ timeOfDay minutes sec ∧ timeOfDay minutes sec < 86400 := by
  unfold timeOfDay
  omega

/-- Both cutoffs are right about a day. -/
theorem cutoffsRight_iff (now : Instant) (hminutes : -1440 < minutes ∧ minutes < 1440)
    (hn : 1 ≤ n) {day first : Int} (hday : -720000 ≤ day ∧ day ≤ 3000000)
    (hfirst : first = day * 86400 - 60 * minutes + unixToInternal) :
    ((first < wrappedCutoff now n ∨ first = wrappedCutoff now n ∧ 0 < now.nsec) ↔
        first + 86400 ≤ now.sec - n * 86400) ∧
      (first < wrap64 (wrappedCutoff now n - timeOfDay minutes (wrappedCutoff now n)) ↔
        first + 86400 ≤ now.sec - n * 86400) ↔
    CutoffsRight minutes now n day := by
  have hconst : unixToInternal = 62135596800 := rfl
  have hsec := now.sec_fits
  simp only [fits64, decide_eq_true_eq] at hsec
  have hnsec := now.nsec_range.1
  rcases Int.lt_or_le (now.sec - n * 86400) (-2 ^ 63 + 86400) with hfar | hnear
  · -- nothing is due, and the cutoff may come out anywhere
    have hrange := wrap64_range (now.sec - n * 86400)
    have htime := timeOfDay_range minutes (wrappedCutoff now n)
    rw [← wrappedCutoff] at hrange
    have hnotDue : ¬ first + 86400 ≤ now.sec - n * 86400 := by omega
    have hother : day ≠ wall minutes now / 86400 - n := by
      unfold wall
      omega
    have hright : CutoffsRight minutes now n day ↔
        -2 ^ 63 ≤ wrappedCutoff now n - timeOfDay minutes (wrappedCutoff now n) ∧
          (wrappedCutoff now n < first ∨ wrappedCutoff now n = first ∧ now.nsec = 0) := by
      rw [hfirst]
      exact ⟨fun h => h.wrapped hfar, fun h => ⟨fun hday => absurd hday hother, fun _ => h⟩⟩
    simp only [hnotDue, iff_false, hright]
    generalize wrappedCutoff now n = cutoff at hrange htime
    generalize timeOfDay minutes cutoff = time at htime
    rcases Int.lt_or_le (cutoff - time) (-2 ^ 63) with hwraps | hfits
    · rw [wrap64_small (by omega) hwraps]
      omega
    · rw [wrap64_fits hfits (by omega)]
      omega
  · have hcutoff : wrappedCutoff now n = now.sec - n * 86400 := wrap64_fits (by omega) (by omega)
    have hright : CutoffsRight minutes now n day ↔
        (day = wall minutes now / 86400 - n → wall minutes now % 86400 = 0 ∧ now.nsec = 0) :=
      ⟨fun h => h.midnight, fun h => ⟨h, fun hfar => absurd hfar (Int.not_lt.2 hnear)⟩⟩
    have htime := timeOfDay_range minutes (now.sec - n * 86400)
    rw [hright, hcutoff, wrap64_fits (by omega) (by omega), wall]
    rcases Int.lt_or_le (now.sec - n * 86400 - unixToInternal) (-2 ^ 63) with hold | hrecent
    · -- centuries before the first day that has a name
      omega
    · rw [timeOfDay, wrap64_fits hrecent (by omega)]
      omega

end

theorem setDir_filter_iff {k : Disk} {directory : String} {es : List DirEntry}
    {p q : DirEntry → Bool} :
    ((none : Option FileError), k.setDir directory (some (es.filter fun e => !p e))) =
        (none, k.setDir directory (some (es.filter fun e => !q e))) ↔
      ∀ e ∈ es, p e = q e := by
  constructor
  · intro h e he
    have hdirs := congrArg (fun k : Disk => k.dirs directory) (Prod.mk.inj h).2
    simp only [Disk.setDir, Function.update_self, Option.some.injEq] at hdirs
    have hmem : e ∈ es.filter (fun e => !p e) ↔ e ∈ es.filter fun e => !q e := by rw [hdirs]
    simpa [he, ← Bool.eq_iff_iff] using hmem
  · exact fun h => by rw [List.filter_congr fun e he => by rw [h e he]]

/-- Both cleanups remove from a listing exactly what is due, if and only if the
cutoffs are right about every day in it. -/
theorem cleanups_removeDue {minutes : Int} (hminutes : -1440 < minutes ∧ minutes < 1440)
    {now : Instant} {n : Int} (hn : 1 ≤ n) {k : Disk} {directory : String} {es : List DirEntry}
    (hlist : k.dirs directory = some es) (hnames : (es.map DirEntry.name).Nodup) :
    RemoveDue hminutes now n k directory es ↔
      ∀ e ∈ es, e.isDir = true → ∀ date, Date.parse e.name.toList = some date →
        CutoffsRight minutes now n date.number := by
  rw [RemoveDue, cleanup, cleanupBackups, cleanupBefore_filter hlist hnames,
    cleanupBefore_filter hlist hnames, setDir_filter_iff, setDir_filter_iff, ← forall₂_and]
  refine forall₂_congr fun e he => ?_
  cases hdir : e.isDir with
  | false => simp [expired, due, hdir]
  | true =>
      cases hdate : Date.parse e.name.toList with
      | none => simp [expired, due, hdir, hdate]
      | some date =>
          obtain ⟨hcleanup, hbackups⟩ := expired_iff hminutes now n hdir hdate
          have hright := cutoffsRight_iff now hminutes hn (Date.parse_range hdate) rfl
          rw [← hcleanup, ← hbackups, ← due_iff hdir hdate, ← Bool.eq_iff_iff,
            ← Bool.eq_iff_iff] at hright
          rw [hright]
          simp

/-- A disk with a directory of days. -/
def diskOf (days : List String) : Disk where
  dirs := fun _ => some (days.map fun name => ⟨name, true⟩)
  file := dayConfig

theorem cleanups_removeDue_noon :
    RemoveDue Location.zero_range (noon 0).toInstant 30
        (diskOf ["2026-06-12", "2026-06-14"]) "data/audit"
        [⟨"2026-06-12", true⟩, ⟨"2026-06-14", true⟩] ↔
      ∀ e ∈ [(⟨"2026-06-12", true⟩ : DirEntry), ⟨"2026-06-14", true⟩], e.isDir = true →
        ∀ date, Date.parse e.name.toList = some date →
          CutoffsRight 0 (noon 0).toInstant 30 date.number :=
  cleanups_removeDue Location.zero_range (by decide) rfl (by decide)

/-- At noon the records from noon on of the day 30 days before are not 30 days
old, and `Cleanup` removes them. -/
theorem cleanup_early :
    ¬ RemoveDue Location.zero_range (noon 0).toInstant 30 (diskOf ["2026-06-13"])
      "data/audit" [⟨"2026-06-13", true⟩] := by
  rintro ⟨hcleanup, -⟩
  have hdirs := congrArg (fun r => r.2.dirs "data/audit") hcleanup
  revert hdirs
  decide +kernel

end KafkaManager
