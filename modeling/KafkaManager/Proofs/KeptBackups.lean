import KafkaManager.Proofs.BackupPaths
import KafkaManager.Proofs.SaveKeeps

/-!
# What was replaced is kept

The name of a backup says the day of the first reading of the clock and the time
of day of the second, and these are from different days when midnight passes
between them. Without that the names of two backups are different, because the
second reading of the later is later, and a file that no later `Save` writes
holds what was put there.
-/

namespace KafkaManager

open Lib Filepath

variable {yaml : Yaml} {env : Environment} {offset : Int} {w w' : SaveWorld} {data : List Char}

/-! ## Runs -/

variable {w₀ : SaveWorld} {log : List Replacement} {k : Replacement}

theorem replaced_kept (hcontent : w.files.content .config = some k.content) (hne : k.content ≠ [])
    (h : Keeps offset w w' k) : replaced w w' = [k] := by
  obtain ⟨c, old, hold⟩ := List.exists_cons_of_ne_nil hne
  unfold replaced
  rw [hcontent, h.readings, hold]
  cases k
  simp only at hold
  rw [hold]

theorem replaced_empty (h : (w.files.content .config).getD [] = []) : replaced w w' = [] := by
  unfold replaced
  cases hcontent : w.files.content .config with
  | none => rfl
  | some old =>
      rw [hcontent] at h
      obtain rfl : old = [] := h
      rfl

/-- What a `Save` does to the log of a run. -/
theorem save_replaced {cfg : Config}
    (h : (save yaml env data).Runs (FileCall.happens offset) w (.ok cfg) w') :
    replaced w w' = [] ∧ SameBackups w w' ∨
      ∃ k, replaced w w' = [k] ∧ w.files.content .config = some k.content ∧ k.content ≠ [] ∧
        Keeps offset w w' k := by
  obtain ⟨-, -, hempty, hkept⟩ := save_keeps h
  cases hcontent : (w.files.content .config).getD [] with
  | nil => exact .inl ⟨replaced_empty hcontent, hempty hcontent⟩
  | cons c old =>
      have hold : w.files.content .config = some (c :: old) := by
        cases hc : w.files.content .config with
        | none =>
            rw [hc] at hcontent
            cases hcontent
        | some text =>
            rw [hc] at hcontent
            exact congrArg some hcontent
      obtain ⟨first, second, hkeeps⟩ := hkept _ (List.cons_ne_nil c old) hold
      exact .inr ⟨_, replaced_kept hold (List.cons_ne_nil c old) hkeeps, hold,
        List.cons_ne_nil c old, hkeeps⟩

/-- The readings of a run are in the order of its log. -/
structure Ordered (w : SaveWorld) (log : List Replacement) : Prop where
  read : ∀ k ∈ log, k.first ∈ w.readings ∧ k.second ∈ w.readings
  order : ∀ k ∈ log, k.first.before k.second.toInstant = true
  later : log.Pairwise fun a b => a.second.before b.first.toInstant = true

theorem saves_ordered (h : Saves yaml env offset w₀ log w) : Ordered w log := by
  induction h with
  | refl => exact ⟨by simp, by simp, List.Pairwise.nil⟩
  | save h hsave ih =>
      rcases save_replaced hsave with ⟨hnone, hsame⟩ | ⟨k, hk, -, -, hkeeps⟩
      · rw [hnone, List.append_nil]
        exact { ih with read := fun k hk => hsame.2.symm ▸ ih.read k hk }
      · rw [hk]
        refine ⟨fun k' hk' => ?_, fun k' hk' => ?_, ?_⟩
        · rw [hkeeps.readings]
          rcases List.mem_append.1 hk' with hk' | hk'
          · obtain ⟨hfirst, hsecond⟩ := ih.read k' hk'
            exact ⟨.tail _ (.tail _ hfirst), .tail _ (.tail _ hsecond)⟩
          · obtain rfl := List.mem_singleton.1 hk'
            exact ⟨.tail _ (.head _), .head _⟩
        · rcases List.mem_append.1 hk' with hk' | hk'
          · exact ih.order k' hk'
          · obtain rfl := List.mem_singleton.1 hk'
            exact hkeeps.order
        · refine List.pairwise_append.2 ⟨ih.later, List.pairwise_singleton _ _, fun a ha b hb => ?_⟩
          obtain rfl := List.mem_singleton.1 hb
          exact hkeeps.first _ (ih.read a ha).2

/-! ## The names of the backups -/

theorem nsec_lt (t : Clock) : 0 ≤ t.nsec ∧ t.nsec < 10 ^ 9 := t.nsec_range

/-- Backups in the same file are of the same day and of the same time. -/
theorem repeats_of_file {a b : Replacement} (h : a.file offset = b.file offset) :
    a.Repeats offset b := by
  obtain ⟨hday, htime⟩ := File.backup.inj h
  obtain ⟨hseconds, hnsec⟩ := formatTime_injective (nsec_lt a.second) (nsec_lt b.second)
    (String.ofList_injective htime)
  exact ⟨formatDay_injective (String.ofList_injective hday), hseconds, hnsec⟩

theorem file_of_repeats {a b : Replacement} (h : a.Repeats offset b) :
    a.file offset = b.file offset := by
  obtain ⟨hday, hseconds, hnsec⟩ := h
  unfold Replacement.file formatDay formatTime
  rw [hday, hseconds, hnsec]

/-- On one day no time comes back. -/
theorem not_repeats {a b : Replacement} (ha : a.first.before a.second.toInstant = true)
    (hab : a.second.before b.first.toInstant = true) (hb : b.first.before b.second.toInstant = true)
    (hday : ¬b.Straddles offset) : ¬a.Repeats offset b := by
  intro hrepeats
  obtain ⟨hsame, hseconds, hnsec⟩ := hrepeats
  rw [Replacement.Straddles, not_not] at hday
  rw [Clock.before_iff] at ha hab hb
  unfold wallClock at hday hsame hseconds
  omega

theorem files_distinct (h : Saves yaml env offset w₀ log w) (hapart : Apart offset log) :
    (log.map (Replacement.file offset)).Nodup := by
  have hordered := saves_ordered h
  rw [List.Nodup, List.pairwise_map]
  refine (List.Pairwise.and hapart hordered.later).imp_of_mem fun {a b} ha hb hab hfile => ?_
  obtain ⟨hstraddles, hlater⟩ := hab
  have hrepeats := repeats_of_file hfile
  refine not_repeats (hordered.order a ha) hlater (hordered.order b hb) ?_ hrepeats
  exact fun hmidnight => hstraddles hmidnight hrepeats

/-- What was kept is there. -/
theorem saves_held (h : Saves yaml env offset w₀ log w) (hapart : Apart offset log) :
    ∀ k ∈ log, w.files.content (k.file offset) = some k.content := by
  induction h with
  | refl => simp
  | save h hsave ih =>
      have hdistinct := files_distinct (.save h hsave) hapart
      have hbefore := ih (List.pairwise_append.1 hapart).1
      rcases save_replaced hsave with ⟨hnone, hsame⟩ | ⟨k, hk, -, -, hkeeps⟩
      · rw [hnone, List.append_nil]
        exact fun k hk => (hsame.1 _ _).trans (hbefore k hk)
      · rw [hk] at hdistinct ⊢
        rw [List.map_append, List.nodup_append] at hdistinct
        intro k' hk'
        refine (hkeeps.backups _ _).trans ?_
        rcases List.mem_append.1 hk' with hk' | hk'
        · have hne : k'.file offset ≠ k.file offset :=
            hdistinct.2.2 _ (List.mem_map_of_mem hk') _ (by simp)
          exact (if_neg hne).trans (hbefore k' hk')
        · obtain rfl := List.mem_singleton.1 hk'
          exact if_pos rfl

/-! ## Reading a backup -/

theorem backupAt_backupFile (backupDir : List Char) {day time : List Char} (hday : Plain day)
    (htime : Plain (time ++ yamlSuffix)) :
    backupAt backupDir (backupFile backupDir day time) =
      some (.backup (String.ofList day) (String.ofList time)) := by
  have hnames : ∀ c ∈ [day, time ++ yamlSuffix], Plain c := by
    simp only [List.forall_mem_cons, List.not_mem_nil, false_implies, implies_true, and_true]
    exact ⟨hday, htime⟩
  have hsegments : segments '/' (['/'].intercalate [day, time ++ yamlSuffix]) =
      [day, time ++ yamlSuffix] := segments_intercalate fun c hc => (hnames c hc).segment
  have hsuffix : yamlSuffix.isSuffixOf (time ++ yamlSuffix) = true :=
    List.isSuffixOf_iff_suffix.2 (List.suffix_append _ _)
  unfold backupAt
  rw [backupFile_eq backupDir hday htime, rel_names backupDir (List.cons_ne_nil _ _) hnames]
  dsimp only
  rw [hsegments]
  dsimp only
  rw [if_pos hsuffix, List.length_append, Nat.add_sub_cancel, List.take_left]

theorem readBackupFile_kept (backupDir : List Char)
    (h : w.files.content (k.file offset) = some k.content) :
    readBackupFile backupDir w.files (k.path offset backupDir) = .ok k.content := by
  have hfile : backupAt backupDir (k.path offset backupDir) = some (k.file offset) :=
    backupAt_backupFile backupDir (plain_day _) (plain_file _ _)
  unfold readBackupFile
  rw [hfile, Option.bind_some, h]

theorem savedFile_path (offset : Int) (backupDir : List Char) (k : Replacement) :
    SavedFile backupDir (k.path offset backupDir) := ⟨_, _, _, rfl⟩

/-- What `LoadBackup` makes of the id of a file. -/
theorem loadBackup_kept {backupDir id : List Char}
    (h : w.files.content (k.file offset) = some k.content)
    (hid : rel backupDir (k.path offset backupDir) = some id) :
    (loadBackup yaml env backupDir id).result (readBackupFile backupDir w.files) =
      match load yaml env k.content with
      | .error e => .error (.load e)
      | .ok cfg => .ok (k.content, cfg) := by
  obtain ⟨id', hid', hpath⟩ := backupPath_saved (savedFile_path offset backupDir k)
  obtain rfl := Option.some.inj (hid.symm.trans hid')
  rw [loadBackup, hpath]
  dsimp only
  rw [Prog.call_bind, Prog.result, readBackupFile_kept backupDir h]
  dsimp only
  cases load yaml env k.content <;> rfl

/-! ## The backups of a run -/

/-- What the configuration held becomes one more backup. -/
def OneMore (offset : Int) (w w' : SaveWorld) : Prop :=
  ∀ old, old ≠ [] → w.files.content .config = some old →
    ∃ k, replaced w w' = [k] ∧ k.content = old ∧ w'.files.content (k.file offset) = some old

theorem save_oneMore {cfg : Config}
    (h : (save yaml env data).Runs (FileCall.happens offset) w (.ok cfg) w') :
    OneMore offset w w' := by
  intro old hne hold
  obtain ⟨-, -, -, hkept⟩ := save_keeps h
  obtain ⟨first, second, hkeeps⟩ := hkept old hne hold
  exact ⟨_, replaced_kept hold hne hkeeps, rfl, (hkeeps.backups _ _).trans (if_pos rfl)⟩

/-- Each content is in a file of its own, is listed, loaded and restored from
there. -/
structure BackupsKept (yaml : Yaml) (env : Environment) (offset : Int) (backupDir : List Char)
    (w₀ : SaveWorld) (log : List Replacement) (w : SaveWorld) : Prop where
  distinct : (log.map (Replacement.file offset)).Nodup
  held : ∀ k ∈ log, w.files.content (k.file offset) = some k.content
  listed : ∀ k ∈ log, ∀ (sorter : Sorter newerBackup) (entries : List (FileName × FileNode)),
    ∀ v ∈ walkEntries backupDir entries, v.path = k.path offset backupDir →
      ∀ modTime size, v.node = .file modTime size →
        ∃ backups, listBackups sorter backupDir (some entries) = some backups ∧
          ∃ b ∈ backups, rel backupDir (k.path offset backupDir) = some b.id
  loaded : ∀ k ∈ log, ∀ id, rel backupDir (k.path offset backupDir) = some id →
    ∀ cfg, load yaml env k.content = .ok cfg →
      (loadBackup yaml env backupDir id).result (readBackupFile backupDir w.files) =
        .ok (k.content, cfg)
  restored : ∀ k ∈ log, ∀ id, rel backupDir (k.path offset backupDir) = some id →
    ∀ cfg w',
      (restore yaml env backupDir id w.files).Runs (FileCall.happens offset) w (.ok cfg) w' →
      w'.files.content .config = some k.content ∧ OneMore offset w w' ∧
        Saves yaml env offset w₀ (log ++ replaced w w') w'
  next : ∀ data cfg w', (save yaml env data).Runs (FileCall.happens offset) w (.ok cfg) w' →
    OneMore offset w w'

theorem restore_kept (h : Saves yaml env offset w₀ log w) {backupDir id : List Char} {cfg : Config}
    (hheld : w.files.content (k.file offset) = some k.content)
    (hid : rel backupDir (k.path offset backupDir) = some id)
    (hrestore : (restore yaml env backupDir id w.files).Runs (FileCall.happens offset) w (.ok cfg)
      w') :
    w'.files.content .config = some k.content ∧ OneMore offset w w' ∧
      Saves yaml env offset w₀ (log ++ replaced w w') w' := by
  unfold restore at hrestore
  rw [loadBackup_kept hheld hid] at hrestore
  cases hload : load yaml env k.content with
  | error e =>
      rw [hload] at hrestore
      exact absurd hrestore.1 (by simp)
  | ok cfg₀ =>
      rw [hload] at hrestore
      obtain ⟨outcome, w₁, hsave, hend⟩ := Prog.runs_bind.1 hrestore
      cases outcome with
      | error e => exact absurd hend.1 (by simp)
      | ok cfg₁ =>
          obtain ⟨-, rfl⟩ := hend
          obtain ⟨-, hconfig, -⟩ := save_keeps hsave
          exact ⟨hconfig, save_oneMore hsave, .save h hsave⟩

/-- If no `Save` during which midnight passes repeats an earlier one, every
content that a run has replaced is in its own backup. -/
theorem backups_kept (h : Saves yaml env offset w₀ log w) (hapart : Apart offset log)
    (backupDir : List Char) : BackupsKept yaml env offset backupDir w₀ log w := by
  have hheld := saves_held h hapart
  exact
    { distinct := files_distinct h hapart
      held := hheld
      listed := fun k _ sorter entries v hv hpath modTime size hnode => by
        obtain ⟨backups, hlist, hmem⟩ := listBackups_mem sorter backupDir entries
        have hunder := walkEntries_under backupDir entries v hv
        obtain ⟨b, hlisted⟩ := listed_saved hunder hnode
          (hpath ▸ savedFile_path offset backupDir k)
        exact ⟨backups, hlist, b, (hmem b).2 ⟨v, hv, hlisted⟩,
          hpath ▸ listed_id hunder hlisted⟩
      loaded := fun k hk id hid cfg hload => by rw [loadBackup_kept (hheld k hk) hid, hload]
      restored := fun k hk id hid cfg w' hrestore => restore_kept h (hheld k hk) hid hrestore
      next := fun data cfg w' hsave => save_oneMore hsave }

/-! ## A `Save` during which midnight passes -/

/-- A `Save` can succeed, whatever it reads of the clock. -/
theorem save_runs (offset : Int) {cfg : Config} {old : List Char}
    (hload : load yaml env data = .ok cfg) (hold : w.files.content .config = some old) (hne : old ≠ [])
    (htemp : w.files.content (.temp 0) = none) {first second : Clock}
    (hfirst : ∀ u ∈ w.readings, u.before first.toInstant = true)
    (hsecond : ∀ u ∈ first :: w.readings, u.before second.toInstant = true) :
    ∃ w', (save yaml env data).Runs (FileCall.happens offset) w (.ok cfg) w' ∧
      replaced w w' = [{ content := old, first, second }] ∧
      w'.readings = second :: first :: w.readings ∧ w'.files.content (.temp 0) = none := by
  have hkeep : ∃ w₁, (backupOld old).Runs (FileCall.happens offset) w none w₁ ∧
      w₁.readings = second :: first :: w.readings ∧ w₁.files.content (.temp 0) = none := by
    unfold backupOld
    rw [if_pos (List.length_pos_iff.2 hne)]
    let w₁ : SaveWorld := { w with readings := first :: w.readings }
    let w₂ : SaveWorld := { w with readings := second :: first :: w.readings }
    let w₃ : SaveWorld :=
      { w₂ with files := w.files.set ((Replacement.mk old first second).file offset) (some old) }
    have hwrite : (FileCall.writeFile ((Replacement.mk old first second).file offset) old).happens
        offset w₂ none w₃ := ⟨⟨none, rfl⟩, rfl⟩
    refine ⟨w₃, ⟨_, w₁, ⟨⟨_, rfl⟩, first, hfirst, rfl, rfl⟩, none, w₁, ⟨⟨none, rfl⟩, rfl⟩,
      _, w₂, ⟨⟨_, rfl⟩, second, hsecond, rfl, rfl⟩, none, w₃, hwrite, rfl, rfl⟩, rfl, ?_⟩
    exact (FileSystem.set_content_of_ne _ (by simp [Replacement.file]) _).trans htemp
  obtain ⟨w₁, hbackup, hreadings, htemp₁⟩ := hkeep
  have hreplace : ∃ w',
      (save.replaceOld data cfg old).Runs (FileCall.happens offset) w (.ok cfg) w' ∧
      w'.readings = w₁.readings ∧ w'.files.content (.temp 0) = none := by
    let f₂ := w₁.files.set (.temp 0) (some [])
    let f₃ := f₂.set (.temp 0) (some ([] ++ data))
    let f₄ := (f₃.set .config (some ([] ++ data))).set (.temp 0) none
    let f₅ := f₄.set (.temp 0) none
    have hcreate : FileCall.createTemp.happens offset w₁ (.ok 0) { w₁ with files := f₂ } :=
      ⟨⟨.ok 0, by rw [FileCall.exec, htemp₁]; rfl⟩, rfl⟩
    have hwrite : (FileCall.write (.temp 0) data).happens offset { w₁ with files := f₂ } none
        { w₁ with files := f₃ } := by
      have hempty : f₂.content (.temp 0) = some [] := FileSystem.set_content_self ..
      exact ⟨⟨none, by simp only [FileCall.exec, hempty]; rfl⟩, rfl⟩
    have hrename : (FileCall.rename (.temp 0) .config).happens offset { w₁ with files := f₃ } none
        { w₁ with files := f₄ } := by
      have hwritten : f₃.content (.temp 0) = some ([] ++ data) := FileSystem.set_content_self ..
      exact ⟨⟨none, by simp only [FileCall.exec, hwritten]; rfl⟩, rfl⟩
    have hmoved : (replaceConfig (.temp 0) data).Runs (FileCall.happens offset)
        { w₁ with files := f₂ } none { w₁ with files := f₄ } := by
      refine Prog.runs_bind.2 ⟨none, { w₁ with files := f₃ }, ?_, none, _, hrename, rfl, rfl⟩
      exact ⟨none, _, ⟨⟨none, rfl⟩, rfl⟩, none, _, hwrite, none, _, ⟨⟨none, rfl⟩, rfl⟩, none, _,
        ⟨⟨none, rfl⟩, rfl⟩, rfl, rfl⟩
    refine ⟨{ w₁ with files := f₅ }, ?_, rfl, FileSystem.set_content_self ..⟩
    refine Prog.runs_bind.2 ⟨none, w₁, hbackup, none, w₁, ⟨⟨none, rfl⟩, rfl⟩, .ok 0, _, hcreate, ?_⟩
    change (replaceConfig (.temp 0) data >>= _).Runs _ _ _ _
    exact Prog.runs_bind.2 ⟨none, _, hmoved, none, { w₁ with files := f₅ }, ⟨⟨none, rfl⟩, rfl⟩, rfl,
      rfl⟩
  obtain ⟨w', hrun, hread, htemp'⟩ := hreplace
  refine ⟨w', ?_, ?_, hread.trans hreadings, htemp'⟩
  · unfold save
    rw [hload]
    exact ⟨.ok old, w, ⟨⟨.ok [], by simp only [FileCall.exec, hold]⟩, by simp, rfl⟩, hrun⟩
  · obtain ⟨c, rest, rfl⟩ := List.exists_cons_of_ne_nil hne
    unfold replaced
    rw [hold, hread, hreadings]

/-- A reading of a clock. -/
def readingAt (s n : Int) (hs : 0 ≤ s ∧ s < 100000) (hn : 0 ≤ n ∧ n < nanosPerSecond) : Clock where
  toInstant := { Instant.ofUnix s with nsec := n, nsec_range := hn }
  range := by
    have hsec : (Instant.ofUnix s).sec = s + unixToInternal := Instant.sec_ofUnix (by omega)
    have hunix : Int.bmod ((Instant.ofUnix s).sec - unixToInternal) (2 ^ 64) = s := by
      rw [hsec, Int.add_sub_cancel]
      exact bmod_of_fits (by simp only [fits64, decide_eq_true_eq]; omega)
    show -2 ^ 62 ≤ Int.bmod ((Instant.ofUnix s).sec - unixToInternal) (2 ^ 64) ∧
      Int.bmod ((Instant.ofUnix s).sec - unixToInternal) (2 ^ 64) ≤ 2 ^ 62
    rw [hunix]
    omega

/-- The beginning of a day, and one nanosecond later. -/
def earlyFirst : Clock := readingAt 0 0 (by decide) Instant.nsec_zero

def earlySecond : Clock := readingAt 0 1 (by decide) (by decide)

/-- The end of that day, and one nanosecond after midnight. -/
def lateFirst : Clock := readingAt 86399 0 (by decide) Instant.nsec_zero

def lateSecond : Clock := readingAt 86400 1 (by decide) (by decide)

theorem early_order : earlyFirst.before earlySecond.toInstant = true := by decide +kernel

theorem late_after : ∀ u ∈ [earlySecond, earlyFirst], u.before lateFirst.toInstant = true := by
  decide +kernel

theorem late_order : ∀ u ∈ [lateFirst, earlySecond, earlyFirst],
    u.before lateSecond.toInstant = true := by
  decide +kernel

/-- A second later, a time that the first day has not seen. -/
def nextSecond : Clock := readingAt 86401 1 (by decide) (by decide)

theorem next_order : ∀ u ∈ [lateFirst, earlySecond, earlyFirst],
    u.before nextSecond.toInstant = true := by
  decide +kernel

theorem late_repeats : wallClock 0 earlyFirst / 86400 = wallClock 0 lateFirst / 86400 ∧
    wallClock 0 earlySecond % 86400 = wallClock 0 lateSecond % 86400 := by
  decide +kernel

def earlyKept (content : List Char) : Replacement where
  content := content
  first := earlyFirst
  second := earlySecond

def lateKept (content : List Char) : Replacement where
  content := content
  first := lateFirst
  second := lateSecond

def nextKept (content : List Char) : Replacement where
  content := content
  first := lateFirst
  second := nextSecond

theorem next_straddles (content : List Char) : (nextKept content).Straddles 0 := by
  show wallClock 0 lateFirst / 86400 ≠ wallClock 0 nextSecond / 86400
  decide +kernel

theorem early_next_apart (content data : List Char) :
    Apart 0 [earlyKept content, nextKept data] := by
  have hseconds : wallClock 0 earlySecond % 86400 ≠ wallClock 0 nextSecond % 86400 := by
    decide +kernel
  exact List.pairwise_pair.2 fun _ hrepeats => hseconds hrepeats.2.1

/-- A configuration, and a clock that was not read yet. -/
def freshWorld (content : List Char) : SaveWorld where
  files := onlyConfig content
  readings := []

theorem early_save {cfg : Config} {content : List Char} (hload : load yaml env data = .ok cfg)
    (hne : content ≠ []) :
    ∃ w, Saves yaml env 0 (freshWorld content) [earlyKept content] w ∧
      w.files.content .config = some data ∧ w.files.content (.temp 0) = none ∧
      w.readings = [earlySecond, earlyFirst] := by
  obtain ⟨w, hsave, hreplaced, hreadings, htemp⟩ := save_runs (w := freshWorld content) 0 hload rfl
    hne rfl (List.forall_mem_nil _)
    (List.forall_mem_cons.2 ⟨early_order, List.forall_mem_nil _⟩)
  obtain ⟨-, hconfig, -⟩ := save_keeps hsave
  have hsaves := Saves.save (.refl (freshWorld content)) hsave
  rw [List.nil_append, hreplaced] at hsaves
  exact ⟨w, hsaves, hconfig, htemp, hreadings⟩

/-- A second `Save`, begun at the end of the day. -/
theorem second_save {cfg : Config} {content : List Char} {second : Clock}
    (hload : load yaml env data = .ok cfg) (hdata : data ≠ []) (hne : content ≠ [])
    (hsecond : ∀ u ∈ [lateFirst, earlySecond, earlyFirst], u.before second.toInstant = true) :
    ∃ w, Saves yaml env 0 (freshWorld content) [earlyKept content, ⟨data, lateFirst, second⟩] w ∧
      w.files.content (Replacement.file 0 ⟨data, lateFirst, second⟩) = some data := by
  obtain ⟨w, hsaves, hconfig, htemp, hreadings⟩ := early_save hload hne
  have hfirst : ∀ u ∈ w.readings, u.before lateFirst.toInstant = true := hreadings ▸ late_after
  have hlater : ∀ u ∈ lateFirst :: w.readings, u.before second.toInstant = true :=
    hreadings ▸ hsecond
  obtain ⟨w', hsave, hreplaced, -, -⟩ := save_runs 0 hload hconfig hdata htemp hfirst hlater
  have hrun := Saves.save hsaves hsave
  rw [hreplaced] at hrun
  refine ⟨w', hrun, ?_⟩
  obtain ⟨k, hk, -, hheld⟩ := save_oneMore hsave _ hdata hconfig
  obtain rfl := List.singleton_injective (hreplaced.symm.trans hk)
  exact hheld

/-- It writes over the backup of the first. -/
theorem late_save {cfg : Config} {content : List Char} (hload : load yaml env data = .ok cfg)
    (hdata : data ≠ []) (hne : content ≠ []) :
    ∃ w, Saves yaml env 0 (freshWorld content) [earlyKept content, lateKept data] w ∧
      w.files.content ((earlyKept content).file 0) = some data := by
  obtain ⟨w, hrun, hheld⟩ := second_save hload hdata hne late_order
  have hrepeats : (earlyKept content).Repeats 0 (lateKept data) :=
    ⟨late_repeats.1, late_repeats.2, rfl⟩
  rw [file_of_repeats hrepeats]
  exact ⟨w, hrun, hheld⟩

theorem load_plainPassword {password : List Char} (hnames : Refs.names password = [])
    (hline : '\n' ∉ password) :
    load passwordYaml (fun _ => none) (passwordText password) = .ok (passwordConfig password) := by
  rw [← names_passwordText] at hnames
  refine load_eq (fun name hname => ?_) ?_ (passwordConfig_valid password)
  · rw [hnames] at hname
    exact absurd hname (List.not_mem_nil)
  · rw [Refs.expand_of_names_nil _ hnames]
    exact passwordYaml_decode hline .refl

theorem passwordText_ne_nil (password : List Char) : passwordText password ≠ [] := by
  simp [passwordText]

theorem passwordText_ne : passwordText secret ≠ passwordText ['x'] := by
  intro heq
  unfold passwordText at heq
  exact absurd (List.append_cancel_right (List.append_cancel_left heq)) (by decide)

/-- A configuration that loads is in no backup any more. -/
theorem backups_kept_not :
    load passwordYaml (fun _ => none) (passwordText ['x']) = .ok (passwordConfig ['x']) ∧
      ∃ w, Saves passwordYaml (fun _ => none) 0 (freshWorld (passwordText ['x']))
          [earlyKept (passwordText ['x']), lateKept (passwordText secret)] w ∧
        w.files.content ((earlyKept (passwordText ['x'])).file 0) = some (passwordText secret) ∧
        passwordText secret ≠ passwordText ['x'] := by
  refine ⟨load_plainPassword (by decide) (by decide), ?_⟩
  obtain ⟨w, hsaves, hheld⟩ := late_save load_secret (passwordText_ne_nil secret)
    (passwordText_ne_nil ['x'])
  exact ⟨w, hsaves, hheld, passwordText_ne⟩

/-- Two saves, midnight passing during the second. -/
theorem backups_kept_early :
    (nextKept (passwordText secret)).Straddles 0 ∧
      ∃ w, Saves passwordYaml (fun _ => none) 0 (freshWorld (passwordText ['x']))
          [earlyKept (passwordText ['x']), nextKept (passwordText secret)] w ∧
        w.files.content ((earlyKept (passwordText ['x'])).file 0) = some (passwordText ['x']) ∧
        w.files.content ((nextKept (passwordText secret)).file 0) = some (passwordText secret) := by
  refine ⟨next_straddles _, ?_⟩
  obtain ⟨w, hsaves, -⟩ := second_save load_secret (passwordText_ne_nil secret)
    (passwordText_ne_nil ['x']) next_order
  have hkept := backups_kept hsaves (early_next_apart _ _) []
  exact ⟨w, hsaves, hkept.held _ (.head _), hkept.held _ (.tail _ (.head _))⟩

end KafkaManager
