import KafkaManager.Config.Backups
import KafkaManager.Proofs.SaveLoad

/-!
# The id of a backup and its path

The first check of `LoadBackup` leaves ids whose components are names. The path
is then the components of the directory and these (`backupPath_inside`), and
going back from it gives them again. What `ListBackups` lists is such a path,
and the name of a day does not begin with two dots, which is all the last check
is about.
-/

namespace KafkaManager

open Lib Filepath

variable {backupDir id path : List Char} {names : List (List Char)}

/-! ## From an id to a path -/

/-- The path of something in the directory: no component behind it is a step. -/
def Inside (backupDir path : List Char) : Prop :=
  ∃ names, names ≠ [] ∧ (∀ c ∈ names, Plain c) ∧
    path = render (isAbs backupDir) (components backupDir ++ names)

theorem Inside.segments (h : Inside backupDir path) :
    ∃ names, names ≠ [] ∧ (∀ c ∈ names, Plain c) ∧
      segments '/' path = components backupDir ++ names := by
  obtain ⟨names, hne, hnames, rfl⟩ := h
  have hnormal := (components_normal backupDir).append hnames
  refine ⟨names, hne, hnames, ?_⟩
  rw [render]
  split
  · rw [segments_cons, segments_intercalate hnormal.isSegment]
  · rw [if_neg (List.append_ne_nil_of_right_ne_nil _ hne), segments_intercalate hnormal.isSegment]

/-- No component is a step up, unless the directory begins with it. -/
theorem Inside.no_step (h : Inside backupDir path) (hdir : dotDot ∉ components backupDir) :
    dotDot ∉ Lib.segments '/' path := by
  obtain ⟨names, -, hnames, hsegments⟩ := h.segments
  rw [hsegments, List.mem_append, not_or]
  exact ⟨hdir, fun hmem => (hnames _ hmem).notDotDot rfl⟩

/-- A relative path that begins with a step up fails the check. -/
theorem names_of_clean (habs : isAbs (clean id) = false) (hdot : clean id ≠ dot)
    (hbegins : ¬(dotDot ++ ['/']).isPrefixOf (clean id)) (hup : clean id ≠ dotDot) :
    components id ≠ [] ∧ (∀ c ∈ components id, Plain c) ∧
      clean id = ['/'].intercalate (components id) := by
  rw [isAbs_clean] at habs
  have hnormal := components_normal id
  rw [habs] at hnormal
  have hne : components id ≠ [] := by
    intro hnil
    refine hdot ?_
    rw [clean, habs, hnil]
    rfl
  have htext : clean id = ['/'].intercalate (components id) := by
    rw [clean, habs, render, if_neg (by decide), if_neg hne]
  obtain ⟨ups, rest, hparts, -, hrest⟩ := hnormal
  cases ups with
  | zero => exact ⟨hne, by rw [hparts]; exact hrest, htext⟩
  | succ ups =>
      rw [List.replicate_succ, List.cons_append] at hparts
      rw [hparts, intercalate_cons] at htext
      cases hmore : List.replicate ups dotDot ++ rest with
      | nil =>
          rw [hmore, List.flatMap_nil, List.append_nil] at htext
          exact absurd htext hup
      | cons second more =>
          refine absurd ?_ hbegins
          rw [List.isPrefixOf_iff_prefix, htext, hmore]
          exact ⟨second ++ more.flatMap ('/' :: ·), by simp⟩

theorem backupPath_inside (h : backupPath backupDir id = some path) : Inside backupDir path := by
  unfold backupPath at h
  dsimp only at h
  split at h
  · cases h
  · next hchecks =>
      simp only [not_or, Bool.not_eq_true] at hchecks
      obtain ⟨hdot, habs, hbegins, hup⟩ := hchecks
      obtain ⟨hne, hnames, htext⟩ := names_of_clean habs hdot (Bool.eq_false_iff.1 hbegins) hup
      have hjoin := join_names backupDir hne hnames
      rw [← htext] at hjoin
      split at h
      · cases h
      · split at h
        · cases h
        · obtain rfl := Option.some.inj h
          exact ⟨_, hne, hnames, hjoin⟩

/-- Names with slashes between them pass the checks, if the first of them does
not begin with two dots. -/
theorem backupPath_names (hne : names ≠ []) (hnames : ∀ c ∈ names, Plain c)
    (hfirst : dotDot.isPrefixOf (['/'].intercalate names) = false) :
    backupPath backupDir (['/'].intercalate names) =
      some (render (isAbs backupDir) (components backupDir ++ names)) := by
  have hsegments : ∀ c ∈ names, IsSegment '/' c := fun c hc => (hnames c hc).segment
  have hnormal : Normal false names := normal_plain hnames
  have hrender : ['/'].intercalate names = render false names := by
    rw [render, if_neg (by decide), if_neg hne]
  have hclean : clean (['/'].intercalate names) = ['/'].intercalate names := by
    rw [clean, isAbs_intercalate hsegments, hrender, components_render hnormal]
  have hdot : ['/'].intercalate names ≠ dot := by
    intro hdot
    have hparts := components_render hnormal
    rw [← hrender, hdot] at hparts
    exact hne hparts.symm
  have hup : ['/'].intercalate names ≠ dotDot := by
    intro hup
    rw [hup] at hfirst
    exact absurd hfirst (by decide)
  have hbegins : ¬(dotDot ++ ['/']).isPrefixOf (['/'].intercalate names) := by
    intro hbegins
    have hdots := (List.prefix_append dotDot ['/']).trans (List.isPrefixOf_iff_prefix.1 hbegins)
    rw [List.isPrefixOf_iff_prefix.2 hdots] at hfirst
    cases hfirst
  unfold backupPath
  rw [hclean]
  dsimp only
  rw [if_neg (by simp [hdot, hup, hbegins, isAbs_intercalate hsegments]),
    join_names backupDir hne hnames, rel_names backupDir hne hnames]
  dsimp only
  rw [hfirst]
  rfl

/-! ## What the walk visits -/

theorem join_name (path : List Char) (name : FileName) :
    join [path, name.text] = render (isAbs path) (components path ++ [name.text]) := by
  have hplain : ∀ c ∈ [name.text], Plain c := fun c hc => List.mem_singleton.1 hc ▸ name.plain
  have hjoin := join_names path (List.cons_ne_nil _ _) hplain
  rwa [List.intercalate_singleton] at hjoin

/-- The path of what is visited is the path of the directory and names, the last
of which is its own. -/
def Visit.Under (path : List Char) (v : Visit) : Prop :=
  ∃ front, (∀ c ∈ front, Plain c) ∧
    v.path = render (isAbs path) (components path ++ (front ++ [v.name.text]))

theorem Visit.Under.of_name {v : Visit} {name : FileName} (h : v.Under (join [path, name.text])) :
    v.Under path := by
  obtain ⟨front, hfront, hpath⟩ := h
  have hnormal : Normal (isAbs path) (components path ++ [name.text]) :=
    (components_normal path).append fun c hc => List.mem_singleton.1 hc ▸ name.plain
  refine ⟨name.text :: front, ?_, ?_⟩
  · exact List.forall_mem_cons.2 ⟨name.plain, hfront⟩
  · rw [hpath, join_name, isAbs_render hnormal, components_render hnormal]
    simp

mutual

theorem walk_under (path : List Char) (name : FileName) : (node : FileNode) →
    ∀ v ∈ walk (join [path, name.text]) name node, v.Under path
  | .file modTime size => by
      intro v hv
      obtain rfl := List.mem_singleton.1 hv
      exact ⟨[], by simp, join_name path name⟩
  | .dir entries => by
      intro v hv
      rcases List.mem_cons.1 hv with rfl | hv
      · exact ⟨[], by simp, join_name path name⟩
      · exact (walkEntries_under _ entries v hv).of_name

theorem walkEntries_under (path : List Char) : (entries : List (FileName × FileNode)) →
    ∀ v ∈ walkEntries path entries, v.Under path
  | [] => by simp [walkEntries]
  | (name, node) :: rest => by
      intro v hv
      rcases List.mem_append.1 hv with hv | hv
      · exact walk_under path name node v hv
      · exact walkEntries_under path rest v hv

end

/-- What is listed for a visit. -/
def Visit.listed (backupDir : List Char) (v : Visit) : Option Backup :=
  match v.node with
  | .dir _ => none
  | .file modTime size =>
      if yamlSuffix.isSuffixOf v.name.text then
        some { id := (rel backupDir v.path).getD [], createdAt := modTime, size }
      else none

theorem rel_under {v : Visit} (h : v.Under backupDir) :
    ∃ names, names ≠ [] ∧ (∀ c ∈ names, Plain c) ∧
      v.path = render (isAbs backupDir) (components backupDir ++ names) ∧
      rel backupDir v.path = some (['/'].intercalate names) ∧ names.getLast? = some v.name.text := by
  obtain ⟨front, hfront, hpath⟩ := h
  have hne : front ++ [v.name.text] ≠ [] := by simp
  have hnames : ∀ c ∈ front ++ [v.name.text], Plain c := by
    intro c hc
    rcases List.mem_append.1 hc with hc | hc
    · exact hfront c hc
    · exact List.mem_singleton.1 hc ▸ v.name.plain
  exact ⟨_, hne, hnames, hpath, by rw [hpath, rel_names backupDir hne hnames], by simp⟩

/-- No way back is an error. -/
theorem collectBackups_eq {visits : List Visit} (h : ∀ v ∈ visits, v.Under backupDir) :
    collectBackups backupDir visits = some (visits.filterMap (Visit.listed backupDir)) := by
  induction visits with
  | nil => rfl
  | cons v rest ih =>
      obtain ⟨hv, hrest⟩ := List.forall_mem_cons.1 h
      obtain ⟨names, -, -, -, hrel, -⟩ := rel_under hv
      rw [collectBackups, List.filterMap_cons, Visit.listed, ih hrest]
      cases v.node with
      | dir entries => rfl
      | file modTime size =>
          dsimp only
          split
          · rw [hrel]
            rfl
          · rfl

theorem listBackups_mem (sorter : Sorter newerBackup) (backupDir : List Char)
    (entries : List (FileName × FileNode)) :
    ∃ backups, listBackups sorter backupDir (some entries) = some backups ∧
      ∀ b, b ∈ backups ↔ ∃ v ∈ walkEntries backupDir entries, v.listed backupDir = some b := by
  have hunder := walkEntries_under backupDir entries
  refine ⟨sorter.sort ((walkEntries backupDir entries).filterMap (Visit.listed backupDir)), ?_,
    fun b => ?_⟩
  · rw [listBackups, collectBackups_eq hunder]
    rfl
  · rw [(sorter.perm _).mem_iff, List.mem_filterMap]

/-! ## What `Save` has written -/

theorem digit_ne {c d : Char} (hc : c.isDigit = true) (hd : d.isDigit = false) : c ≠ d := by
  rintro rfl
  rw [hd] at hc
  cases hc

theorem formatDay_cons (civil : Int) : ∃ a rest, formatDay civil = a :: rest ∧ a ≠ '.' := by
  obtain ⟨a, rest, hformat⟩ := List.exists_cons_of_ne_nil (formatDay_ne_nil civil)
  refine ⟨a, rest, hformat, ?_⟩
  rcases formatDay_chars civil a (by simp [hformat]) with ha | rfl
  · exact digit_ne ha (by decide)
  · decide

theorem plain_day (civil : Int) : Plain (formatDay civil) := by
  obtain ⟨a, rest, hformat, ha⟩ := formatDay_cons civil
  refine ⟨⟨formatDay_ne_nil civil, fun hslash => ?_⟩, ?_, ?_⟩
  · rcases formatDay_chars civil _ hslash with hdigit | hhyphen
    · exact absurd hdigit (by decide)
    · exact absurd hhyphen (by decide)
  · rw [hformat]
    exact fun heq => ha (List.cons.inj heq).1
  · rw [hformat]
    exact fun heq => ha (List.cons.inj heq).1

theorem plain_file (civil nsec : Int) : Plain (formatTime civil nsec ++ yamlSuffix) := by
  have hlength : 5 ≤ (formatTime civil nsec ++ yamlSuffix).length := by
    rw [List.length_append]
    exact Nat.le_add_left 5 _
  refine ⟨⟨?_, fun hslash => ?_⟩, ?_, ?_⟩
  · exact List.ne_nil_of_length_pos (by omega)
  · rcases List.mem_append.1 hslash with hslash | hslash
    · rcases formatTime_chars civil nsec _ hslash with hdigit | hpoint
      · exact absurd hdigit (by decide)
      · exact absurd hpoint (by decide)
    · exact absurd hslash (by decide)
  · intro heq
    rw [heq] at hlength
    exact absurd hlength (by decide)
  · intro heq
    rw [heq] at hlength
    exact absurd hlength (by decide)

theorem backupFile_eq (backupDir : List Char) {day time : List Char} (hday : Plain day)
    (htime : Plain (time ++ yamlSuffix)) :
    backupFile backupDir day time =
      render (isAbs backupDir) (components backupDir ++ [day, time ++ yamlSuffix]) := by
  have hdir := join_name backupDir ⟨day, hday⟩
  have hnormal : Normal (isAbs backupDir) (components backupDir ++ [day]) :=
    (components_normal backupDir).append fun c hc => List.mem_singleton.1 hc ▸ hday
  have hfile := join_name (join [backupDir, day]) ⟨time ++ yamlSuffix, htime⟩
  rw [hdir, isAbs_render hnormal, components_render hnormal, List.append_assoc] at hfile
  rw [backupFile, hdir]
  exact hfile

/-- A file that `Save` has written, whatever the clock said for the day and for
the time. -/
def SavedFile (backupDir path : List Char) : Prop :=
  ∃ civil₁ civil₂ nsec, path = backupFile backupDir (formatDay civil₁) (formatTime civil₂ nsec)

theorem savedFile_names (h : SavedFile backupDir path) :
    ∃ names, names ≠ [] ∧ (∀ c ∈ names, Plain c) ∧
      dotDot.isPrefixOf (['/'].intercalate names) = false ∧
      (∃ name, names.getLast? = some name ∧ yamlSuffix.isSuffixOf name = true) ∧
      path = render (isAbs backupDir) (components backupDir ++ names) := by
  obtain ⟨civil₁, civil₂, nsec, rfl⟩ := h
  obtain ⟨a, rest, hformat, ha⟩ := formatDay_cons civil₁
  refine ⟨[formatDay civil₁, formatTime civil₂ nsec ++ yamlSuffix], by simp, ?_, ?_, ?_,
    backupFile_eq backupDir (plain_day _) (plain_file _ _)⟩
  · simp only [List.forall_mem_cons, List.not_mem_nil, false_implies, implies_true, and_true]
    exact ⟨plain_day _, plain_file _ _⟩
  · rw [intercalate_cons, hformat, List.cons_append, dotDot, List.isPrefixOf,
      beq_eq_false_iff_ne.2 ha.symm, Bool.false_and]
  · exact ⟨_, rfl, List.isSuffixOf_iff_suffix.2 (List.suffix_append _ _)⟩

/-- The id of a file that `Save` has written is the way to it from the
directory. -/
theorem backupPath_saved (h : SavedFile backupDir path) :
    ∃ id, rel backupDir path = some id ∧ backupPath backupDir id = some path := by
  obtain ⟨names, hne, hnames, hfirst, -, rfl⟩ := savedFile_names h
  exact ⟨_, rel_names backupDir hne hnames, backupPath_names hne hnames hfirst⟩

theorem loadBackup_issued {yaml : Yaml} {env : Environment} (h : backupPath backupDir id = some path)
    (answer : List Char → Except FileError (List Char)) :
    (loadBackup yaml env backupDir id).issued answer = [path] := by
  rw [loadBackup, h]
  dsimp only
  rw [Prog.call_bind, Prog.issued_cmd]
  cases answer path with
  | error e => rfl
  | ok data =>
      dsimp only
      cases load yaml env data <;> rfl

/-- An id is the way to its file. -/
theorem listed_id {v : Visit} {b : Backup} (hunder : v.Under backupDir)
    (h : v.listed backupDir = some b) : rel backupDir v.path = some b.id := by
  obtain ⟨names, -, -, -, hrel, -⟩ := rel_under hunder
  unfold Visit.listed at h
  split at h
  · cases h
  · split at h
    · obtain rfl := Option.some.inj h
      rw [hrel]
      rfl
    · cases h

theorem listed_saved {v : Visit} {modTime : Int} {size : Nat} (hunder : v.Under backupDir)
    (hnode : v.node = .file modTime size) (hsaved : SavedFile backupDir v.path) :
    ∃ b, v.listed backupDir = some b := by
  obtain ⟨names, -, hnames, hpath, -, hlast⟩ := rel_under hunder
  obtain ⟨names', -, hnames', -, ⟨name, hlast', hsuffix⟩, hpath'⟩ := savedFile_names hsaved
  have hcomponents := congrArg components (hpath.symm.trans hpath')
  rw [components_render ((components_normal backupDir).append hnames),
    components_render ((components_normal backupDir).append hnames')] at hcomponents
  rw [List.append_cancel_left hcomponents, hlast'] at hlast
  rw [Option.some.inj hlast] at hsuffix
  exact ⟨_, by rw [Visit.listed, hnode]; exact if_pos hsuffix⟩

/-- What is read is inside of the directory, and a listed file that `Save` has
written is listed under an id that reads it. -/
theorem backup_ids (yaml : Yaml) (env : Environment) (backupDir : List Char) :
    (∀ id, (loadBackup yaml env backupDir id).Within (fun _ _ => True) fun path =>
        Inside backupDir path ∧
          (dotDot ∉ components backupDir → dotDot ∉ segments '/' path)) ∧
      ∀ (sorter : Sorter newerBackup) (entries : List (FileName × FileNode)),
        ∃ backups, listBackups sorter backupDir (some entries) = some backups ∧
          (∀ b ∈ backups, (∃ v ∈ walkEntries backupDir entries,
              rel backupDir v.path = some b.id) ∧
            ∀ path, SavedFile backupDir path → rel backupDir path = some b.id → ∀ answer,
              (loadBackup yaml env backupDir b.id).issued answer = [path]) ∧
          ∀ v ∈ walkEntries backupDir entries, ∀ modTime size, v.node = .file modTime size →
            SavedFile backupDir v.path → ∃ b ∈ backups, rel backupDir v.path = some b.id := by
  refine ⟨fun id => ?_, fun sorter entries => ?_⟩
  · unfold loadBackup
    cases hpath : backupPath backupDir id with
    | none => trivial
    | some path =>
        have hinside := backupPath_inside hpath
        refine ⟨⟨hinside, hinside.no_step⟩, fun r _ => ?_⟩
        cases r with
        | error e => trivial
        | ok data =>
            dsimp only [Prog.call, Bind.bind, Prog.bind]
            cases load yaml env data <;> trivial
  · obtain ⟨backups, hlist, hmem⟩ := listBackups_mem sorter backupDir entries
    have hunder := walkEntries_under backupDir entries
    refine ⟨backups, hlist, fun b hb => ?_, fun v hv modTime size hnode hsaved => ?_⟩
    · obtain ⟨v, hv, hlisted⟩ := (hmem b).1 hb
      refine ⟨⟨v, hv, listed_id (hunder v hv) hlisted⟩, fun path hsaved hid answer => ?_⟩
      obtain ⟨id, hrel, hpath⟩ := backupPath_saved hsaved
      obtain rfl := Option.some.inj (hid.symm.trans hrel)
      exact loadBackup_issued hpath answer
    · obtain ⟨b, hlisted⟩ := listed_saved (hunder v hv) hnode hsaved
      exact ⟨b, (hmem b).2 ⟨v, hv, hlisted⟩, listed_id (hunder v hv) hlisted⟩

def byAge : Sorter newerBackup :=
  .stable newerBackup (by simp [newerBackup]; omega) (by simp [newerBackup]; omega)

/-- The directory of the backups with what was saved at the beginning of 1970. -/
def epochBackups : List (FileName × FileNode) :=
  [(⟨formatDay 0, plain_day 0⟩, .dir [(⟨formatTime 0 0 ++ yamlSuffix, plain_file 0 0⟩, .file 0 9)])]

theorem backup_ids_epoch :
    ∃ backups, listBackups byAge "../backups".toList (some epochBackups) = some backups ∧
      ∃ b ∈ backups, ∀ answer,
        (loadBackup passwordYaml (fun _ => none) "../backups".toList b.id).issued answer =
          [backupFile "../backups".toList (formatDay 0) (formatTime 0 0)] := by
  obtain ⟨-, hlist⟩ := backup_ids passwordYaml (fun _ => none) "../backups".toList
  obtain ⟨backups, hbackups, hread, hlisted⟩ := hlist byAge epochBackups
  have hsaved : SavedFile "../backups".toList
      (backupFile "../backups".toList (formatDay 0) (formatTime 0 0)) := ⟨0, 0, 0, rfl⟩
  obtain ⟨b, hb, hid⟩ := hlisted
    ⟨_, ⟨formatTime 0 0 ++ yamlSuffix, plain_file 0 0⟩, .file 0 9⟩ (.tail _ (.head _)) 0 9 rfl hsaved
  exact ⟨backups, hbackups, b, hb, (hread b hb).2 _ hsaved hid⟩

end KafkaManager
