import KafkaManager.Config.Saves
import KafkaManager.Proofs.SaveReplaces

/-!
# What a `Save` keeps

A `Save` that succeeds has put its text in place. Before that it has written the
old configuration into one file, unless that was empty, and no other file of a
backup changes (`save_keeps`). The phases of `save` have one lemma each.
-/

namespace KafkaManager

open Lib

variable {yaml : Yaml} {env : Environment} {offset : Int} {w w' : SaveWorld}

/-! ## The calls -/

theorem happens_readings {c : FileCall} {r : c.Answer} (h : c.happens offset w r w')
    (hclock : ∀ layout, c ≠ .now layout) : w'.readings = w.readings := by
  cases c with
  | now layout => exact absurd rfl (hclock layout)
  | readFile f => exact h.2.2
  | mkdirAll | writeFile | createTemp | chmod | write | sync | close | rename | openTruncate
  | remove => exact h.2

theorem happens_quiet {c : FileCall} {r : c.Answer} (h : c.happens offset w r w')
    (hquiet : c.quiet = true) (hclock : ∀ layout, c ≠ .now layout) : w' = w := by
  obtain ⟨o, hexec⟩ := h.1
  have hfiles := FileCall.exec_quiet hquiet hexec
  have hreadings := happens_readings h hclock
  cases w
  cases w'
  simp only at hfiles hreadings
  rw [hfiles, hreadings]

/-- The backups are as they were, and the clock was not read. -/
def SameBackups (w w' : SaveWorld) : Prop :=
  (∀ day time, w'.files.content (.backup day time) = w.files.content (.backup day time)) ∧
    w'.readings = w.readings

theorem SameBackups.refl (w : SaveWorld) : SameBackups w w := ⟨fun _ _ => rfl, rfl⟩

theorem SameBackups.trans {w'' : SaveWorld} (h : SameBackups w w') (h' : SameBackups w' w'') :
    SameBackups w w'' :=
  ⟨fun day time => (h'.1 day time).trans (h.1 day time), h'.2.trans h.2⟩

theorem happens_write {f : File} {data : List Char}
    (h : (FileCall.write f data).happens offset w none w') :
    ∃ written, w.files.content f = some written ∧
      w'.files = w.files.set f (some (written ++ data)) ∧ w'.readings = w.readings := by
  obtain ⟨⟨o, hexec⟩, hreadings⟩ := h
  cases hcontent : w.files.content f with
  | none =>
      simp only [FileCall.exec, hcontent] at hexec
      cases hexec
  | some written =>
      refine ⟨written, rfl, ?_, hreadings⟩
      cases o with
      | none =>
          simp only [FileCall.exec, hcontent] at hexec
          exact (Prod.mk.inj (Option.some.inj hexec)).2.symm
      | some failed =>
          simp only [FileCall.exec, hcontent] at hexec
          exact absurd (Prod.mk.inj (Option.some.inj hexec)).1 (by simp)

theorem happens_writeFile {f : File} {data : List Char}
    (h : (FileCall.writeFile f data).happens offset w none w') :
    w'.files = w.files.set f (some data) ∧ w'.readings = w.readings := by
  obtain ⟨⟨o, hexec⟩, hreadings⟩ := h
  refine ⟨?_, hreadings⟩
  cases o with
  | none => exact (Prod.mk.inj (Option.some.inj hexec)).2.symm
  | some failed => exact absurd (Prod.mk.inj (Option.some.inj hexec)).1 (by simp)

theorem happens_rename {old new : File}
    (h : (FileCall.rename old new).happens offset w none w') :
    ∃ data, w.files.content old = some data ∧
      w'.files = (w.files.set new (some data)).set old none ∧ w'.readings = w.readings := by
  obtain ⟨⟨o, hexec⟩, hreadings⟩ := h
  cases o with
  | some e => exact absurd (Prod.mk.inj (Option.some.inj hexec)).1 (by simp)
  | none =>
      cases hcontent : w.files.content old with
      | none =>
          simp only [FileCall.exec, hcontent] at hexec
          exact absurd (Prod.mk.inj (Option.some.inj hexec)).1 (by simp)
      | some data =>
          simp only [FileCall.exec, hcontent] at hexec
          exact ⟨data, rfl, (Prod.mk.inj (Option.some.inj hexec)).2.symm, hreadings⟩

theorem happens_openTruncate {f : File}
    (h : (FileCall.openTruncate f).happens offset w none w') :
    w'.files.content = (w.files.set f (some [])).content ∧ w'.readings = w.readings := by
  obtain ⟨⟨o, hexec⟩, hreadings⟩ := h
  cases o with
  | some e => exact absurd (Prod.mk.inj (Option.some.inj hexec)).1 (by simp)
  | none =>
      cases hcontent : w.files.content f with
      | none =>
          simp only [FileCall.exec, hcontent] at hexec
          exact absurd (Prod.mk.inj (Option.some.inj hexec)).1 (by simp)
      | some data =>
          simp only [FileCall.exec, hcontent] at hexec
          exact ⟨by rw [← (Prod.mk.inj (Option.some.inj hexec)).2]; rfl, hreadings⟩

theorem happens_createTemp {n : Nat} (h : FileCall.createTemp.happens offset w (.ok n) w') :
    w'.files = w.files.set (.temp n) (some []) ∧ w'.readings = w.readings := by
  obtain ⟨⟨o, hexec⟩, hreadings⟩ := h
  refine ⟨?_, hreadings⟩
  cases o with
  | error e => exact absurd (Prod.mk.inj (Option.some.inj hexec)).1 (by simp)
  | ok m =>
      rw [FileCall.exec] at hexec
      split at hexec
      · cases hexec
      · obtain ⟨hm, hfiles⟩ := Prod.mk.inj (Option.some.inj hexec)
        rw [← hfiles, Except.ok.inj hm]

theorem happens_remove {f : File} {r : Option FileError}
    (h : (FileCall.remove f).happens offset w r w') :
    (∀ g, g ≠ f → w'.files.content g = w.files.content g) ∧ w'.readings = w.readings := by
  obtain ⟨⟨o, hexec⟩, hreadings⟩ := h
  refine ⟨fun g hg => ?_, hreadings⟩
  cases o with
  | none =>
      rw [← (Prod.mk.inj (Option.some.inj hexec)).2]
      exact FileSystem.set_content_of_ne _ hg _
  | some e => rw [← (Prod.mk.inj (Option.some.inj hexec)).2]

theorem happens_rename_failed {old new : File} {e : FileError}
    (h : (FileCall.rename old new).happens offset w (some e) w') :
    w'.files.content = w.files.content ∧ w'.readings = w.readings := by
  obtain ⟨⟨o, hexec⟩, hreadings⟩ := h
  refine ⟨?_, hreadings⟩
  cases o with
  | some e' =>
      rw [← (Prod.mk.inj (Option.some.inj hexec)).2]
      rfl
  | none =>
      cases hcontent : w.files.content old with
      | none =>
          simp only [FileCall.exec, hcontent] at hexec
          rw [← (Prod.mk.inj (Option.some.inj hexec)).2]
      | some data =>
          simp only [FileCall.exec, hcontent] at hexec
          exact absurd (Prod.mk.inj (Option.some.inj hexec)).1 (by simp)

/-! ## The phases of a `Save` that succeeds -/

variable {data : List Char}

theorem sameBackups_set {f : File} {v : Option (List Char)} (hf : ∀ day time, f ≠ .backup day time)
    (hfiles : w'.files = w.files.set f v) (hreadings : w'.readings = w.readings) :
    SameBackups w w' := by
  refine ⟨fun day time => ?_, hreadings⟩
  rw [hfiles]
  exact FileSystem.set_content_of_ne _ (hf day time).symm _

/-- A file that was empty holds what was written. -/
theorem happens_write_empty {f : File} (hf : ∀ day time, f ≠ .backup day time)
    (hempty : w.files.content f = some []) (h : FileCall.happens offset (.write f data) w none w') :
    w'.files.content f = some data ∧ SameBackups w w' := by
  obtain ⟨written, hwritten, hfiles, hreadings⟩ := happens_write h
  obtain rfl : [] = written := Option.some.inj (hempty.symm.trans hwritten)
  refine ⟨?_, sameBackups_set hf hfiles hreadings⟩
  rw [hfiles]
  exact FileSystem.set_content_self ..

theorem writeTemp_succeeds {n : Nat} (hempty : w.files.content (.temp n) = some [])
    (h : (writeTemp (.temp n) data).Runs (FileCall.happens offset) w none w') :
    w'.files.content (.temp n) = some data ∧ SameBackups w w' := by
  unfold writeTemp at h
  obtain ⟨r, w₁, hchmod, h⟩ := h
  obtain rfl := happens_quiet hchmod rfl (by simp)
  cases r with
  | some e =>
      obtain ⟨r, w₂, -, h⟩ := h
      exact absurd h.1 (by simp)
  | none =>
      obtain ⟨r, w₂, hwrite, h⟩ := h
      cases r with
      | some failed =>
          obtain ⟨r, w₃, -, h⟩ := h
          exact absurd h.1 (by simp)
      | none =>
          have hwritten := happens_write_empty (by simp) hempty hwrite
          obtain ⟨r, w₃, hsync, h⟩ := h
          obtain rfl := happens_quiet hsync rfl (by simp)
          cases r with
          | some e =>
              obtain ⟨r, w₄, -, h⟩ := h
              exact absurd h.1 (by simp)
          | none =>
              obtain ⟨r, w₄, hclose, h⟩ := h
              obtain rfl := happens_quiet hclose rfl (by simp)
              obtain ⟨-, rfl⟩ := h
              exact hwritten

theorem rewriteInPlace_succeeds
    (h : (rewriteInPlace data).Runs (FileCall.happens offset) w none w') :
    w'.files.content .config = some data ∧ SameBackups w w' := by
  unfold rewriteInPlace at h
  obtain ⟨r, w₁, hopen, h⟩ := h
  cases r with
  | some e => exact absurd h.1 (by simp)
  | none =>
      obtain ⟨hopened, hread⟩ := happens_openTruncate hopen
      obtain ⟨r, w₂, hwrite, h⟩ := h
      cases r with
      | some failed =>
          obtain ⟨r, w₃, -, h⟩ := h
          exact absurd h.1 (by simp)
      | none =>
          have hempty : w₁.files.content .config = some [] := by
            rw [hopened]
            exact FileSystem.set_content_self ..
          obtain ⟨hwritten, hkept⟩ := happens_write_empty (by simp) hempty hwrite
          obtain ⟨r, w₃, hsync, h⟩ := h
          obtain rfl := happens_quiet hsync rfl (by simp)
          cases r with
          | some e =>
              obtain ⟨r, w₄, -, h⟩ := h
              exact absurd h.1 (by simp)
          | none =>
              obtain ⟨r, w₄, hclose, h⟩ := h
              obtain rfl := happens_quiet hclose rfl (by simp)
              cases r with
              | some e => exact absurd h.1 (by simp)
              | none =>
                  obtain ⟨-, rfl⟩ := h
                  have hsame : SameBackups w w₁ := by
                    refine ⟨fun day time => ?_, hread⟩
                    rw [hopened, FileSystem.set_content_of_ne _ (by simp)]
                  exact ⟨hwritten, hsame.trans hkept⟩

theorem replaceConfig_succeeds {n : Nat} (hempty : w.files.content (.temp n) = some [])
    (h : (replaceConfig (.temp n) data).Runs (FileCall.happens offset) w none w') :
    w'.files.content .config = some data ∧ SameBackups w w' := by
  unfold replaceConfig at h
  obtain ⟨r, w₁, htemp, h⟩ := Prog.runs_bind.1 h
  cases r with
  | some e => exact absurd h.1 (by simp)
  | none =>
      obtain ⟨hwritten, hsame⟩ := writeTemp_succeeds hempty htemp
      obtain ⟨r, w₂, hrename, h⟩ := h
      cases r with
      | none =>
          obtain ⟨-, rfl⟩ := h
          obtain ⟨moved, hmoved, hfiles, hreadings⟩ := happens_rename hrename
          obtain rfl := Option.some.inj (hwritten.symm.trans hmoved)
          refine ⟨?_, hsame.trans ⟨fun day time => ?_, hreadings⟩⟩
          · rw [hfiles, FileSystem.set_content_of_ne _ (by simp)]
            exact FileSystem.set_content_self ..
          · rw [hfiles, FileSystem.set_content_of_ne _ (by simp),
              FileSystem.set_content_of_ne _ (by simp)]
      | some e =>
          obtain ⟨hfiles, hreadings⟩ := happens_rename_failed hrename
          have hfailed : SameBackups w₁ w₂ := ⟨fun day time => by rw [hfiles], hreadings⟩
          cases e with
          | busy =>
              obtain ⟨hconfig, hrewritten⟩ := rewriteInPlace_succeeds h
              exact ⟨hconfig, (hsame.trans hfailed).trans hrewritten⟩
          | notExist => exact absurd h.1 (by simp)
          | other errno => exact absurd h.1 (by simp)

/-- One backup is written, and the clock was read twice for its name. -/
structure Keeps (offset : Int) (w w' : SaveWorld) (k : Replacement) : Prop where
  first : ∀ u ∈ w.readings, u.before k.first.toInstant = true
  second : ∀ u ∈ w.readings, u.before k.second.toInstant = true
  order : k.first.before k.second.toInstant = true
  readings : w'.readings = k.second :: k.first :: w.readings
  backups : ∀ day time, w'.files.content (.backup day time) =
    if File.backup day time = k.file offset then some k.content
    else w.files.content (.backup day time)

theorem Keeps.trans {k : Replacement} {w'' : SaveWorld} (h : Keeps offset w w' k)
    (h' : SameBackups w' w'') : Keeps offset w w'' k :=
  { h with
    readings := h'.2.trans h.readings
    backups := fun day time => (h'.1 day time).trans (h.backups day time) }

/-- What is kept of an old text: nothing of an empty one. -/
theorem backupOld_succeeds {old : List Char}
    (h : (backupOld old).Runs (FileCall.happens offset) w none w') :
    w'.files.content .config = w.files.content .config ∧
      (old = [] → SameBackups w w') ∧
      (old ≠ [] → ∃ first second, Keeps offset w w' { content := old, first, second }) := by
  unfold backupOld at h
  split at h
  · next hlength =>
      have hne : old ≠ [] := List.ne_nil_of_length_pos hlength
      obtain ⟨day, w₁, hnow, h⟩ := h
      obtain ⟨⟨o, hexec⟩, first, hfirst, rfl, hread⟩ := hnow
      have hfiles : w₁.files = w.files := (Prod.mk.inj (Option.some.inj hexec)).2.symm
      obtain ⟨r, w₂, hmkdir, h⟩ := h
      obtain rfl := happens_quiet hmkdir rfl (by simp)
      cases r with
      | some e => exact absurd h.1 (by simp)
      | none =>
          obtain ⟨time, w₃, hnow', h⟩ := h
          obtain ⟨⟨o', hexec'⟩, second, hsecond, rfl, hread'⟩ := hnow'
          have hfiles' : w₃.files = w₂.files := (Prod.mk.inj (Option.some.inj hexec')).2.symm
          obtain ⟨r, w₄, hwrite, h⟩ := h
          cases r with
          | some failed => exact absurd h.1 (by simp)
          | none =>
              obtain ⟨-, rfl⟩ := h
              obtain ⟨hwritten, hsame⟩ := happens_writeFile hwrite
              rw [hread] at hsecond hread'
              rw [hfiles', hfiles] at hwritten
              obtain ⟨hafter, hsecond⟩ := List.forall_mem_cons.1 hsecond
              refine ⟨?_, fun hnil => absurd hnil hne, fun _ => ⟨first, second,
                { first := hfirst
                  second := hsecond
                  order := hafter
                  readings := hsame.trans hread'
                  backups := fun day time => ?_ }⟩⟩
              · rw [hwritten]
                exact FileSystem.set_content_of_ne _ (by simp) _
              · rw [hwritten]
                exact Function.update_apply ..
  · next hlength =>
      obtain rfl : old = [] := List.eq_nil_of_length_eq_zero (by omega)
      obtain ⟨-, rfl⟩ := h
      exact ⟨rfl, fun _ => .refl w, fun hne => absurd rfl hne⟩

theorem replaceOld_succeeds {cfg cfg' : Config} {old : List Char}
    (h : (save.replaceOld data cfg old).Runs (FileCall.happens offset) w (.ok cfg') w') :
    cfg' = cfg ∧ w'.files.content .config = some data ∧
      ∃ w₁, (backupOld old).Runs (FileCall.happens offset) w none w₁ ∧ SameBackups w₁ w' := by
  unfold save.replaceOld at h
  obtain ⟨r, w₁, hbackup, h⟩ := Prog.runs_bind.1 h
  cases r with
  | some e => exact absurd h.1 (by simp)
  | none =>
      obtain ⟨r, w₂, hmkdir, h⟩ := h
      obtain rfl := happens_quiet hmkdir rfl (by simp)
      cases r with
      | some e => exact absurd h.1 (by simp)
      | none =>
          obtain ⟨r, w₃, hcreate, h⟩ := h
          cases r with
          | error e => exact absurd h.1 (by simp)
          | ok n =>
              obtain ⟨hfiles, hreadings⟩ := happens_createTemp hcreate
              have hempty : w₃.files.content (.temp n) = some [] := by
                rw [hfiles]
                exact FileSystem.set_content_self ..
              change (replaceConfig (.temp n) data >>= _).Runs _ _ _ _ at h
              obtain ⟨outcome, w₄, hreplace, h⟩ := Prog.runs_bind.1 h
              obtain ⟨r, w₅, hremove, h⟩ := h
              obtain ⟨hremoved, hread⟩ := happens_remove hremove
              cases outcome with
              | some e => exact absurd h.1 (by simp)
              | none =>
                  obtain ⟨hcfg, rfl⟩ := h
                  obtain ⟨hconfig, hsame⟩ := replaceConfig_succeeds hempty hreplace
                  have hcreated : SameBackups w₂ w₃ := sameBackups_set (by simp) hfiles hreadings
                  refine ⟨(Except.ok.inj hcfg).symm, ?_, w₂, hbackup, ?_⟩
                  · rw [hremoved _ (by simp)]
                    exact hconfig
                  · exact (hcreated.trans hsame).trans
                      ⟨fun day time => hremoved _ (by simp), hread⟩

/-- A `Save` that succeeds puts its text in place. It keeps what was there,
unless that was empty. -/
theorem save_keeps {cfg : Config}
    (h : (save yaml env data).Runs (FileCall.happens offset) w (.ok cfg) w') :
    load yaml env data = .ok cfg ∧ w'.files.content .config = some data ∧
      ((w.files.content .config).getD [] = [] → SameBackups w w') ∧
      ∀ old, old ≠ [] → w.files.content .config = some old →
        ∃ first second, Keeps offset w w' { content := old, first, second } := by
  unfold save at h
  cases hload : load yaml env data with
  | error e =>
      rw [hload] at h
      exact absurd h.1 (by simp)
  | ok cfg₀ =>
      rw [hload] at h
      obtain ⟨r, w₁, hread, h⟩ := h
      obtain rfl := happens_quiet hread rfl (by simp)
      cases r with
      | error e =>
          cases e with
          | busy => exact absurd h.1 (by simp)
          | other errno => exact absurd h.1 (by simp)
          | notExist =>
              have hnone : w₁.files.content .config = none := hread.2.1 rfl
              obtain ⟨rfl, hconfig, w₂, hbackup, hsame⟩ := replaceOld_succeeds h
              obtain ⟨-, hempty, -⟩ := backupOld_succeeds hbackup
              refine ⟨rfl, hconfig, fun _ => (hempty rfl).trans hsame, fun old _ hold => ?_⟩
              rw [hnone] at hold
              cases hold
      | ok old =>
          have hsome : w₁.files.content .config = some old := by
            obtain ⟨o, hexec⟩ := hread.1
            cases o with
            | error e => exact absurd (Prod.mk.inj (Option.some.inj hexec)).1 (by simp)
            | ok _ =>
                cases hcontent : w₁.files.content .config with
                | none =>
                    simp only [FileCall.exec, hcontent] at hexec
                    exact absurd (Prod.mk.inj (Option.some.inj hexec)).1 (by simp)
                | some content =>
                    simp only [FileCall.exec, hcontent] at hexec
                    rw [Except.ok.inj (Prod.mk.inj (Option.some.inj hexec)).1]
          obtain ⟨rfl, hconfig, w₂, hbackup, hsame⟩ := replaceOld_succeeds h
          obtain ⟨-, hempty, hkept⟩ := backupOld_succeeds hbackup
          refine ⟨rfl, hconfig, fun hnil => ?_, fun old' hne hold => ?_⟩
          · rw [hsome] at hnil
            exact (hempty hnil).trans hsame
          · obtain rfl := Option.some.inj (hsome.symm.trans hold)
            obtain ⟨first, second, hkeeps⟩ := hkept hne
            exact ⟨first, second, hkeeps.trans hsame⟩

end KafkaManager
