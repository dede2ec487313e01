import KafkaManager.Config.Store
import KafkaManager.Proofs.SaveLoad

/-!
# What `Save` does to the configuration file

Whichever calls fail, at every moment the file is the old one or the new one
(`Intact`), as long as it was not opened in place. It is opened in place only
after a rename was refused as busy, and then it holds a beginning of the new
text. The phases of `save` have one lemma each; `safe_call` is the rule they
are made of, and `Untouched` is what all but the last of them keep.
-/

namespace KafkaManager

open Lib

namespace FileSystem

@[simp] theorem set_truncated (s : FileSystem) (f : File) (v : Option (List Char)) :
    (s.set f v).truncated = s.truncated := rfl

@[simp] theorem set_refused (s : FileSystem) (f : File) (v : Option (List Char)) :
    (s.set f v).refused = s.refused := rfl

@[simp] theorem set_content_self (s : FileSystem) (f : File) (v : Option (List Char)) :
    (s.set f v).content f = v := Function.update_self ..

theorem set_content_of_ne (s : FileSystem) {f g : File} (h : g ≠ f) (v : Option (List Char)) :
    (s.set f v).content g = s.content g := Function.update_of_ne h ..

end FileSystem

/-- The file is whole, or it was opened in place after a rename was refused,
and holds a beginning of the new text. -/
structure Intact (old : Option (List Char)) (data : List Char) (s : FileSystem) : Prop where
  whole : s.truncated = false → s.content .config = old ∨ s.content .config = some data
  part : s.truncated = true → s.refused = true ∧ ∃ k, s.content .config = some (data.take k)

/-- The file is the old one. -/
structure Untouched (old : Option (List Char)) (s : FileSystem) : Prop where
  config : s.content .config = old
  truncated : s.truncated = false

/-- Success means the new text; an error without opening in place, the old. -/
structure Replaced (old : Option (List Char)) (data : List Char) (failed : Bool)
    (s : FileSystem) : Prop where
  success : failed = false → s.content .config = some data
  failure : failed = true → s.truncated = false → s.content .config = old

def saveProtocol (old : Option (List Char)) (data : List Char) :
    Protocol FileCall FileSystem where
  inv := Intact old data
  rely t s s' := t = 0 → s' = s
  pre _ _ _ := True
  refl _ _ _ := rfl
  trans _ _ _ _ h₁ h₂ ht := (h₂ ht).trans (h₁ ht)

/-- A call that leaves the files alone. -/
def FileCall.quiet : FileCall → Bool
  | .readFile _ | .now _ | .mkdirAll _ | .chmod _ | .sync _ | .close _ => true
  | _ => false

theorem FileCall.exec_quiet {c : FileCall} (hc : c.quiet = true) {r r' : c.Answer}
    {s s' : FileSystem} (h : c.exec r s = some (r', s')) : s' = s := by
  cases c with
  | readFile f =>
      cases r with
      | error e => exact (Prod.mk.inj (Option.some.inj h)).2.symm
      | ok _ =>
          simp only [FileCall.exec] at h
          split at h
          · exact (Prod.mk.inj (Option.some.inj h)).2.symm
          · exact (Prod.mk.inj (Option.some.inj h)).2.symm
  | now layout => exact (Prod.mk.inj (Option.some.inj h)).2.symm
  | mkdirAll d => exact (Prod.mk.inj (Option.some.inj h)).2.symm
  | chmod f => exact (Prod.mk.inj (Option.some.inj h)).2.symm
  | sync f => exact (Prod.mk.inj (Option.some.inj h)).2.symm
  | close f => exact (Prod.mk.inj (Option.some.inj h)).2.symm
  | writeFile | createTemp | write | rename | openTruncate | remove =>
      exact absurd hc (by simp [FileCall.quiet])

section

variable {old : Option (List Char)} {data : List Char} {s : FileSystem}

theorem Untouched.intact (h : Untouched old s) : Intact old data s :=
  ⟨fun _ => Or.inl h.config, fun ht => absurd ht (by simp [h.truncated])⟩

theorem Untouched.set (h : Untouched old s) {f : File} (hf : f ≠ .config)
    (v : Option (List Char)) : Untouched old (s.set f v) :=
  ⟨by rw [s.set_content_of_ne hf.symm, h.config], h.truncated⟩

theorem Intact.set (h : Intact old data s) {f : File} (hf : f ≠ .config)
    (v : Option (List Char)) : Intact old data (s.set f v) := by
  have hconfig := s.set_content_of_ne hf.symm v
  exact ⟨fun ht => by rw [hconfig]; exact h.whole ht, fun ht => by rw [hconfig]; exact h.part ht⟩

/-! ## Rules for one call -/

variable {α : Type} {Q : α → FileSystem → Prop}

theorem safe_ret {a : α} (h : Q a s) :
    (saveProtocol old data).Safe saveMachine.exec 0 Q (.ret a) s := by
  intro s' hr _
  obtain rfl := hr rfl
  exact h

theorem safe_call {c : FileCall} {k : c.Answer → FileProg α}
    (h : ∀ r r' s', c.exec r s = some (r', s') →
      Intact old data s' ∧ (saveProtocol old data).Safe saveMachine.exec 0 Q (k r') s') :
    (saveProtocol old data).Safe saveMachine.exec 0 Q (.cmd c k) s := by
  intro s' hr _
  obtain rfl := hr rfl
  refine ⟨trivial, fun o r' s'' he => ?_⟩
  obtain ⟨r, -, hexec⟩ := Option.bind_eq_some_iff.1 he
  obtain ⟨hin, hsafe⟩ := h r r' s'' hexec
  exact ⟨hin, fun t' ht ht0 => absurd ht0 ht, hsafe⟩

theorem safe_quiet {c : FileCall} {k : c.Answer → FileProg α} (hc : c.quiet = true)
    (hs : Intact old data s)
    (h : ∀ r, (saveProtocol old data).Safe saveMachine.exec 0 Q (k r) s) :
    (saveProtocol old data).Safe saveMachine.exec 0 Q (.cmd c k) s := by
  refine safe_call fun r r' s' he => ?_
  obtain rfl := c.exec_quiet hc he
  exact ⟨hs, h r'⟩

/-! ## The phases -/

theorem backupOld_safe (h : Untouched old s) (text : List Char) :
    (saveProtocol old data).Safe saveMachine.exec 0 (fun _ s => Untouched old s)
      (backupOld text) s := by
  unfold backupOld
  split
  · refine safe_quiet rfl h.intact fun day => safe_quiet rfl h.intact fun made => ?_
    cases made with
    | some e => exact safe_ret h
    | none =>
        refine safe_quiet rfl h.intact fun time => safe_call fun r r' s' he => ?_
        have hs' : Untouched old s' := by
          cases r with
          | none =>
              obtain ⟨-, rfl⟩ := Prod.mk.inj (Option.some.inj he)
              exact h.set (by simp) _
          | some e =>
              obtain ⟨-, rfl⟩ := Prod.mk.inj (Option.some.inj he)
              exact h.set (by simp) _
        refine ⟨hs'.intact, ?_⟩
        cases r' with
        | none => exact safe_ret hs'
        | some e => exact safe_ret hs'
  · exact safe_ret h

/-- A write adds a beginning of its data, and all of it if it succeeds. -/
theorem exec_write {f : File} {text written : List Char} {r r' : Option (Nat × FileError)}
    {s' : FileSystem} (hf : s.content f = some written)
    (he : (FileCall.write f text).exec r s = some (r', s')) :
    ∃ k, s' = s.set f (some (written ++ text.take k)) ∧ (r' = none → text.take k = text) := by
  simp only [FileCall.exec, hf] at he
  cases r with
  | none =>
      obtain ⟨rfl, rfl⟩ := Prod.mk.inj (Option.some.inj he)
      exact ⟨text.length, by rw [List.take_length], fun _ => List.take_length⟩
  | some failure =>
      obtain ⟨rfl, rfl⟩ := Prod.mk.inj (Option.some.inj he)
      exact ⟨failure.1, rfl, by simp⟩

/-- The temporary file is complete before it is renamed. -/
theorem writeTemp_safe {n : Nat} (h : Untouched old s) (htmp : s.content (.temp n) = some []) :
    (saveProtocol old data).Safe saveMachine.exec 0
      (fun r s => Untouched old s ∧ (r = none → s.content (.temp n) = some data))
      (writeTemp (.temp n) data) s := by
  unfold writeTemp
  refine safe_quiet rfl h.intact fun mode => ?_
  cases mode with
  | some e => exact safe_quiet rfl h.intact fun _ => safe_ret ⟨h, by simp⟩
  | none =>
      refine safe_call fun r r' s' he => ?_
      obtain ⟨k, rfl, hall⟩ := exec_write htmp he
      have hs' := h.set (f := .temp n) (by simp) (some ([] ++ data.take k))
      refine ⟨hs'.intact, ?_⟩
      cases r' with
      | some failure => exact safe_quiet rfl hs'.intact fun _ => safe_ret ⟨hs', by simp⟩
      | none =>
          refine safe_quiet rfl hs'.intact fun synced => ?_
          cases synced with
          | some e => exact safe_quiet rfl hs'.intact fun _ => safe_ret ⟨hs', by simp⟩
          | none =>
              have hdata : (s.set (.temp n) (some ([] ++ data.take k))).content (.temp n) =
                  some data := by
                rw [FileSystem.set_content_self, hall rfl]
                rfl
              exact safe_quiet rfl hs'.intact fun _ => safe_ret ⟨hs', fun _ => hdata⟩

/-- The file was opened in place and holds `part` of the new text. -/
structure Rewriting (part : List Char) (s : FileSystem) : Prop where
  config : s.content .config = some part
  truncated : s.truncated = true
  refused : s.refused = true

theorem Rewriting.intact {k : Nat} (h : Rewriting (data.take k) s) : Intact old data s :=
  ⟨fun ht => absurd ht (by simp [h.truncated]), fun _ => ⟨h.refused, k, h.config⟩⟩

theorem Rewriting.write (h : Rewriting [] s) (part : List Char) :
    Rewriting part (s.set .config (some ([] ++ part))) :=
  ⟨s.set_content_self .., h.truncated, h.refused⟩

theorem Rewriting.failed {part : List Char} (h : Rewriting part s) : Replaced old data true s :=
  ⟨fun hf => absurd hf (by simp), fun _ ht => absurd ht (by simp [h.truncated])⟩

theorem rewriteInPlace_safe (h : Untouched old s) (hrefused : s.refused = true) :
    (saveProtocol old data).Safe saveMachine.exec 0 (fun r s => Replaced old data r.isSome s)
      (rewriteInPlace data) s := by
  unfold rewriteInPlace
  refine safe_call fun r r' s' he => ?_
  cases r with
  | some e =>
      obtain ⟨rfl, rfl⟩ := Prod.mk.inj (Option.some.inj he)
      exact ⟨h.intact, safe_ret ⟨by simp, fun _ _ => h.config⟩⟩
  | none =>
      simp only [FileCall.exec] at he
      split at he
      · obtain ⟨rfl, rfl⟩ := Prod.mk.inj (Option.some.inj he)
        exact ⟨h.intact, safe_ret ⟨by simp, fun _ _ => h.config⟩⟩
      · obtain ⟨rfl, hs'⟩ := Prod.mk.inj (Option.some.inj he)
        have hopen : Rewriting (data.take 0) s' := by
          rw [← hs']
          exact ⟨s.set_content_self .config _, Bool.or_true _, hrefused⟩
        refine ⟨hopen.intact, safe_call fun r r' s'' he => ?_⟩
        obtain ⟨k, rfl, hall⟩ := exec_write hopen.config he
        have hpart : Rewriting (data.take k) (s'.set .config (some (data.take 0 ++ data.take k))) :=
          hopen.write (data.take k)
        have hin : Intact old data _ := hpart.intact
        refine ⟨hin, ?_⟩
        cases r' with
        | some failure => exact safe_quiet rfl hin fun _ => safe_ret hpart.failed
        | none =>
            refine safe_quiet rfl hin fun synced => ?_
            cases synced with
            | some e => exact safe_quiet rfl hin fun _ => safe_ret hpart.failed
            | none =>
                refine safe_quiet rfl hin fun closed => ?_
                cases closed with
                | some e => exact safe_ret hpart.failed
                | none => exact safe_ret ⟨fun _ => by rw [hpart.config, hall rfl], by simp⟩

theorem replaceConfig_safe {n : Nat} (h : Untouched old s) (htmp : s.content (.temp n) = some []) :
    (saveProtocol old data).Safe saveMachine.exec 0 (fun r s => Replaced old data r.isSome s)
      (replaceConfig (.temp n) data) s := by
  refine Protocol.Safe.bind (writeTemp_safe h htmp) ?_
  rintro written s hin ⟨h, hwritten⟩
  cases written with
  | some e => exact safe_ret ⟨by simp, fun _ _ => h.config⟩
  | none =>
      refine safe_call fun r r' s' he => ?_
      cases r with
      | none =>
          simp only [FileCall.exec, hwritten rfl] at he
          obtain ⟨rfl, rfl⟩ := Prod.mk.inj (Option.some.inj he)
          have hconfig : ((s.set .config (some data)).set (.temp n) none).content .config =
              some data := by
            rw [FileSystem.set_content_of_ne _ (by simp), FileSystem.set_content_self]
          exact ⟨⟨fun _ => Or.inr hconfig, fun ht => absurd ht (by simp [h.truncated])⟩,
            safe_ret ⟨fun _ => hconfig, by simp⟩⟩
      | some e =>
          obtain ⟨rfl, rfl⟩ := Prod.mk.inj (Option.some.inj he)
          have hs' : Untouched old (s.noteRename e) :=
            ⟨h.config, h.truncated⟩
          refine ⟨hs'.intact, ?_⟩
          cases e with
          | busy => exact rewriteInPlace_safe hs' (Bool.or_true _)
          | notExist => exact safe_ret ⟨by simp, fun _ _ => h.config⟩
          | other errno => exact safe_ret ⟨by simp, fun _ _ => h.config⟩

theorem Replaced.set {failed : Bool} (h : Replaced old data failed s) {f : File}
    (hf : f ≠ .config) (v : Option (List Char)) : Replaced old data failed (s.set f v) := by
  have hconfig := s.set_content_of_ne hf.symm v
  exact ⟨fun hs => by rw [hconfig]; exact h.success hs,
    fun hs ht => by rw [hconfig]; exact h.failure hs ht⟩

/-- The temporary file is removed whatever came before. -/
theorem remove_safe {failed : Bool} {n : Nat} {k : Option FileError → FileProg α}
    (hin : Intact old data s) (h : Replaced old data failed s)
    (hk : ∀ r s, Replaced old data failed s →
      (saveProtocol old data).Safe saveMachine.exec 0 Q (k r) s) :
    (saveProtocol old data).Safe saveMachine.exec 0 Q (.cmd (.remove (.temp n)) k) s := by
  refine safe_call fun r r' s' he => ?_
  cases r with
  | none =>
      obtain ⟨rfl, rfl⟩ := Prod.mk.inj (Option.some.inj he)
      exact ⟨hin.set (by simp) _, hk _ _ (h.set (by simp) _)⟩
  | some e =>
      obtain ⟨rfl, rfl⟩ := Prod.mk.inj (Option.some.inj he)
      exact ⟨hin, hk _ _ h⟩

variable {yaml : Yaml} {env : Environment}

/-- What `save` promises when it returns. -/
def Saved (yaml : Yaml) (env : Environment) (old : Option (List Char)) (data : List Char) :
    Except SaveError Config → FileSystem → Prop
  | .ok cfg, s => load yaml env data = .ok cfg ∧ s.content .config = some data
  | .error _, s => s.truncated = false → s.content .config = old

theorem replaceOld_safe {cfg : Config} (hload : load yaml env data = .ok cfg)
    (h : Untouched old s) (text : List Char) :
    (saveProtocol old data).Safe saveMachine.exec 0 (Saved yaml env old data)
      (save.replaceOld data cfg text) s := by
  refine Protocol.Safe.bind (backupOld_safe h text) ?_
  intro backup s _ h
  cases backup with
  | some e => exact safe_ret fun _ => h.config
  | none =>
      refine safe_quiet rfl h.intact fun made => ?_
      cases made with
      | some e => exact safe_ret fun _ => h.config
      | none =>
          refine safe_call fun r r' s' he => ?_
          cases r with
          | error e =>
              obtain ⟨rfl, rfl⟩ := Prod.mk.inj (Option.some.inj he)
              exact ⟨h.intact, safe_ret fun _ => h.config⟩
          | ok n =>
              simp only [FileCall.exec] at he
              split at he
              · exact absurd he (by simp)
              · obtain ⟨rfl, rfl⟩ := Prod.mk.inj (Option.some.inj he)
                have hs' := h.set (f := .temp n) (by simp) (some [])
                refine ⟨hs'.intact, Protocol.Safe.bind (p := replaceConfig (.temp n) data)
                  (replaceConfig_safe hs' (s.set_content_self ..)) ?_⟩
                intro outcome s hin hreplaced
                refine remove_safe hin hreplaced fun _ s hreplaced => ?_
                cases outcome with
                | some e => exact safe_ret (hreplaced.failure rfl)
                | none => exact safe_ret ⟨hload, hreplaced.success rfl⟩

theorem save_safe (h : Untouched old s) :
    (saveProtocol old data).Safe saveMachine.exec 0 (Saved yaml env old data)
      (save yaml env data) s := by
  unfold save
  split
  · exact safe_ret fun _ => h.config
  · next cfg hload =>
      refine safe_quiet rfl h.intact fun r => ?_
      cases r with
      | ok text => exact replaceOld_safe hload h text
      | error e =>
          cases e with
          | notExist => exact replaceOld_safe hload h []
          | busy => exact safe_ret fun _ => h.config
          | other errno => exact safe_ret fun _ => h.config

end

/-- At every moment of a `Save`, whatever fails: until the file is opened in
place it is entirely the old one or entirely the new one, and an error then
leaves the old one. It is opened in place only after a rename was refused as
busy; from then on it is a beginning of the new one. After success it is the
new one. -/
theorem save_replaces (yaml : Yaml) (env : Environment) (data : List Char)
    (content : File → Option (List Char))
    (es : List (Event FileCall FileCall.Answer Empty Empty)) :
    let p := run saveMachine.step
      { shared := { content := content, refused := false, truncated := false }
        threads := [save yaml env data] } es
    (p.shared.truncated = false →
      p.shared.content .config = content .config ∨ p.shared.content .config = some data) ∧
    (p.shared.truncated = true →
      p.shared.refused = true ∧ ∃ k, p.shared.content .config = some (data.take k)) ∧
    ∀ r, p.threads[0]? = some (.ret r) → Saved yaml env (content .config) data r p.shared := by
  intro p
  have hstart : Untouched (content .config)
      { content := content, refused := false, truncated := false } := ⟨rfl, rfl⟩
  have hrespects : saveMachine.Respects (saveProtocol (content .config) data)
      (fun _ => Saved yaml env (content .config) data) := ⟨fun e => e.elim, fun r => r.elim⟩
  have hok : Pool.Ok (saveProtocol (content .config) data) saveMachine
      (fun _ => Saved yaml env (content .config) data) p := by
    refine Pool.run_ok hrespects (p := { shared := _, threads := [save yaml env data] })
      ⟨hstart.intact, fun t prog ht => ?_⟩ es
    cases t with
    | zero =>
        obtain rfl := Option.some.inj ht
        exact save_safe hstart
    | succ t => exact absurd ht (by simp)
  exact ⟨hok.inv.whole, hok.inv.part, fun r hr => hok.post hr⟩

/-- A mounted configuration on a disk that is full by the time it is written in
place. -/
def fullDisk : Oracle FileCall FileCall.Answer
  | .readFile _ => some (.ok [])
  | .now layout => some layout
  | .createTemp => some (.ok 0)
  | .write .config _ => some (some (0, .other 28))
  | .writeFile .. | .write .. => some none
  | .rename .. => some (some .busy)
  | .mkdirAll _ | .chmod _ | .sync _ | .close _ | .openTruncate _ | .remove _ => some none

theorem load_secret : load passwordYaml (fun _ => none) (passwordText secret) =
    .ok (passwordConfig secret) := by
  have hnames : Refs.names (passwordText secret) = [] :=
    (names_passwordText secret).trans (by decide)
  refine load_eq (fun name hname => ?_) ?_ (passwordConfig_valid secret)
  · rw [hnames] at hname
    exact absurd hname (by simp)
  · rw [Refs.expand_of_names_nil _ hnames]
    exact passwordYaml_decode (by decide) .refl

/-- A configuration that is there, and nothing else. -/
def onlyConfig (text : List Char) : FileSystem where
  content f := if f = .config then some text else none
  refused := false
  truncated := false

theorem save_fullDisk {yaml : Yaml} {env : Environment} {data : List Char} {cfg : Config}
    (hload : load yaml env data = .ok cfg) (c : Char) (old : List Char) :
    let p := run saveMachine.step
      { shared := onlyConfig (c :: old), threads := [save yaml env data] }
      (List.replicate 16 (.thread 0 fullDisk))
    p.threads = [.ret (.error (.writeMounted (.other 28)))] ∧
      p.shared.content .config = some [] := by
  unfold save
  simp only [hload, List.replicate]
  iterate 16 rw [Machine.run_thread _ rfl rfl, List.set_cons_zero]
  exact ⟨rfl, rfl⟩

/-- The configuration is lost: neither the old text nor the new. -/
theorem save_replaces_not :
    let p := run saveMachine.step
      { shared := onlyConfig ['o', 'l', 'd']
        threads := [save passwordYaml (fun _ => none) (passwordText secret)] }
      (List.replicate 16 (.thread 0 fullDisk))
    p.threads = [.ret (.error (.writeMounted (.other 28)))] ∧
      p.shared.content .config = some [] ∧
      some [] ≠ (onlyConfig ['o', 'l', 'd']).content .config ∧
      some [] ≠ some (passwordText secret) := by
  obtain ⟨hthreads, hconfig⟩ := save_fullDisk load_secret 'o' ['l', 'd']
  exact ⟨hthreads, hconfig, by simp [onlyConfig], by simp [passwordText]⟩

end KafkaManager
