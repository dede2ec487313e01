import KafkaManager.Audit.Query
import KafkaManager.Lib.Run

/-!
# What the audit log returns

As long as every line that gets to its file as a whole begins at the beginning
of a line and has room in the scanner, and no part of a line is a record, the
lines of the files are what was written, and a query gives the newest of it.

A part of a line stays at the end of its file. The writer that left it there
writes nothing any more, but the next process appends to it.
-/

namespace KafkaManager.Audit

open Lib

/-! ## Files -/

theorem Entry.marshal_line {e : Entry} {json : List Char} (h : e.marshal = some json) :
    newline ∉ utf8 json ∧ carriageReturn ∉ utf8 json := by
  obtain ⟨text, -, rfl⟩ := Option.map_eq_some_iff.1 h
  exact (e.toJson text).write_line

namespace LogFile

/-- The records on the lines of a file. -/
def entries (file : LogFile) : List Entry := (splitLines file.content).1.filterMap Entry.ofLine

/-- What is after the last line. -/
def torn (file : LogFile) : List UInt8 := (splitLines file.content).2

/-- The scanner comes to the end of the file and finds no record there. -/
structure Sound (file : LogFile) : Prop where
  lines : ∀ line ∈ (splitLines file.content).1, line.length < tokenSize ∧ carriageReturn ∉ line
  rest : file.torn.length < tokenSize ∧ carriageReturn ∉ file.torn
  torn : Entry.ofLine file.torn = none

variable {file : LogFile}

theorem empty_rest : ([] : List UInt8).length < tokenSize ∧ carriageReturn ∉ ([] : List UInt8) := by
  decide

theorem sound_empty (day : String) (index : Nat) :
    ({ day, index, content := [] } : LogFile).Sound where
  lines := by
    intro line hline
    cases hline
  rest := empty_rest
  torn := rfl

theorem Sound.found (h : file.Sound) (f : Filter) :
    file.found f = some (file.entries.filter f.accepts) := by
  have hscan := scanLines_plain h.lines h.rest
  have htorn : List.filterMap Entry.ofLine
      (if (splitLines file.content).2 = [] then [] else [(splitLines file.content).2]) = [] := by
    split
    · rfl
    · have hnone : Entry.ofLine (splitLines file.content).2 = none := h.torn
      rw [List.filterMap_cons_none hnone, List.filterMap_nil]
  rw [LogFile.found, hscan, Option.map_some, List.filterMap_append, htorn, List.append_nil]
  rfl

/-- A line that begins a line is one more record. -/
theorem Sound.append_line (h : file.Sound) (hend : file.torn = []) {e : Entry} {json : List Char}
    (hjson : e.marshal = some json) (hfits : (utf8 json).length < tokenSize) :
    ({ file with content := file.content ++ (utf8 json ++ [newline]) } : LogFile).Sound ∧
      ({ file with content := file.content ++ (utf8 json ++ [newline]) } : LogFile).entries =
        file.entries ++ [e] := by
  obtain ⟨hnewline, hreturn⟩ := e.marshal_line hjson
  have hsplit : splitLines (file.content ++ (utf8 json ++ [newline])) =
      ((splitLines file.content).1 ++ [utf8 json], []) := by
    rw [splitLines_append, splitLines_line hnewline, show (splitLines file.content).2 = [] from hend]
    rfl
  refine ⟨⟨?_, ?_, ?_⟩, ?_⟩
  · intro line hline
    simp only [hsplit, List.mem_append, List.mem_singleton] at hline
    rcases hline with hline | rfl
    · exact h.lines line hline
    · exact ⟨hfits, hreturn⟩
  · rw [LogFile.torn, hsplit]
    exact empty_rest
  · rw [LogFile.torn, hsplit]
    rfl
  · rw [entries, hsplit, List.filterMap_append, List.filterMap_cons_some (e.ofLine_marshal hjson)]
    rfl

/-- A part of a line is none. -/
theorem Sound.append_torn (h : file.Sound) {data : List UInt8} (hnewline : newline ∉ data)
    (hreturn : carriageReturn ∉ data) (hfits : (file.torn ++ data).length < tokenSize)
    (hnone : Entry.ofLine (file.torn ++ data) = none) :
    ({ file with content := file.content ++ data } : LogFile).Sound ∧
      ({ file with content := file.content ++ data } : LogFile).entries = file.entries := by
  have hsplit : splitLines (file.content ++ data) =
      ((splitLines file.content).1, file.torn ++ data) := by
    rw [splitLines_append, splitLines_plain hnewline]
    rfl
  refine ⟨⟨?_, ?_, ?_⟩, ?_⟩
  · rw [hsplit]
    exact h.lines
  · rw [LogFile.torn, hsplit]
    refine ⟨hfits, fun hmem => ?_⟩
    rcases List.mem_append.1 hmem with hmem | hmem
    · exact h.rest.2 hmem
    · exact hreturn hmem
  · rw [LogFile.torn, hsplit]
    exact hnone
  · rw [entries, hsplit]
    rfl

end LogFile

theorem appendTo_named {day : String} {index : Nat} {data : List UInt8} {file : LogFile}
    {before after : List LogFile} (hfile : file.named day index = true)
    (hbefore : ∀ f ∈ before, (!f.named day index) = true) :
    appendTo day index data (before ++ file :: after) =
      before ++ { file with content := file.content ++ data } :: after := by
  induction before with
  | nil => rw [List.nil_append, appendTo, if_pos hfile, List.nil_append]
  | cons f before ih =>
      have hf : ¬ f.named day index = true := by simpa using hbefore f (.head _)
      rw [List.cons_append, appendTo, if_neg hf, ih fun g hg => hbefore g (.tail _ hg),
        List.cons_append]

/-- What is in the files, by their days. -/
def recorded (files : List LogFile) : List (String × Entry) :=
  files.flatMap fun file => file.entries.map fun e => (file.day, e)

/-! ## The writer -/

namespace Writer

/-- The file that is open is one of the writer's day. -/
def Opened (w : Writer) (files : List LogFile) : Prop :=
  ∀ o, w.file = some o →
    o.day = w.date ∧ ∃ file ∈ files, file.named o.day o.index = true

/-- There may be a new file. -/
def Grown (files files' : List LogFile) : Prop :=
  files' = files ∨ ∃ day index, files' = files ++ [{ day, index, content := [] }]

variable {w w' : Writer} {files files' : List LogFile} {faults : Faults} {incoming fuel : Nat}
  {ok : Bool}

theorem opened_of_none (h : w.file = none) : w.Opened files := by
  intro o ho
  rw [h] at ho
  cases ho

theorem openNext_spec (hclosed : w.file = none)
    (h : openNext faults incoming fuel w files = (ok, w', files')) :
    w'.date = w.date ∧ w'.Opened files' ∧ Grown files files' ∧ (ok = true → w'.file.isSome) := by
  induction fuel generalizing w with
  | zero =>
      obtain ⟨rfl, rfl, rfl⟩ := h
      exact ⟨rfl, opened_of_none hclosed, .inl rfl, by simp⟩
  | succ fuel ih =>
      simp only [openNext] at h
      split at h
      · obtain ⟨rfl, rfl, rfl⟩ := h
        exact ⟨rfl, opened_of_none hclosed, .inl rfl, by simp⟩
      · split at h
        · split at h
          · obtain ⟨rfl, rfl, rfl⟩ := h
            exact ⟨rfl, opened_of_none hclosed, .inl rfl, by simp⟩
          · obtain ⟨rfl, rfl, rfl⟩ := h
            refine ⟨rfl, fun o ho => ?_, .inr ⟨_, _, rfl⟩, fun _ => rfl⟩
            obtain rfl := Option.some.inj ho
            exact ⟨rfl, _, List.mem_append_right _ (.head _), by simp [LogFile.named]⟩
        · next file hfile =>
            split at h
            · split at h
              · obtain ⟨rfl, rfl, rfl⟩ := h
                exact ⟨rfl, opened_of_none hclosed, .inl rfl, by simp⟩
              · obtain ⟨rfl, rfl, rfl⟩ := h
                refine ⟨rfl, fun o ho => ?_, .inl rfl, fun _ => rfl⟩
                obtain rfl := Option.some.inj ho
                exact ⟨rfl, file, List.mem_of_find?_eq_some hfile,
                  List.find?_some hfile⟩
            · exact ih (w := { w with index := w.index + 1 }) hclosed h

theorem closeLocked_file {fault : Bool} (h : w.closeLocked fault = (true, w')) :
    w'.file = none := by
  unfold closeLocked at h
  split at h
  · next hfile =>
      obtain ⟨-, rfl⟩ := h
      exact hfile
  · split at h
    · cases h
    · obtain ⟨-, rfl⟩ := Prod.mk.inj h
      rfl

theorem closeLocked_opened (fault : Bool) (hw : w.Opened files) :
    (w.closeLocked fault).2.Opened files := by
  unfold closeLocked
  split
  · exact hw
  · split
    · exact hw
    · exact opened_of_none rfl

theorem ensureFile_spec {date : String} (hw : w.Opened files)
    (h : w.ensureFile faults date incoming files = (ok, w', files')) :
    w'.Opened files' ∧ Grown files files' ∧
      (ok = true → ∃ o, w'.file = some o ∧ o.day = date) := by
  unfold ensureFile at h
  split at h
  · next hopen =>
      obtain ⟨rfl, rfl, rfl⟩ := h
      obtain ⟨hsome, hdate, -⟩ := hopen
      obtain ⟨o, ho⟩ := Option.isSome_iff_exists.1 hsome
      exact ⟨hw, .inl rfl, fun _ => ⟨o, ho, (hw o ho).1.trans hdate⟩⟩
  · have hclosed := closeLocked_opened faults.close hw
    split at h
    · next w₁ hclose =>
        obtain ⟨rfl, rfl, rfl⟩ := h
        rw [hclose] at hclosed
        exact ⟨hclosed, .inl rfl, by simp⟩
    · next w₁ hclose =>
        have hnone : (w₁.turnTo date).file = none := by
          have hfile := closeLocked_file hclose
          unfold turnTo
          split
          · exact hfile
          · exact hfile
        have hdate : (w₁.turnTo date).date = date := by
          unfold turnTo
          split
          · assumption
          · rfl
        split at h
        · obtain ⟨rfl, rfl, rfl⟩ := h
          exact ⟨opened_of_none hnone, .inl rfl, by simp⟩
        · obtain ⟨hsame, hopened, hgrown, hsome⟩ := openNext_spec hnone h
          refine ⟨hopened, hgrown, fun hok => ?_⟩
          obtain ⟨o, ho⟩ := Option.isSome_iff_exists.1 (hsome hok)
          exact ⟨o, ho, (hopened o ho).1.trans (hsame.trans hdate)⟩

/-- A writer whose buffer has failed writes nothing. Otherwise the data gets to
the file, or a part of it. -/
theorem put_spec {o : OpenFile} {data : List UInt8} {fault : Option Nat} (ho : w.file = some o)
    (h : w.put data fault files = (ok, w', files')) :
    (ok = false ∧ w' = w ∧ files' = files) ∨
      (o.failed = false ∧ w'.date = w.date ∧
        (∃ o', w'.file = some o' ∧ o'.day = o.day ∧ o'.index = o.index) ∧
        match fault with
        | none => ok = true ∧ files' = appendTo o.day o.index data files
        | some n => ok = false ∧ files' = appendTo o.day o.index (data.dropLast.take n) files) := by
  simp only [put, ho] at h
  split at h
  · obtain ⟨rfl, rfl, rfl⟩ := h
    exact .inl ⟨rfl, rfl, rfl⟩
  · next hfailed =>
      rw [Bool.not_eq_true] at hfailed
      cases fault with
      | none =>
          obtain ⟨rfl, rfl, rfl⟩ := h
          exact .inr ⟨hfailed, rfl, ⟨o, rfl, rfl, rfl⟩, rfl, rfl⟩
      | some n =>
          obtain ⟨rfl, rfl, rfl⟩ := h
          exact .inr ⟨hfailed, rfl, ⟨_, rfl, rfl, rfl⟩, rfl, rfl⟩

/-- The files while one of them gets longer. -/
theorem appended {o : OpenFile} (hw : w.Opened files)
    (ho : w.file = some o) (data : List UInt8) :
    ∃ before file after, files = before ++ file :: after ∧
      files.find? (LogFile.named o.day o.index) = some file ∧ file.day = o.day ∧
      file.named o.day o.index = true ∧
      appendTo o.day o.index data files =
        before ++ { file with content := file.content ++ data } :: after := by
  obtain ⟨-, found, hmem, hnamed⟩ := hw o ho
  obtain ⟨file, hfind⟩ := Option.isSome_iff_exists.1
    (List.find?_isSome.2 ⟨found, hmem, hnamed⟩)
  obtain ⟨hfile, before, after, rfl, hbefore⟩ := List.find?_eq_some_iff_append.1 hfind
  exact ⟨before, file, after, rfl, hfind, eq_of_beq (Bool.and_eq_true_iff.1 hfile).1, hfile,
    appendTo_named hfile hbefore⟩

/-- The file stays open. -/
theorem put_opened {data : List UInt8} {fault : Option Nat} (hw : w.Opened files)
    (h : w.put data fault files = (ok, w', files')) : w'.Opened files' := by
  cases ho : w.file with
  | none =>
      simp only [put, ho] at h
      obtain ⟨-, rfl, rfl⟩ := h
      exact hw
  | some o =>
      rcases put_spec ho h with ⟨-, rfl, rfl⟩ | ⟨-, hdate, ⟨o', ho', hday', hindex'⟩, heffect⟩
      · exact hw
      · obtain ⟨more, hfiles'⟩ : ∃ more, files' = appendTo o.day o.index more files := by
          cases fault with
          | none => exact ⟨data, heffect.2⟩
          | some n => exact ⟨data.dropLast.take n, heffect.2⟩
        obtain ⟨before, file, after, -, -, -, hnamed, happend⟩ := appended hw ho more
        intro o₁ ho₁
        obtain rfl := Option.some.inj (ho'.symm.trans ho₁)
        rw [hfiles', happend, hday', hindex', hdate]
        exact ⟨(hw o ho).1, _, List.mem_append_right _ (.head _), hnamed⟩

end Writer

/-! ## Runs -/

/-- The file a writer has open. -/
def AuditLog.openFile (s : AuditLog) (o : OpenFile) : Option LogFile :=
  s.files.find? (LogFile.named o.day o.index)

/-- What is after the last line of that file. -/
def AuditLog.torn (s : AuditLog) (o : OpenFile) : List UInt8 :=
  match s.openFile o with
  | none => []
  | some file => file.torn

/-- A line gets to its file after a complete line and has room in the scanner,
or a part of it gets there that makes no record of what is after the last line. -/
def tidy (s : AuditLog) : LogEvent → Bool
  | .start | .write .. | .close _ => true
  | .flush fault =>
      match s.writer.bind Writer.file, s.pending with
      | some o, some p =>
          o.failed ||
            match fault with
            | none => (s.torn o).isEmpty && decide (p.data.length ≤ tokenSize)
            | some n =>
                let torn := s.torn o ++ p.data.dropLast.take n
                decide (torn.length < tokenSize) && (Entry.ofLine torn).isNone
      | _, _ => true

structure LogInv (s : AuditLog) : Prop where
  sound : ∀ file ∈ s.files, file.Sound
  written : (recorded s.files).Perm s.written
  opened : ∀ w, s.writer = some w → w.Opened s.files
  pending : ∀ p, s.pending = some p →
    (∃ json, p.entry.marshal = some json ∧ p.data = utf8 json ++ [newline]) ∧
      ∀ w, s.writer = some w → ∃ o, w.file = some o ∧ o.day = p.day

theorem recorded_append (files files' : List LogFile) :
    recorded (files ++ files') = recorded files ++ recorded files' :=
  List.flatMap_append ..

theorem Writer.Grown.recorded {files files' : List LogFile} (h : Grown files files') :
    recorded files' = recorded files := by
  rcases h with rfl | ⟨day, index, rfl⟩
  · rfl
  · rw [recorded_append]
    exact List.append_nil _

theorem Writer.Grown.sound {files files' : List LogFile} (h : Grown files files')
    (hfiles : ∀ file ∈ files, file.Sound) : ∀ file ∈ files', file.Sound := by
  rcases h with rfl | ⟨day, index, rfl⟩
  · exact hfiles
  · intro file hfile
    rcases List.mem_append.1 hfile with hfile | hfile
    · exact hfiles file hfile
    · rw [List.mem_singleton.1 hfile]
      exact LogFile.sound_empty day index

section

variable {z : Location} {cfg : WriterConfig} {s : AuditLog}

theorem LogInv.write (hs : LogInv s) (now : Instant) (entry : Entry) (faults : Faults) :
    LogInv (s.step z cfg (.write now entry faults)) := by
  simp only [AuditLog.step]
  split
  · next w hwriter _ =>
      split
      · exact hs
      · next data hline =>
          obtain ⟨json, hjson, rfl⟩ := Option.map_eq_some_iff.1 hline
          cases hensure : w.ensureFile faults (z.format now) (utf8 json ++ [newline]).length
              s.files with
          | mk ok rest =>
              obtain ⟨w', files⟩ := rest
              obtain ⟨hopened, hgrown, hok⟩ := Writer.ensureFile_spec (hs.opened w hwriter) hensure
              refine ⟨hgrown.sound hs.sound, ?_, fun w₁ hw₁ => ?_, fun p hp => ?_⟩
              · rw [hgrown.recorded]
                exact hs.written
              · obtain rfl := Option.some.inj hw₁
                exact hopened
              · cases ok with
                | false => cases hp
                | true =>
                    obtain rfl := Option.some.inj hp
                    refine ⟨⟨json, hjson, rfl⟩, fun w₁ hw₁ => ?_⟩
                    obtain rfl := Option.some.inj hw₁
                    exact hok rfl
  · exact hs

/-- One file is exchanged for one that is sound and has these records besides. -/
theorem LogInv.exchange {before after : List LogFile} {file file' : LogFile} {more : List Entry}
    {written : List (String × Entry)} (hs : LogInv s) (hfiles : s.files = before ++ file :: after)
    (hsound : file'.Sound) (hentries : file'.entries = file.entries ++ more)
    (hday : file'.day = file.day)
    (hwritten : written = (more.map fun e => (file.day, e)) ++ s.written) :
    (∀ f ∈ before ++ file' :: after, f.Sound) ∧
      (recorded (before ++ file' :: after)).Perm written := by
  have hall := hs.sound
  have hperm := hs.written
  rw [hfiles] at hall hperm
  refine ⟨fun f hf => ?_, ?_⟩
  · rcases List.mem_append.1 hf with hf | hf
    · exact hall f (List.mem_append_left _ hf)
    · rcases List.mem_cons.1 hf with rfl | hf
      · exact hsound
      · exact hall f (List.mem_append_right _ (.tail _ hf))
  · have hcons : ∀ f : LogFile, recorded (before ++ f :: after) =
        recorded before ++ ((f.entries.map fun e => (f.day, e)) ++ recorded after) :=
      fun f => recorded_append before (f :: after)
    rw [hcons] at hperm ⊢
    rw [hentries, hday, hwritten, List.map_append, List.append_assoc]
    refine List.Perm.trans ?_ (hperm.append_left _)
    have hswap : ∀ a b m c : List (String × Entry), (a ++ (b ++ (m ++ c))).Perm
        (m ++ (a ++ (b ++ c))) := by
      intro a b m c
      rw [← List.append_assoc a b, ← List.append_assoc a b, ← List.append_assoc, ← List.append_assoc m]
      exact List.perm_append_comm.append_right c
    exact hswap ..

theorem LogInv.flush (hs : LogInv s) {fault : Option Nat} (he : tidy s (.flush fault) = true) :
    LogInv (s.step z cfg (.flush fault)) := by
  simp only [AuditLog.step]
  split
  · next w p hwriter hpending =>
      obtain ⟨⟨json, hjson, hdata⟩, hopen⟩ := hs.pending p hpending
      obtain ⟨o, ho, hday⟩ := hopen w hwriter
      obtain ⟨hnewline, hreturn⟩ := p.entry.marshal_line hjson
      have hw := hs.opened w hwriter
      simp only [tidy, hwriter, hpending, Option.bind_some, ho] at he
      cases hput : w.put p.data fault s.files with
      | mk ok rest =>
          obtain ⟨w', files⟩ := rest
          rcases Writer.put_spec ho hput with ⟨rfl, rfl, rfl⟩ |
            ⟨hfailed, -, -, heffect⟩
          · refine ⟨hs.sound, hs.written, fun w₁ hw₁ => ?_, by simp⟩
            obtain rfl := Option.some.inj hw₁
            exact hw
          · rw [hfailed, Bool.false_or] at he
            -- what the file has got, and which records these are
            obtain ⟨data, more, hfiles', hwritten, hsound⟩ : ∃ data more,
                files = appendTo o.day o.index data s.files ∧
                  (if ok then (p.day, p.entry) :: s.written else s.written) =
                    (more.map fun e => (o.day, e)) ++ s.written ∧
                  ∀ file ∈ s.files, s.openFile o = some file →
                    ({ file with content := file.content ++ data } : LogFile).Sound ∧
                      ({ file with content := file.content ++ data } : LogFile).entries =
                        file.entries ++ more := by
              cases fault with
              | none =>
                  obtain ⟨rfl, hfiles'⟩ := heffect
                  refine ⟨p.data, [p.entry], hfiles', by simp [hday], fun file hfile hfind => ?_⟩
                  simp only [AuditLog.torn, hfind, Bool.and_eq_true, List.isEmpty_iff,
                    decide_eq_true_eq] at he
                  have hlength := he.2
                  rw [hdata, List.length_append, List.length_singleton] at hlength
                  rw [hdata]
                  exact (hs.sound file hfile).append_line he.1 hjson hlength
              | some n =>
                  obtain ⟨rfl, hfiles'⟩ := heffect
                  refine ⟨p.data.dropLast.take n, [], hfiles', rfl, fun file hfile hfind => ?_⟩
                  simp only [AuditLog.torn, hfind, Bool.and_eq_true, Option.isNone_iff_eq_none,
                    decide_eq_true_eq] at he
                  have hpart : ∀ b ∈ p.data.dropLast.take n, b ∈ utf8 json := by
                    intro b hb
                    rw [hdata, List.dropLast_concat] at hb
                    exact List.mem_of_mem_take hb
                  rw [List.append_nil]
                  exact (hs.sound file hfile).append_torn (fun hb => hnewline (hpart _ hb))
                    (fun hb => hreturn (hpart _ hb)) he.1 he.2
            obtain ⟨before, file, after, hfiles, hfind, hfile, -, happend⟩ :=
              Writer.appended hw ho data
            obtain ⟨hsound', hentries⟩ := hsound file (by simp [hfiles]) hfind
            obtain ⟨hsounds, hperm⟩ := hs.exchange hfiles hsound' hentries rfl
              (hfile ▸ hwritten)
            have hopened := Writer.put_opened hw hput
            rw [hfiles', happend] at hopened ⊢
            refine ⟨hsounds, hperm, fun w₁ hw₁ => ?_, by simp⟩
            obtain rfl := Option.some.inj hw₁
            exact hopened
  · exact hs

theorem LogInv.step (hs : LogInv s) {e : LogEvent} (he : tidy s e = true) :
    LogInv (s.step z cfg e) := by
  cases e with
  | start =>
      refine ⟨hs.sound, hs.written, fun w hw => ?_, by simp [AuditLog.step]⟩
      simp only [AuditLog.step, newWriter] at hw
      split at hw
      · cases hw
      · obtain rfl := Option.some.inj hw
        exact Writer.opened_of_none rfl
  | write now entry faults => exact hs.write now entry faults
  | flush fault => exact hs.flush he
  | close fault =>
      simp only [AuditLog.step]
      split
      · next w hwriter hpending =>
          refine ⟨hs.sound, hs.written, fun w₁ hw₁ => ?_, ?_⟩
          · obtain rfl := Option.some.inj hw₁
            exact Writer.closeLocked_opened _ (hs.opened w hwriter)
          · simp [hpending]
      · exact hs

theorem logInv (hs : Reach (AuditLog.step z cfg) tidy FreshLog s) : LogInv s := by
  refine hs.invariant ?_ fun s e h he => h.step he
  rintro s ⟨hfiles, hwriter, hpending, hwritten⟩
  refine ⟨by simp [hfiles], ?_, by simp [hwriter], by simp [hpending]⟩
  rw [hfiles, hwritten]
  exact List.Perm.refl _

end

/-! ## The results -/

/-- What was written and matches a filter. -/
def AuditLog.matching (s : AuditLog) (f : Filter) : List Entry :=
  (s.written.filter fun r => f.inDays r.1 && f.accepts r.2).map Prod.snd

/-- Whatever the filter, a query gives the newest of what was written and
matches. -/
def Complete (s : AuditLog) : Prop :=
  ∀ (sorter : Sorter newer) (f : Filter), 1 ≤ f.limit → f.limit ≤ 500 →
    ∃ items, query sorter s.files f = some items ∧ First newer f.limit.toNat (s.matching f) items

theorem mapM_found (files : List LogFile) (h : ∀ file ∈ files, file.Sound) (f : Filter) :
    files.mapM (LogFile.found f) = some (files.map fun file => file.entries.filter f.accepts) := by
  induction files with
  | nil => rfl
  | cons file files ih =>
      rw [List.mapM_cons, (h file (.head _)).found, ih fun g hg => h g (.tail _ hg)]
      rfl

theorem recorded_filter (files : List LogFile) (f : Filter) :
    ((files.filter fun file => f.inDays file.day).map fun file =>
        file.entries.filter f.accepts).flatten =
      ((recorded files).filter fun r => f.inDays r.1 && f.accepts r.2).map Prod.snd := by
  induction files with
  | nil => rfl
  | cons file files ih =>
      have hcons : recorded (file :: files) =
          (file.entries.map fun e => (file.day, e)) ++ recorded files := rfl
      rw [hcons, List.filter_append, List.map_append, ← ih, List.filter_map, List.map_map]
      cases hday : f.inDays file.day with
      | true => simp [hday, Function.comp_def]
      | false => simp [hday, Function.comp_def]

theorem LogInv.complete {s : AuditLog} (hs : LogInv s) : Complete s := by
  intro sorter f hleast hmost
  have hfound := mapM_found (s.files.filter fun file => f.inDays file.day)
    (fun file hfile => hs.sound file (List.mem_filter.1 hfile).1) f
  have hquery : query sorter s.files f = some ((sorter.sort ((s.files.filter fun file =>
      f.inDays file.day).map fun file => file.entries.filter f.accepts).flatten).take
        f.limit.toNat) := by
    simp only [query, hfound, if_neg (show ¬ f.limit < 1 by omega),
      if_neg (show ¬ f.limit > 500 by omega), Option.map_some]
  refine ⟨_, hquery, (first_take (sorter.perm _) (sorter.ordered _)).perm ?_⟩
  rw [recorded_filter]
  exact (hs.written.filter _).map _

/-- Ten o'clock on 2026-07-13. -/
def tenOClock : Instant := Instant.ofUnix (20647 * 86400 + 36000)

/-- The record of a topic that was created. -/
def created (topic : String) : Entry :=
  { Entry.zero with
    username := "admin"
    clientIP := "10.0.0.1:5000"
    clusterID := "dev"
    action := "topic.create"
    resource := topic
    result := "success" }

def noFaults : Faults where
  close := false
  mkdirAll := false
  stat _ := false
  openFile _ := false

/-- Two records by two processes, of the first no more than this. -/
def twoRecords (fault : Option Nat) : List LogEvent :=
  [.start, .write tenOClock (created "orders") noFaults, .flush fault,
    .start, .write tenOClock (created "payments") noFaults, .flush none]

def emptyLog : AuditLog where
  files := []
  writer := none
  pending := none
  written := []

theorem emptyLog_fresh : FreshLog emptyLog := ⟨rfl, rfl, rfl, rfl⟩

abbrev dayLogStep : AuditLog → LogEvent → AuditLog :=
  AuditLog.step (Location.fixed 0 Location.zero_range)
    { directory := "./data/audit", maxFileSizeBytes := 50 * 1024 * 1024, retentionDays := 30 }

def everything : Filter where
  fromDay := ""
  toDay := ""
  clusterID := ""
  action := ""
  result := ""
  limit := 100

/-- The first line has no end, and the record after it is lost. -/
theorem audit_complete_torn :
    Reach dayLogStep (fun _ _ => true) FreshLog (run dayLogStep emptyLog (twoRecords (some 40))) ∧
      ¬ Complete (run dayLogStep emptyLog (twoRecords (some 40))) := by
  refine ⟨(Reach.init emptyLog_fresh).run_any _, fun h => ?_⟩
  obtain ⟨items, hquery, hlength, -⟩ :=
    h (.stable newer newer_trans newer_total) everything (by decide) (by decide)
  have hnone : (query (.stable newer newer_trans newer_total)
      (run dayLogStep emptyLog (twoRecords (some 40))).files everything).map List.length =
        some 0 := by decide +kernel
  have hone : ((run dayLogStep emptyLog (twoRecords (some 40))).matching everything).length = 1 := by
    decide +kernel
  rw [hquery, Option.map_some] at hnone
  rw [hone, Option.some.inj hnone] at hlength
  exact absurd hlength (by decide)

/-- In every run in which a line that gets to its file as a whole begins there
at the beginning of a line and has room in the scanner, and the part of a line
makes no record of what it gets to, a query gives the newest of what was written
and matches. -/
theorem audit_complete (z : Location) (cfg : WriterConfig) {s : AuditLog}
    (hs : Reach (AuditLog.step z cfg) tidy FreshLog s) : Complete s :=
  (logInv hs).complete

theorem audit_complete_two :
    ((run dayLogStep emptyLog (twoRecords none)).matching everything).length = 2 ∧
      Complete (run dayLogStep emptyLog (twoRecords none)) :=
  ⟨by decide +kernel,
    audit_complete _ _ ((Reach.init emptyLog_fresh).run
      (show meets dayLogStep tidy emptyLog (twoRecords none) = true by decide +kernel))⟩

end KafkaManager.Audit
