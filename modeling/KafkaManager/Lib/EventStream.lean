import Mathlib.Data.List.Basic

/-!
# Server-sent events

A stream of events as a browser reads it. A line ends with a line feed, a
carriage return, or both. Its field goes into a buffer, and an empty line
dispatches what is in the buffers. The fields `id` and `retry`, which are for
connecting again, are passed over.

`IsFrame` says of a text that it dispatches one event and nothing before its
last character. Of a stream of such texts every part that has arrived has
dispatched the events of those that have arrived as a whole, however it was cut
(`feed_frames`).
-/

namespace Lib

structure ServerEvent where
  type : List Char
  data : List Char
deriving DecidableEq, Repr

structure EventParser where
  line : List Char
  afterReturn : Bool
  data : List Char
  event : List Char
deriving DecidableEq, Repr

namespace EventParser

/-- Between two events. -/
def clean : EventParser where
  line := []
  afterReturn := false
  data := []
  event := []

def process (p : EventParser) (field value : List Char) : EventParser :=
  if field = "event".toList then { p with event := value }
  else if field = "data".toList then { p with data := p.data ++ value ++ ['\n'] }
  else p

/-- The value of a field, without one blank before it. -/
def fieldValue : List Char → List Char
  | ' ' :: rest => rest
  | value => value

def dispatch (p : EventParser) : EventParser × Option ServerEvent :=
  if p.data.isEmpty then (clean, none)
  else
    (clean, some ⟨if p.event.isEmpty then "message".toList else p.event, p.data.dropLast⟩)

/-- The end of a line. -/
def endLine (p : EventParser) : EventParser × Option ServerEvent :=
  let q := { p with line := [] }
  if p.line.isEmpty then q.dispatch
  else if p.line.head? = some ':' then (q, none)
  else
    (q.process (p.line.takeWhile (· != ':')) (fieldValue ((p.line.dropWhile (· != ':')).drop 1)),
      none)

def char (p : EventParser) (c : Char) : EventParser × Option ServerEvent :=
  if c = '\n' then if p.afterReturn then ({ p with afterReturn := false }, none) else p.endLine
  else if c = '\r' then
    let (q, event) := EventParser.endLine { p with afterReturn := false }
    ({ q with afterReturn := true }, event)
  else ({ p with line := p.line ++ [c], afterReturn := false }, none)

/-- The events of what arrives. -/
def feed (p : EventParser) : List Char → EventParser × List ServerEvent
  | [] => (p, [])
  | c :: rest =>
      let (q, event) := p.char c
      ((q.feed rest).1, event.toList ++ (q.feed rest).2)

section

variable {p : EventParser} {s t : List Char}

theorem feed_append (p : EventParser) (s t : List Char) :
    p.feed (s ++ t) = (((p.feed s).1.feed t).1, (p.feed s).2 ++ ((p.feed s).1.feed t).2) := by
  induction s generalizing p with
  | nil => rfl
  | cons c s ih => simp only [List.cons_append, feed, ih, List.append_assoc]

/-- A part of a line. -/
theorem feed_part {line data event : List Char} (hs : ∀ c ∈ s, c ≠ '\n' ∧ c ≠ '\r') :
    feed ⟨line, false, data, event⟩ s = (⟨line ++ s, false, data, event⟩, []) := by
  induction s generalizing line with
  | nil => rw [feed, List.append_nil]
  | cons c s ih =>
      obtain ⟨hfeed, hreturn⟩ := hs c (.head _)
      have hchar : char ⟨line, false, data, event⟩ c = (⟨line ++ [c], false, data, event⟩, none) := by
        rw [char, if_neg hfeed, if_neg hreturn]
      rw [feed, hchar]
      dsimp only
      rw [ih fun d hd => hs d (.tail _ hd), List.append_assoc]
      rfl

theorem inLine_of_all (h : s.all (fun c => c != '\n' && c != '\r') = true) :
    ∀ c ∈ s, c ≠ '\n' ∧ c ≠ '\r' := by
  intro c hc
  simpa using List.all_eq_true.1 h c hc

/-- The line of a field. -/
theorem feed_field (data event field : List Char) {value : List Char}
    (hfield : ∀ c ∈ field, c ≠ '\n' ∧ c ≠ '\r') (hcolon : ':' ∉ field) (hne : field ≠ [])
    (hvalue : ∀ c ∈ value, c ≠ '\n' ∧ c ≠ '\r') :
    feed ⟨[], false, data, event⟩ (field ++ ':' :: ' ' :: (value ++ ['\n'])) =
      (process ⟨[], false, data, event⟩ field value, []) := by
  have hline : ∀ c ∈ field ++ ':' :: ' ' :: value, c ≠ '\n' ∧ c ≠ '\r' := by
    intro c hc
    rcases List.mem_append.1 hc with hc | hc
    · exact hfield c hc
    · rcases List.mem_cons.1 hc with rfl | hc
      · decide
      · rcases List.mem_cons.1 hc with rfl | hc
        · decide
        · exact hvalue c hc
  have hhead : ¬(field ++ ':' :: ' ' :: value).head? = some ':' := by
    cases field with
    | nil => exact absurd rfl hne
    | cons c rest => exact fun h => hcolon (Option.some.inj h ▸ .head _)
  have hother : ∀ c ∈ field, (c != ':') = true := fun c hc =>
    bne_iff_ne.2 fun heq => hcolon (heq ▸ hc)
  have hbefore : (field ++ ':' :: ' ' :: value).takeWhile (· != ':') = field := by
    rw [List.takeWhile_append_of_pos hother]
    simp
  have hafter : fieldValue (((field ++ ':' :: ' ' :: value).dropWhile (· != ':')).drop 1) = value := by
    rw [List.dropWhile_append_of_pos hother]
    simp [fieldValue]
  have hend : char ⟨field ++ ':' :: ' ' :: value, false, data, event⟩ '\n' =
      (process ⟨[], false, data, event⟩ field value, none) := by
    rw [char, if_pos rfl, if_neg Bool.false_ne_true, endLine]
    dsimp only
    rw [if_neg (by simp), if_neg hhead, hbefore, hafter]
  have hcut : field ++ ':' :: ' ' :: (value ++ ['\n']) = (field ++ ':' :: ' ' :: value) ++ ['\n'] := by
    simp
  rw [hcut, feed_append, feed_part hline, List.nil_append, feed, hend]
  rfl

/-! ## Frames -/

/-- A text that dispatches this event, with its last character. -/
structure IsFrame (s : List Char) (event : ServerEvent) : Prop where
  whole : clean.feed s = (clean, [event])
  last : (clean.feed s.dropLast).2 = []

/-- The empty line behind the data. -/
theorem feed_end (data event : List Char) :
    feed ⟨[], false, data ++ ['\n'], event⟩ ['\n'] =
      (clean, [⟨if event.isEmpty then "message".toList else event, data⟩]) := by
  have hchar : char ⟨[], false, data ++ ['\n'], event⟩ '\n' =
      (clean, some ⟨if event.isEmpty then "message".toList else event, data⟩) := by
    rw [char, if_pos rfl, if_neg Bool.false_ne_true, endLine]
    dsimp only
    rw [if_pos List.isEmpty_nil, dispatch, if_neg (by simp), List.dropLast_concat]
  rw [feed, hchar]
  rfl

/-- The line of the data. -/
theorem feed_data {data : List Char} (event : List Char) (hdata : ∀ c ∈ data, c ≠ '\n' ∧ c ≠ '\r') :
    feed ⟨[], false, [], event⟩ ("data: ".toList ++ data ++ ['\n']) =
      (⟨[], false, data ++ ['\n'], event⟩, []) := by
  have h := feed_field [] event "data".toList (inLine_of_all (by decide)) (by decide) (by decide) hdata
  have hname : "data: ".toList = "data".toList ++ [':', ' '] := by decide
  have hcut : "data: ".toList ++ data ++ ['\n'] = "data".toList ++ ':' :: ' ' :: (data ++ ['\n']) := by
    rw [hname, List.append_assoc, List.append_assoc]
    rfl
  rw [hcut, h, process, if_neg (by decide), if_pos rfl, List.nil_append]

/-- The data of an event without a name. -/
theorem isFrame_message {data : List Char} (hdata : ∀ c ∈ data, c ≠ '\n' ∧ c ≠ '\r') :
    IsFrame ("data: ".toList ++ data ++ ['\n'] ++ ['\n']) ⟨"message".toList, data⟩ := by
  have hline := feed_data [] hdata
  refine ⟨?_, ?_⟩
  · rw [feed_append, clean, hline, feed_end]
    rfl
  · rw [List.dropLast_concat, clean, hline]

/-- The data of an event with a name. -/
theorem isFrame_event {name data : List Char} (hname : ∀ c ∈ name, c ≠ '\n' ∧ c ≠ '\r')
    (hne : name ≠ []) (hdata : ∀ c ∈ data, c ≠ '\n' ∧ c ≠ '\r') :
    IsFrame ("event: ".toList ++ name ++ ['\n'] ++ ("data: ".toList ++ data ++ ['\n']) ++ ['\n'])
      ⟨name, data⟩ := by
  have hfirst := feed_field [] [] "event".toList (inLine_of_all (by decide)) (by decide) (by decide) hname
  have hevent : "event: ".toList = "event".toList ++ [':', ' '] := by decide
  have hcut : "event: ".toList ++ name ++ ['\n'] = "event".toList ++ ':' :: ' ' :: (name ++ ['\n']) := by
    rw [hevent, List.append_assoc, List.append_assoc]
    rfl
  have hlines : feed clean ("event: ".toList ++ name ++ ['\n'] ++
      ("data: ".toList ++ data ++ ['\n'])) = (⟨[], false, data ++ ['\n'], name⟩, []) := by
    rw [feed_append, hcut, clean, hfirst, process, if_pos rfl]
    dsimp only
    rw [feed_data name hdata]
    rfl
  refine ⟨?_, ?_⟩
  · rw [feed_append, hlines, feed_end, if_neg (by simpa using hne)]
    rfl
  · rw [List.dropLast_concat, hlines]

/-- What arrives first dispatches first. -/
theorem feed_prefix {p : EventParser} (h : s <+: t) : (p.feed s).2 <+: (p.feed t).2 := by
  obtain ⟨rest, rfl⟩ := h
  rw [feed_append]
  exact List.prefix_append _ _

/-- A part of a frame dispatches nothing. -/
theorem IsFrame.part {event : ServerEvent} (h : IsFrame (s ++ t) event) (ht : t ≠ []) :
    (clean.feed s).2 = [] := by
  have hprefix : s <+: (s ++ t).dropLast := by
    rw [List.dropLast_append_of_ne_nil ht]
    exact List.prefix_append _ _
  exact List.prefix_nil.1 (h.last ▸ feed_prefix hprefix)

/-- Of the frames that arrive those that are whole have dispatched their
events. -/
theorem feed_frames {frames : List (List Char × ServerEvent)}
    (hframes : ∀ f ∈ frames, IsFrame f.1 f.2) {arrived rest : List Char}
    (h : arrived ++ rest = frames.flatMap Prod.fst) :
    ∃ k ≤ frames.length, (clean.feed arrived).2 = (frames.take k).map Prod.snd ∧
      (rest = [] → k = frames.length) := by
  induction frames generalizing arrived with
  | nil =>
      obtain ⟨rfl, rfl⟩ := List.append_eq_nil_iff.1 h
      exact ⟨0, Nat.le_refl _, rfl, fun _ => rfl⟩
  | cons f frames ih =>
      rw [List.flatMap_cons] at h
      have hf := hframes f (.head _)
      have hstep : ∀ more, arrived = f.1 ++ more → more ++ rest = frames.flatMap Prod.fst →
          ∃ k ≤ (f :: frames).length,
            (clean.feed arrived).2 = ((f :: frames).take k).map Prod.snd ∧
              (rest = [] → k = (f :: frames).length) := by
        rintro more rfl hmore
        obtain ⟨k, hk, hevents, hlast⟩ := ih (fun g hg => hframes g (.tail _ hg)) hmore
        refine ⟨k + 1, Nat.succ_le_succ hk, ?_, fun hnone => congrArg (· + 1) (hlast hnone)⟩
        rw [feed_append, hf.whole]
        dsimp only
        rw [hevents]
        rfl
      rcases List.append_eq_append_iff.1 h with ⟨missing, hmissing, hrest⟩ | ⟨more, hwhole, hmore⟩
      · by_cases hnothing : missing = []
        · rw [hnothing, List.append_nil] at hmissing
          exact hstep [] (by rw [hmissing, List.append_nil]) (by rw [hrest, hnothing]; rfl)
        · refine ⟨0, Nat.zero_le _, ?_, fun hnone => ?_⟩
          · rw [hmissing] at hf
            rw [hf.part hnothing]
            rfl
          · rw [hnone] at hrest
            exact absurd (List.append_eq_nil_iff.1 hrest.symm).1 hnothing
      · exact hstep more hwhole hmore.symm

end

end EventParser

end Lib
