import KafkaManager.Proofs.AuditLog
import KafkaManager.Web.Audit

/-!
# What the audit page shows

The records that were written come to the page as they are, the newest first.
What it does with them is another matter: it throws when there is a directory
without records, and its option for failures asks for a result that `recordAudit`
never writes.
-/

namespace KafkaManager.Web

open Lib Api Audit

/-! ## One record -/

/-- The entry of the page for a record. -/
def entryOf (e : Entry) : AuditEntry where
  timestamp := JsString.ofText (e.timestamp.text.getD [])
  clusterId := if e.clusterID = "" then none else some (JsString.ofText e.clusterID.toList)
  action := JsString.ofText e.action.toList
  resource := if e.resource = "" then none else some (JsString.ofText e.resource.toList)
  result := JsString.ofText e.result.toList
  error := if e.error = "" then none else some (JsString.ofText e.error.toList)

theorem optional_sublist (f : EntryField) (s : String) :
    ((Entry.optional f s).map Prod.fst).Sublist [f] := by
  unfold Entry.optional
  split
  · exact List.nil_sublist _
  · exact List.Sublist.refl _

theorem fields_sublist (text : List Char) (e : Entry) :
    ((e.fields text).map Prod.fst).Sublist EntryField.all := by
  have hduration : (((if e.durationMS = 0 then []
      else [(EntryField.durationMS, Json.num (.ofInt e.durationMS))]) :
        List (EntryField × Json)).map Prod.fst).Sublist [EntryField.durationMS] := by
    split
    · exact List.nil_sublist _
    · exact List.Sublist.refl _
  simp only [Entry.fields, List.map_append, List.map_cons, List.map_nil]
  exact (List.Sublist.refl [EntryField.timestamp, .username]).append <|
    (optional_sublist ..).append <| (optional_sublist ..).append <|
      (((optional_sublist ..).append <| ((hduration.append (optional_sublist ..)).cons_cons _)).cons_cons _)

theorem name_injective {f g : EntryField} (h : f.name = g.name) : f = g := by
  have hfind := EntryField.find_name f
  rw [h, EntryField.find_name g] at hfind
  exact (Option.some.inj hfind).symm

theorem keys_nodup (text : List Char) (e : Entry) :
    (((e.fields text).map fun p => (p.1.name, p.2)).map Prod.fst).Nodup := by
  have hall : EntryField.all.Nodup := by decide
  rw [List.map_map]
  have hmap := ((fields_sublist text e).nodup hall).map (f := EntryField.name)
    fun f g => name_injective
  rwa [List.map_map] at hmap

section

variable {text : List Char} {e : Entry}

/-- A field that was written is a property. -/
theorem property_field {f : EntryField} {v : Json} (h : (f, v) ∈ e.fields text) :
    (e.toJson text).toJs.property f.name = some v.toJs :=
  Json.property_obj (keys_nodup text e) (List.mem_map.2 ⟨_, h, rfl⟩)

theorem property_none {f : EntryField} (h : f ∉ (e.fields text).map Prod.fst) :
    (e.toJson text).toJs.property f.name = none := by
  refine Json.property_obj_none (keys_nodup text e) fun hmem => h ?_
  rw [List.map_map] at hmem
  obtain ⟨p, hp, hname⟩ := List.mem_map.1 hmem
  rw [← name_injective hname]
  exact List.mem_map_of_mem hp

theorem textProperty_of {v : JsValue} {key : List Char} {s : JsString}
    (h : v.property key = some (.str s)) : textProperty v key = some s := by
  rw [textProperty, h]

theorem textProperty_field {f : EntryField} {s : String} (h : (f, .str s.toList) ∈ e.fields text) :
    textProperty (e.toJson text).toJs f.name = some (JsString.ofText s.toList) :=
  textProperty_of (property_field h)

theorem textProperty_optional {f : EntryField} {s : String}
    (hmem : s ≠ "" → (f, .str s.toList) ∈ e.fields text)
    (hnone : s = "" → f ∉ (e.fields text).map Prod.fst) :
    textProperty (e.toJson text).toJs f.name =
      if s = "" then none else some (JsString.ofText s.toList) := by
  split
  · next hs => rw [textProperty, property_none (hnone hs)]
  · next hs => exact textProperty_field (hmem hs)

/-- The page reads a record as it was written. -/
theorem ofValue_entry (h : e.timestamp.text = some text) :
    AuditEntry.ofValue (e.toJson text).toJs = some (entryOf e) := by
  have htimestamp : textProperty (e.toJson text).toJs "timestamp".toList =
      some (JsString.ofText text) := by
    have hmem : (EntryField.timestamp, Json.str text) ∈ e.fields text := by simp [Entry.fields]
    exact textProperty_of (property_field hmem)
  have haction : textProperty (e.toJson text).toJs "action".toList =
      some (JsString.ofText e.action.toList) :=
    textProperty_field (f := .action) (by simp [Entry.fields])
  have hresult : textProperty (e.toJson text).toJs "result".toList =
      some (JsString.ofText e.result.toList) :=
    textProperty_field (f := .result) (by simp [Entry.fields])
  have hcluster : textProperty (e.toJson text).toJs "clusterId".toList = (entryOf e).clusterId :=
    textProperty_optional (f := .clusterID) (fun hs => by simp [Entry.fields, Entry.optional, hs])
      fun hs => by simp [Entry.fields, Entry.optional, hs]
  have hresource : textProperty (e.toJson text).toJs "resource".toList = (entryOf e).resource :=
    textProperty_optional (f := .resource) (fun hs => by simp [Entry.fields, Entry.optional, hs])
      fun hs => by simp [Entry.fields, Entry.optional, hs]
  have herror : textProperty (e.toJson text).toJs "error".toList = (entryOf e).error :=
    textProperty_optional (f := .error) (fun hs => by simp [Entry.fields, Entry.optional, hs])
      fun hs => by simp [Entry.fields, Entry.optional, hs]
  rw [AuditEntry.ofValue, htimestamp, haction, hresult, hcluster, hresource, herror]
  simp [entryOf, h]

end

/-! ## The answer -/

theorem mapM_some {α β : Type} {f : α → Option β} {g : α → β} {l : List α}
    (h : ∀ a ∈ l, f a = some (g a)) : l.mapM f = some (l.map g) := by
  induction l with
  | nil => rfl
  | cons a l ih =>
      rw [List.mapM_cons, h a List.mem_cons_self, ih fun b hb => h b (List.mem_cons_of_mem a hb)]
      rfl

/-- The value of a record whose time has a text. -/
def entryValue (e : Entry) : Json := e.toJson (e.timestamp.text.getD [])

theorem entryJson_value {e : Entry} (h : e.timestamp.text.isSome) :
    entryJson e = some (entryValue e) := by
  obtain ⟨text, htext⟩ := Option.isSome_iff_exists.1 h
  rw [entryJson, entryValue, htext]
  rfl

theorem ofValue_value {e : Entry} (h : e.timestamp.text.isSome) :
    AuditEntry.ofValue (entryValue e).toJs = some (entryOf e) := by
  obtain ⟨text, htext⟩ := Option.isSome_iff_exists.1 h
  rw [entryValue, htext]
  exact ofValue_entry htext

theorem auditItems_written (v : Json) :
    auditItems (utf8 ((Json.obj [("items".toList, v)]).write ++ ['\n'])) = some v.toJs := by
  rw [auditItems, runes_utf8, JsValue.parse_line]
  have hnodup : ([("items".toList, v)].map Prod.fst).Nodup := List.nodup_singleton _
  exact Json.property_obj hnodup (List.mem_singleton_self _)

/-- The option that `recordAudit` has a result for. -/
def selects (option : ResultOption) (e : Entry) : Bool :=
  match option with
  | .all => true
  | .success => e.result == "success"
  | .failure => false

theorem matchesResult_selects {e : Entry} (h : e.result = "success" ∨ e.result = "failed")
    (option : ResultOption) : (entryOf e).matchesResult option = selects option e := by
  simp only [AuditEntry.matchesResult, entryOf, selects]
  rcases h with h | h <;> rw [h] <;> cases option <;> decide

theorem auditFilter_all : auditFilter auditParams =
    { fromDay := "", toDay := "", clusterID := "", action := "", result := "", limit := 200 } := by
  have hnone : ∀ name ∈ ["from", "to", "cluster", "action", "result"], auditParams name = "" := by
    decide +kernel
  have hlimit : intQuery auditParams "limit" 100 = 200 := by decide +kernel
  rw [auditFilter, hlimit, hnone "from" (by decide), hnone "to" (by decide),
    hnone "cluster" (by decide), hnone "action" (by decide), hnone "result" (by decide)]

/-- What the page shows of an answer. -/
theorem shown_items {sorter : Sorter newer} {files : List LogFile} {items : List Entry}
    (hquery : query sorter files (auditFilter auditParams) = some items) (present : Bool)
    (htext : ∀ e ∈ items, e.timestamp.text.isSome)
    (hresult : ∀ e ∈ items, e.result = "success" ∨ e.result = "failed") :
    ∃ body page, listAudit sorter present files auditParams = some body ∧
      auditItems body = some page ∧
      ∀ toLowerCase search option, AuditEntry.shown toLowerCase page search option =
        if present && items.isEmpty then none
        else some ((items.filter fun e => selects option e &&
          (entryOf e).mentions toLowerCase search).map entryOf) := by
  have hall : items.mapM entryJson = some (items.map entryValue) :=
    mapM_some fun e he => entryJson_value (htext e he)
  rw [listAudit, hquery, Option.map_some, itemsJson]
  by_cases hnull : (present && items.isEmpty) = true
  · rw [if_pos hnull]
    exact ⟨_, _, rfl, auditItems_written _, fun _ _ _ => (if_pos hnull).symm⟩
  · rw [if_neg hnull, hall]
    refine ⟨_, _, rfl, auditItems_written _, fun toLowerCase search option => ?_⟩
    have hrows : (items.map fun e => (entryValue e).toJs).mapM AuditEntry.ofValue =
        some (items.map entryOf) := by
      rw [List.mapM_map]
      exact mapM_some fun e he => ofValue_value (htext e he)
    rw [if_neg hnull, Json.toJs_arr, List.map_map]
    show ((items.map fun e => (entryValue e).toJs).mapM AuditEntry.ofValue).map _ = _
    rw [hrows, Option.map_some, List.filter_map]
    refine congrArg (fun l => some (l.map entryOf)) (List.filter_congr fun e he => ?_)
    exact congrArg (· && _) (matchesResult_selects (hresult e he) option)

/-! ## Runs -/

/-- What the server writes to the log it writes by `recordAudit`. -/
def FromServer : LogEvent → Prop
  | .write _ entry _ => ∃ username remoteAddr cluster action resource operationErr,
      entry = recordAudit username remoteAddr cluster action resource operationErr
  | _ => True

/-- A record that the page can read, with one of two results. -/
def Recorded (e : Entry) : Prop :=
  e.timestamp.text.isSome ∧ (e.result = "success" ∨ e.result = "failed")

def LogRecorded (s : AuditLog) : Prop :=
  (∀ r ∈ s.written, Recorded r.2) ∧ ∀ p, s.pending = some p → Recorded p.entry

theorem FromServer.result {now : Instant} {entry : Entry} {faults : Faults}
    (h : FromServer (.write now entry faults)) :
    entry.result = "success" ∨ entry.result = "failed" := by
  obtain ⟨_, _, _, _, _, operationErr, rfl⟩ := h
  cases operationErr with
  | none => exact .inl rfl
  | some message => exact .inr rfl

theorem recorded_line {z : Location} {now : Instant} {entry : Entry} {data : List UInt8}
    (hline : (entry.stamped z now).line = some data)
    (hresult : entry.result = "success" ∨ entry.result = "failed") :
    Recorded (entry.stamped z now) := by
  refine ⟨?_, ?_⟩
  · obtain ⟨json, hjson, -⟩ := Option.map_eq_some_iff.1 hline
    obtain ⟨text, htext, -⟩ := Option.map_eq_some_iff.1 hjson
    rw [htext]
    rfl
  · rw [Entry.stamped]
    split
    · exact hresult
    · exact hresult

theorem LogRecorded.step {z : Location} {cfg : WriterConfig} {s : AuditLog} (h : LogRecorded s)
    {e : LogEvent} (he : FromServer e) : LogRecorded (AuditLog.step z cfg s e) := by
  obtain ⟨hwritten, hpending⟩ := h
  cases e with
  | start => exact ⟨hwritten, fun p hp => by cases hp⟩
  | write now entry faults =>
      simp only [AuditLog.step]
      split
      · split
        · exact ⟨hwritten, hpending⟩
        · next hline =>
            refine ⟨hwritten, fun p hp => ?_⟩
            dsimp only at hp
            split at hp
            · obtain rfl := Option.some.inj hp
              exact recorded_line hline he.result
            · cases hp
      · exact ⟨hwritten, hpending⟩
  | flush fault =>
      simp only [AuditLog.step]
      split
      · next hp =>
          refine ⟨fun r hr => ?_, fun p hp => by cases hp⟩
          dsimp only at hr
          split at hr
          · rcases List.mem_cons.1 hr with rfl | hr
            · exact hpending _ hp
            · exact hwritten r hr
          · exact hwritten r hr
      · exact ⟨hwritten, hpending⟩
  | close fault =>
      simp only [AuditLog.step]
      split
      · exact ⟨hwritten, hpending⟩
      · exact ⟨hwritten, hpending⟩

/-- What the page gets and shows of the log, in every state of every run in which
no line is lost: the newest two hundred records, each as it was written, by the
text that is searched for; all of them, those that succeeded, or none; and nothing
at all, for the rendering throws, while there is a directory without records. -/
theorem auditPage_shown (z : Location) (cfg : WriterConfig) {s₀ : AuditLog} (hfresh : FreshLog s₀)
    {es : List LogEvent} (htidy : meets (AuditLog.step z cfg) tidy s₀ es = true)
    (hes : ∀ e ∈ es, FromServer e) (sorter : Sorter newer) (present : Bool) :
    ∃ body page items,
      listAudit sorter present (run (AuditLog.step z cfg) s₀ es).files auditParams = some body ∧
      auditItems body = some page ∧
      First newer 200 ((run (AuditLog.step z cfg) s₀ es).written.map Prod.snd) items ∧
      ∀ toLowerCase search option, AuditEntry.shown toLowerCase page search option =
        if present && (run (AuditLog.step z cfg) s₀ es).written.isEmpty then none
        else some ((items.filter fun e => selects option e &&
          (entryOf e).mentions toLowerCase search).map entryOf) := by
  have hreach : Reach (AuditLog.step z cfg) tidy FreshLog (run (AuditLog.step z cfg) s₀ es) :=
    (Reach.init hfresh).run htidy
  have hrecorded : LogRecorded (run (AuditLog.step z cfg) s₀ es) := by
    refine run_invariant_of (fun s e he hs => hs.step he) ?_ hes
    obtain ⟨-, -, hpending, hwritten⟩ := hfresh
    refine ⟨fun r hr => ?_, fun p hp => ?_⟩
    · rw [hwritten] at hr
      cases hr
    · rw [hpending] at hp
      cases hp
  generalize run (AuditLog.step z cfg) s₀ es = s at hreach hrecorded ⊢
  obtain ⟨items, hquery, hfirst⟩ := (logInv hreach).complete sorter (auditFilter auditParams)
    (by rw [auditFilter_all]; decide) (by rw [auditFilter_all]; decide)
  have hmatching : s.matching (auditFilter auditParams) = s.written.map Prod.snd := by
    refine congrArg (List.map Prod.snd) (List.filter_eq_self.2 fun r _ => ?_)
    rw [auditFilter_all]
    rfl
  have hlimit : (auditFilter auditParams).limit.toNat = 200 := by rw [auditFilter_all]; rfl
  rw [hlimit, hmatching] at hfirst
  obtain ⟨hlength, -, rest, hperm, -⟩ := id hfirst
  have hmem : ∀ e ∈ items, Recorded e := by
    intro e he
    obtain ⟨r, hr, rfl⟩ := List.mem_map.1 (hperm.subset (List.mem_append_left rest he))
    exact hrecorded.1 r hr
  obtain ⟨body, page, hbody, hpage, hshown⟩ := shown_items hquery present
    (fun e he => (hmem e he).1) fun e he => (hmem e he).2
  have hempty : items.isEmpty = s.written.isEmpty := by
    rw [List.length_map] at hlength
    rw [Bool.eq_iff_iff, List.isEmpty_iff_length_eq_zero, List.isEmpty_iff_length_eq_zero]
    omega
  rw [hempty] at hshown
  exact ⟨body, page, items, hbody, hpage, hfirst, hshown⟩

/-- A topic that could not be deleted. -/
def deletionDenied : List LogEvent :=
  [.start, .write tenOClock (recordAudit "admin" "10.0.0.1:5000" "dev" "topic.delete" "orders"
    (some "denied")) noFaults, .flush none]

/-- The failure is shown among all records, and not among the failures. -/
theorem auditPage_shown_failure :
    ∃ body page, listAudit (.stable newer newer_trans newer_total) true
        (run dayLogStep emptyLog deletionDenied).files auditParams = some body ∧
      auditItems body = some page ∧
      (AuditEntry.shown id page [] .all).map List.length = some 1 ∧
      AuditEntry.shown id page [] .failure = some [] := by
  have hserver : ∀ e ∈ deletionDenied, FromServer e := by
    simp only [deletionDenied, List.forall_mem_cons]
    exact ⟨trivial, ⟨_, _, _, _, _, _, rfl⟩, trivial, fun _ h => by cases h⟩
  obtain ⟨body, page, items, hbody, hpage, ⟨hlength, -⟩, hshown⟩ :=
    auditPage_shown (Location.fixed 0 Location.zero_range)
      { directory := "./data/audit", maxFileSizeBytes := 50 * 1024 * 1024, retentionDays := 30 }
      emptyLog_fresh
      (show meets dayLogStep tidy emptyLog deletionDenied = true by decide +kernel) hserver
      (.stable newer newer_trans newer_total) true
  have hwritten : (run dayLogStep emptyLog deletionDenied).written.length = 1 := by decide +kernel
  have hempty : (run dayLogStep emptyLog deletionDenied).written.isEmpty = false := by
    decide +kernel
  have hone : items.length = 1 := by
    rw [hlength, List.length_map, hwritten]
    rfl
  refine ⟨body, page, hbody, hpage, ?_, ?_⟩
  · have hall : ∀ e ∈ items, (selects .all e && (entryOf e).mentions id []) = true := by
      intro e _
      exact decide_eq_true List.nil_infix
    rw [hshown, hempty, List.filter_eq_self.2 hall]
    exact congrArg some ((List.length_map _).trans hone)
  · rw [hshown, hempty]
    have hnone : (items.filter fun e => selects .failure e && (entryOf e).mentions id []) = [] :=
      List.filter_eq_nil_iff.2 fun e _ h => by cases h
    rw [hnone]
    rfl

end KafkaManager.Web
