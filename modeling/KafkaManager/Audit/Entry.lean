import KafkaManager.Lib.JsonRoundTrip
import KafkaManager.Lib.Rfc3339

/-!
# Audit records (`Entry` in `internal/audit/writer.go`)

A record is a line of JSON. Empty strings and a duration of zero are left out,
but for the fields that are always there. Nothing in the program sets
`Parameters`, and there is no such field here.
-/

namespace KafkaManager.Audit

open Lib

@[ext] structure Entry where
  timestamp : Time
  username : String
  clientIP : String
  clusterID : String
  action : String
  resource : String
  result : String
  durationMS : Int
  error : String
  duration_fits : fits64 durationMS = true

/-- The `time.Time` that is not set. -/
def Time.zero : Time where
  instant := { sec := 0, nsec := 0, sec_fits := fits64_zero, nsec_range := Instant.nsec_zero }
  minutes := 0
  range := Location.zero_range

def Entry.zero : Entry where
  timestamp := Time.zero
  username := ""
  clientIP := ""
  clusterID := ""
  action := ""
  resource := ""
  result := ""
  durationMS := 0
  error := ""
  duration_fits := fits64_zero

inductive EntryField
  | timestamp
  | username
  | clientIP
  | clusterID
  | action
  | resource
  | result
  | durationMS
  | error
deriving DecidableEq

namespace EntryField

def all : List EntryField :=
  [timestamp, username, clientIP, clusterID, action, resource, result, durationMS, error]

/-- The tag of the field. -/
def name : EntryField → List Char
  | timestamp => "timestamp".toList
  | username => "username".toList
  | clientIP => "clientIp".toList
  | clusterID => "clusterId".toList
  | action => "action".toList
  | resource => "resource".toList
  | result => "result".toList
  | durationMS => "durationMs".toList
  | error => "error".toList

/-- The field of a key. -/
def find (key : List Char) : Option EntryField := all.find? fun f => Json.names f.name key

theorem find_name (f : EntryField) : find f.name = some f := by
  cases f <;> decide +kernel

/-- A value for the field, read into a record. -/
def set (v : Json) (e : Entry) : EntryField → Option Entry
  | timestamp =>
      match v with
      | .null => some e
      | .str s => (Time.ofText s).map fun t => { e with timestamp := t }
      | _ => none
  | username => (Json.setString e.username.toList v).map fun s =>
      { e with username := String.ofList s }
  | clientIP => (Json.setString e.clientIP.toList v).map fun s =>
      { e with clientIP := String.ofList s }
  | clusterID => (Json.setString e.clusterID.toList v).map fun s =>
      { e with clusterID := String.ofList s }
  | action => (Json.setString e.action.toList v).map fun s => { e with action := String.ofList s }
  | resource => (Json.setString e.resource.toList v).map fun s =>
      { e with resource := String.ofList s }
  | result => (Json.setString e.result.toList v).map fun s => { e with result := String.ofList s }
  | durationMS => (Json.setInt e.durationMS v).bind fun n =>
      if h : fits64 n = true then some { e with durationMS := n, duration_fits := h } else none
  | error => (Json.setString e.error.toList v).map fun s => { e with error := String.ofList s }

end EntryField

namespace Entry

/-- A field with `omitempty`. -/
def optional (f : EntryField) (s : String) : List (EntryField × Json) :=
  if s = "" then [] else [(f, .str s.toList)]

/-- The fields in their order, the time in its text. -/
def fields (text : List Char) (e : Entry) : List (EntryField × Json) :=
  [(.timestamp, .str text), (.username, .str e.username.toList)] ++
    (optional .clientIP e.clientIP ++ (optional .clusterID e.clusterID ++
      ((.action, .str e.action.toList) :: (optional .resource e.resource ++
        ((.result, .str e.result.toList) ::
          ((if e.durationMS = 0 then [] else [(.durationMS, .num (.ofInt e.durationMS))]) ++
            optional .error e.error))))))

def toJson (text : List Char) (e : Entry) : Json :=
  .obj ((e.fields text).map fun (f, v) => (f.name, v))

/-- `json.Marshal` of a record. A time may have no text. -/
def marshal (e : Entry) : Option (List Char) :=
  e.timestamp.text.map fun text => (e.toJson text).write

/-- `json.Unmarshal` of a line. -/
def ofLine (line : List UInt8) : Option Entry :=
  (Json.read (runes line)).bind
    (Json.decode (fun key v e =>
      match EntryField.find key with
      | none => some e
      | some f => f.set v e) zero)

/-! ## Reading what was written -/

/-- Decoding, by fields. -/
def assign (e : Entry) (field : EntryField × Json) : Option Entry := field.1.set field.2 e

theorem foldlM_optional {f : EntryField} {s : String} {e e' : Entry}
    (hset : assign e (f, .str s.toList) = some e') (hempty : s = "" → e = e') :
    (optional f s).foldlM assign e = some e' := by
  unfold optional
  split
  · next hs =>
      rw [hempty hs]
      rfl
  · show (assign e (f, .str s.toList)).bind some = some e'
    rw [hset, Option.bind_some]

theorem fields_assign {e : Entry} {text : List Char} (h : e.timestamp.text = some text) :
    (e.fields text).foldlM assign zero = some e := by
  -- what is read after each field
  obtain ⟨time, htime⟩ : ∃ x : Entry, x = { zero with timestamp := e.timestamp } := ⟨_, rfl⟩
  obtain ⟨user, huser⟩ : ∃ x : Entry, x = { time with username := e.username } := ⟨_, rfl⟩
  obtain ⟨client, hclient⟩ : ∃ x : Entry, x = { user with clientIP := e.clientIP } := ⟨_, rfl⟩
  obtain ⟨cluster, hcluster⟩ : ∃ x : Entry, x = { client with clusterID := e.clusterID } := ⟨_, rfl⟩
  obtain ⟨action, haction⟩ : ∃ x : Entry, x = { cluster with action := e.action } := ⟨_, rfl⟩
  obtain ⟨resource, hresource⟩ : ∃ x : Entry, x = { action with resource := e.resource } := ⟨_, rfl⟩
  obtain ⟨result, hresult⟩ : ∃ x : Entry, x = { resource with result := e.result } := ⟨_, rfl⟩
  obtain ⟨duration, hduration⟩ : ∃ x : Entry, x = { result with
      durationMS := e.durationMS, duration_fits := e.duration_fits } := ⟨_, rfl⟩
  have hlast : { duration with error := e.error } = e := by
    rw [hduration, hresult, hresource, haction, hcluster, hclient, huser, htime]
  have hsetTime : assign zero (.timestamp, .str text) = some time := by
    simp [assign, EntryField.set, Time.ofText_text h, htime]
  have hsetUser : assign time (.username, .str e.username.toList) = some user := by
    simp [assign, EntryField.set, Json.setString, huser]
  have hsetClient : (optional .clientIP e.clientIP).foldlM assign user = some client :=
    foldlM_optional (by simp [assign, EntryField.set, Json.setString, hclient])
      fun hs => by rw [hclient, hs, huser, htime]; rfl
  have hsetCluster : (optional .clusterID e.clusterID).foldlM assign client = some cluster :=
    foldlM_optional (by simp [assign, EntryField.set, Json.setString, hcluster])
      fun hs => by rw [hcluster, hs, hclient, huser, htime]; rfl
  have hsetAction : assign cluster (.action, .str e.action.toList) = some action := by
    simp [assign, EntryField.set, Json.setString, haction]
  have hsetResource : (optional .resource e.resource).foldlM assign action = some resource :=
    foldlM_optional (by simp [assign, EntryField.set, Json.setString, hresource])
      fun hs => by rw [hresource, hs, haction, hcluster, hclient, huser, htime]; rfl
  have hsetResult : assign resource (.result, .str e.result.toList) = some result := by
    simp [assign, EntryField.set, Json.setString, hresult]
  have hsetDuration : (if e.durationMS = 0 then []
      else [(EntryField.durationMS, Json.num (.ofInt e.durationMS))]).foldlM assign result =
        some duration := by
    split
    · next hzero =>
        have hsame : result = duration := by
          rw [hduration]
          ext1 <;> try rfl
          rw [hzero, hresult, hresource, haction, hcluster, hclient, huser, htime]
          rfl
        rw [← hsame]
        rfl
    · have hread : Json.setInt result.durationMS (.num (.ofInt e.durationMS)) = some e.durationMS :=
        parseInt_formatInt e.duration_fits
      show (assign result (.durationMS, .num (.ofInt e.durationMS))).bind some = some duration
      simp [assign, EntryField.set, hread, e.duration_fits, hduration]
  have hsetError : (optional .error e.error).foldlM assign duration = some e :=
    foldlM_optional (by simp [assign, EntryField.set, Json.setString, hlast])
      fun hs => by
        rw [← hlast, hs, hduration, hresult, hresource, haction, hcluster, hclient, huser, htime]
        rfl
  simp only [fields, List.foldlM_append, List.foldlM_cons, List.foldlM_nil, hsetTime, hsetUser,
    hsetClient, hsetCluster, hsetAction, hsetResource, hsetResult, hsetDuration, hsetError,
    Option.bind_eq_bind, Option.bind_some, Option.pure_def]

/-- A record is an object of texts and numbers. -/
theorem toJson_depth (e : Entry) (text : List Char) : (e.toJson text).depth ≤ 1 := by
  have hoptional : ∀ f s, ∀ q ∈ optional f s, q.2.depth ≤ 0 := by
    intro f s q hq
    unfold optional at hq
    split at hq
    · cases hq
    · rw [List.mem_singleton.1 hq]
      exact Nat.le_refl 0
  have hduration : ∀ q ∈ (if e.durationMS = 0 then []
      else [(EntryField.durationMS, Json.num (.ofInt e.durationMS))]), q.2.depth ≤ 0 := by
    intro q hq
    split at hq
    · cases hq
    · rw [List.mem_singleton.1 hq]
      exact Nat.le_refl 0
  refine Json.depth_obj.2 (List.forall_mem_map.2 ?_)
  simp only [fields, List.forall_mem_append, List.forall_mem_cons]
  exact ⟨⟨Nat.le_refl 0, Nat.le_refl 0, fun q hq => absurd hq List.not_mem_nil⟩, hoptional _ _,
    hoptional _ _, Nat.le_refl 0, hoptional _ _, Nat.le_refl 0, hduration, hoptional _ _⟩

/-- A record is read back from its line. -/
theorem ofLine_marshal {e : Entry} {json : List Char} (h : e.marshal = some json) :
    ofLine (utf8 json) = some e := by
  obtain ⟨text, htext, rfl⟩ := Option.map_eq_some_iff.1 h
  have hset : ∀ (l : List (EntryField × Json)) (e : Entry),
      (l.map fun (f, v) => (f.name, v)).foldlM (fun e field =>
        match EntryField.find field.1 with
        | none => some e
        | some f => f.set field.2 e) e = l.foldlM assign e := by
    intro l e
    rw [List.foldlM_map]
    simp only [EntryField.find_name]
    rfl
  have hdepth : (e.toJson text).depth ≤ Json.maxNestingDepth :=
    Nat.le_trans (e.toJson_depth text) (by decide)
  rw [ofLine, runes_utf8, Json.read_write hdepth, Option.bind_some]
  exact (hset _ zero).trans (fields_assign htext)

end Entry

end KafkaManager.Audit
