import KafkaManager.Config.Model
import KafkaManager.Lib.JsonStruct

/-!
# The configuration as JSON (the tags of `internal/config/model.go`)

The fields under their tags, in the order of the source. A nil slice is an empty
list, and a list of brokers is written as an array: one that is validated is not
empty.
-/

namespace KafkaManager

open Lib

/-! ## The structures -/

def ServerConfig.zero : ServerConfig :=
  { listenAddress := "", username := "", password := "", passwordHash := "", sessionHours := 0 }

def ServerConfig.fields : List (JsonField ServerConfig) :=
  [.text "listenAddress" (·.listenAddress) fun v s => { s with listenAddress := v },
    .text "username" (·.username) fun v s => { s with username := v },
    .optionalText "password" (·.password) fun v s => { s with password := v },
    .optionalText "passwordHash" (·.passwordHash) fun v s => { s with passwordHash := v },
    .int "sessionHours" (·.sessionHours) fun v s => { s with sessionHours := v }]

def SecurityConfig.zero : SecurityConfig :=
  { protocol := "", mechanism := "", username := "", password := "", tls := false }

def SecurityConfig.fields : List (JsonField SecurityConfig) :=
  [.text "protocol" (·.protocol) fun v s => { s with protocol := v },
    .optionalText "mechanism" (·.mechanism) fun v s => { s with mechanism := v },
    .optionalText "username" (·.username) fun v s => { s with username := v },
    .optionalText "password" (·.password) fun v s => { s with password := v },
    .optionalBool "tls" (·.tls) fun v s => { s with tls := v }]

def ClusterConfig.zero : ClusterConfig :=
  { id := "", name := "", brokers := [], enabled := none, readOnly := false
    security := SecurityConfig.zero }

def ClusterConfig.fields : List (JsonField ClusterConfig) :=
  [.text "id" (·.id) fun v s => { s with id := v },
    .text "name" (·.name) fun v s => { s with name := v },
    .texts "brokers" (·.brokers) fun v s => { s with brokers := v },
    .boolPointer "enabled" (·.enabled) fun v s => { s with enabled := v },
    .optionalBool "readOnly" (·.readOnly) fun v s => { s with readOnly := v },
    .struct "security" (·.security) (fun v s => { s with security := v }) SecurityConfig.fields]

def AuditConfig.zero : AuditConfig :=
  { enabled := none, directory := "", retentionDays := 0, maxFileSizeMB := 0
    configBackupRetentionDays := 0 }

def AuditConfig.fields : List (JsonField AuditConfig) :=
  [.boolPointer "enabled" (·.enabled) fun v s => { s with enabled := v },
    .text "directory" (·.directory) fun v s => { s with directory := v },
    .int "retentionDays" (·.retentionDays) fun v s => { s with retentionDays := v },
    .int "maxFileSizeMB" (·.maxFileSizeMB) fun v s => { s with maxFileSizeMB := v },
    .int "configBackupRetentionDays" (·.configBackupRetentionDays) fun v s =>
      { s with configBackupRetentionDays := v }]

def DashboardConfig.zero : DashboardConfig := { sampleIntervalSeconds := 0, historyPoints := 0 }

def DashboardConfig.fields : List (JsonField DashboardConfig) :=
  [.int "sampleIntervalSeconds" (·.sampleIntervalSeconds) fun v s =>
      { s with sampleIntervalSeconds := v },
    .int "historyPoints" (·.historyPoints) fun v s => { s with historyPoints := v }]

def Config.zero : Config :=
  { server := ServerConfig.zero, clusters := [], audit := AuditConfig.zero
    dashboard := DashboardConfig.zero }

def Config.fields : List (JsonField Config) :=
  [.struct "server" (·.server) (fun v s => { s with server := v }) ServerConfig.fields,
    .structs "clusters" (·.clusters) (fun v s => { s with clusters := v }) ClusterConfig.fields
      ClusterConfig.zero,
    .struct "audit" (·.audit) (fun v s => { s with audit := v }) AuditConfig.fields,
    .struct "dashboard" (·.dashboard) (fun v s => { s with dashboard := v }) DashboardConfig.fields]

def Config.toJson (c : Config) : Json := encodeStruct Config.fields c

def Config.ofJson (v : Json) : Option Config := decodeStruct Config.fields Config.zero v

/-! ## Reading what was written -/

/-- In every table the fields have names of their own and do not touch each
other. -/
theorem fields_independent :
    (ServerConfig.fields.Pairwise JsonField.Independent ∧
      SecurityConfig.fields.Pairwise JsonField.Independent) ∧
    (ClusterConfig.fields.Pairwise JsonField.Independent ∧
      AuditConfig.fields.Pairwise JsonField.Independent) ∧
    (DashboardConfig.fields.Pairwise JsonField.Independent ∧
      Config.fields.Pairwise JsonField.Independent) := by
  simp only [ServerConfig.fields, SecurityConfig.fields, ClusterConfig.fields, AuditConfig.fields,
    DashboardConfig.fields, Config.fields, List.pairwise_cons, List.mem_cons, List.not_mem_nil,
    or_false, forall_eq_or_imp, forall_eq, List.Pairwise.nil, and_true, IsEmpty.forall_iff,
    implies_true]
  repeat' apply And.intro
  all_goals exact ⟨by decide +kernel, fun _ _ => rfl⟩

open JsonField

theorem ServerConfig.decode_encode {s : ServerConfig} (hfits : fits64 s.sessionHours = true) :
    decodeStruct ServerConfig.fields ServerConfig.zero (encodeStruct ServerConfig.fields s) =
      some s := by
  refine Lib.decode_encode fields_independent.1.1 ?_
  simp only [ServerConfig.fields, List.mem_cons, List.not_mem_nil, or_false, forall_eq_or_imp,
    forall_eq]
  exact ⟨text_reads fun _ => rfl, text_reads fun _ => rfl, optionalText_reads (fun _ => rfl) rfl,
    optionalText_reads (fun _ => rfl) rfl, int_reads (fun _ => rfl) hfits⟩

theorem SecurityConfig.decode_encode (s : SecurityConfig) :
    decodeStruct SecurityConfig.fields SecurityConfig.zero (encodeStruct SecurityConfig.fields s) =
      some s := by
  refine Lib.decode_encode fields_independent.1.2 ?_
  simp only [SecurityConfig.fields, List.mem_cons, List.not_mem_nil, or_false, forall_eq_or_imp,
    forall_eq]
  exact ⟨text_reads fun _ => rfl, optionalText_reads (fun _ => rfl) rfl,
    optionalText_reads (fun _ => rfl) rfl, optionalText_reads (fun _ => rfl) rfl,
    optionalBool_reads (fun _ => rfl) rfl⟩

theorem ClusterConfig.decode_encode (c : ClusterConfig) :
    decodeStruct ClusterConfig.fields ClusterConfig.zero (encodeStruct ClusterConfig.fields c) =
      some c := by
  refine Lib.decode_encode fields_independent.2.1.1 ?_
  simp only [ClusterConfig.fields, List.mem_cons, List.not_mem_nil, or_false, forall_eq_or_imp,
    forall_eq]
  exact ⟨text_reads fun _ => rfl, text_reads fun _ => rfl, texts_reads fun _ => rfl,
    boolPointer_reads (fun _ => rfl) rfl, optionalBool_reads (fun _ => rfl) rfl,
    struct_reads (fun _ => rfl) (SecurityConfig.decode_encode c.security)⟩

/-- The numbers of a configuration are values of the type `int`. -/
structure Config.Fits (c : Config) : Prop where
  sessionHours : fits64 c.server.sessionHours = true
  retentionDays : fits64 c.audit.retentionDays = true
  maxFileSizeMB : fits64 c.audit.maxFileSizeMB = true
  configBackupRetentionDays : fits64 c.audit.configBackupRetentionDays = true
  sampleIntervalSeconds : fits64 c.dashboard.sampleIntervalSeconds = true
  historyPoints : fits64 c.dashboard.historyPoints = true

theorem AuditConfig.decode_encode {a : AuditConfig} (hretention : fits64 a.retentionDays = true)
    (hsize : fits64 a.maxFileSizeMB = true) (hbackup : fits64 a.configBackupRetentionDays = true) :
    decodeStruct AuditConfig.fields AuditConfig.zero (encodeStruct AuditConfig.fields a) =
      some a := by
  refine Lib.decode_encode fields_independent.2.1.2 ?_
  simp only [AuditConfig.fields, List.mem_cons, List.not_mem_nil, or_false, forall_eq_or_imp,
    forall_eq]
  exact ⟨boolPointer_reads (fun _ => rfl) rfl, text_reads fun _ => rfl,
    int_reads (fun _ => rfl) hretention, int_reads (fun _ => rfl) hsize,
    int_reads (fun _ => rfl) hbackup⟩

theorem DashboardConfig.decode_encode {d : DashboardConfig}
    (hinterval : fits64 d.sampleIntervalSeconds = true) (hpoints : fits64 d.historyPoints = true) :
    decodeStruct DashboardConfig.fields DashboardConfig.zero
      (encodeStruct DashboardConfig.fields d) = some d := by
  refine Lib.decode_encode fields_independent.2.2.1 ?_
  simp only [DashboardConfig.fields, List.mem_cons, List.not_mem_nil, or_false, forall_eq_or_imp,
    forall_eq]
  exact ⟨int_reads (fun _ => rfl) hinterval, int_reads (fun _ => rfl) hpoints⟩

theorem Config.ofJson_toJson {c : Config} (hfits : c.Fits) : Config.ofJson c.toJson = some c := by
  refine Lib.decode_encode fields_independent.2.2.2 ?_
  simp only [Config.fields, List.mem_cons, List.not_mem_nil, or_false, forall_eq_or_imp, forall_eq]
  exact ⟨struct_reads (fun _ => rfl) (ServerConfig.decode_encode hfits.sessionHours),
    structs_reads (fun _ => rfl) fun c _ => ClusterConfig.decode_encode c,
    struct_reads (fun _ => rfl) (AuditConfig.decode_encode hfits.retentionDays hfits.maxFileSizeMB
      hfits.configBackupRetentionDays),
    struct_reads (fun _ => rfl) (DashboardConfig.decode_encode hfits.sampleIntervalSeconds
      hfits.historyPoints)⟩

/-- What is read as a configuration is nested no deeper than one. -/
theorem Config.ofJson_depth {v : Json} {c : Config} (h : Config.ofJson v = some c) :
    v.depth ≤ 4 := by
  have hserver : ∀ f ∈ ServerConfig.fields, f.Shallow 2 := by
    simp only [ServerConfig.fields, List.mem_cons, List.not_mem_nil, or_false, forall_eq_or_imp,
      forall_eq]
    exact ⟨text_shallow 2, text_shallow 2, optionalText_shallow 2, optionalText_shallow 2,
      int_shallow 2⟩
  have hsecurity : ∀ f ∈ SecurityConfig.fields, f.Shallow 0 := by
    simp only [SecurityConfig.fields, List.mem_cons, List.not_mem_nil, or_false, forall_eq_or_imp,
      forall_eq]
    exact ⟨text_shallow 0, optionalText_shallow 0, optionalText_shallow 0, optionalText_shallow 0,
      optionalBool_shallow 0⟩
  have hcluster : ∀ f ∈ ClusterConfig.fields, f.Shallow 1 := by
    simp only [ClusterConfig.fields, List.mem_cons, List.not_mem_nil, or_false, forall_eq_or_imp,
      forall_eq]
    exact ⟨text_shallow 1, text_shallow 1, texts_shallow 0, boolPointer_shallow 1,
      optionalBool_shallow 1, struct_shallow hsecurity⟩
  have haudit : ∀ f ∈ AuditConfig.fields, f.Shallow 2 := by
    simp only [AuditConfig.fields, List.mem_cons, List.not_mem_nil, or_false, forall_eq_or_imp,
      forall_eq]
    exact ⟨boolPointer_shallow 2, text_shallow 2, int_shallow 2, int_shallow 2, int_shallow 2⟩
  have hdashboard : ∀ f ∈ DashboardConfig.fields, f.Shallow 2 := by
    simp only [DashboardConfig.fields, List.mem_cons, List.not_mem_nil, or_false, forall_eq_or_imp,
      forall_eq]
    exact ⟨int_shallow 2, int_shallow 2⟩
  refine decodeStruct_depth (n := 3) ?_ h
  simp only [Config.fields, List.mem_cons, List.not_mem_nil, or_false, forall_eq_or_imp, forall_eq]
  exact ⟨struct_shallow hserver, structs_shallow hcluster, struct_shallow haudit,
    struct_shallow hdashboard⟩

end KafkaManager
