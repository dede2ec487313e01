import KafkaManager.Proofs.MaskedConfig
import KafkaManager.Web.Settings

/-!
# What the settings page saves

The page starts with an object that stands for the configuration in force, an
edit of the object is the edit of what it stands for (`ShowsConfig.edit`), and
what is sent is decoded as that. The inputs that were not touched come back as
they were, although every number has been one of binary64 in between.
-/

namespace KafkaManager

open Lib JsonField

/-! ## The tables -/

theorem serverTable : FieldTable ServerConfig.fields where
  independent := fields_independent.1.1
  get_put := by
    simp only [ServerConfig.fields, List.mem_cons, List.not_mem_nil, or_false, forall_eq_or_imp,
      forall_eq]
    repeat' apply And.intro
    all_goals exact fun _ _ => rfl
  get_other := by
    simp only [ServerConfig.fields, List.mem_cons, List.not_mem_nil, or_false, forall_eq_or_imp,
      forall_eq]
    repeat' apply And.intro
    all_goals
      intro hne x s
      first
      | rfl
      | exact absurd rfl hne
  ext s t h := by
    cases s
    cases t
    simpa [ServerConfig.fields, text, optionalText, int] using h
  plain := by
    simp only [ServerConfig.fields, List.mem_cons, List.not_mem_nil, or_false, forall_eq_or_imp,
      forall_eq]
    repeat' apply And.intro
    all_goals decide +kernel

theorem securityTable : FieldTable SecurityConfig.fields where
  independent := fields_independent.1.2
  get_put := by
    simp only [SecurityConfig.fields, List.mem_cons, List.not_mem_nil, or_false, forall_eq_or_imp,
      forall_eq]
    repeat' apply And.intro
    all_goals exact fun _ _ => rfl
  get_other := by
    simp only [SecurityConfig.fields, List.mem_cons, List.not_mem_nil, or_false, forall_eq_or_imp,
      forall_eq]
    repeat' apply And.intro
    all_goals
      intro hne x s
      first
      | rfl
      | exact absurd rfl hne
  ext s t h := by
    cases s
    cases t
    simpa [SecurityConfig.fields, text, optionalText, optionalBool] using h
  plain := by
    simp only [SecurityConfig.fields, List.mem_cons, List.not_mem_nil, or_false, forall_eq_or_imp,
      forall_eq]
    repeat' apply And.intro
    all_goals decide +kernel

theorem clusterTable : FieldTable ClusterConfig.fields where
  independent := fields_independent.2.1.1
  get_put := by
    simp only [ClusterConfig.fields, List.mem_cons, List.not_mem_nil, or_false, forall_eq_or_imp,
      forall_eq]
    repeat' apply And.intro
    all_goals exact fun _ _ => rfl
  get_other := by
    simp only [ClusterConfig.fields, List.mem_cons, List.not_mem_nil, or_false, forall_eq_or_imp,
      forall_eq]
    repeat' apply And.intro
    all_goals
      intro hne x s
      first
      | rfl
      | exact absurd rfl hne
  ext s t h := by
    cases s
    cases t
    simpa [ClusterConfig.fields, text, texts, boolPointer, optionalBool, struct] using h
  plain := by
    simp only [ClusterConfig.fields, List.mem_cons, List.not_mem_nil, or_false, forall_eq_or_imp,
      forall_eq]
    repeat' apply And.intro
    all_goals decide +kernel

theorem auditTable : FieldTable AuditConfig.fields where
  independent := fields_independent.2.1.2
  get_put := by
    simp only [AuditConfig.fields, List.mem_cons, List.not_mem_nil, or_false, forall_eq_or_imp,
      forall_eq]
    repeat' apply And.intro
    all_goals exact fun _ _ => rfl
  get_other := by
    simp only [AuditConfig.fields, List.mem_cons, List.not_mem_nil, or_false, forall_eq_or_imp,
      forall_eq]
    repeat' apply And.intro
    all_goals
      intro hne x s
      first
      | rfl
      | exact absurd rfl hne
  ext s t h := by
    cases s
    cases t
    simpa [AuditConfig.fields, text, boolPointer, int] using h
  plain := by
    simp only [AuditConfig.fields, List.mem_cons, List.not_mem_nil, or_false, forall_eq_or_imp,
      forall_eq]
    repeat' apply And.intro
    all_goals decide +kernel

theorem dashboardTable : FieldTable DashboardConfig.fields where
  independent := fields_independent.2.2.1
  get_put := by
    simp only [DashboardConfig.fields, List.mem_cons, List.not_mem_nil, or_false, forall_eq_or_imp,
      forall_eq]
    repeat' apply And.intro
    all_goals exact fun _ _ => rfl
  get_other := by
    simp only [DashboardConfig.fields, List.mem_cons, List.not_mem_nil, or_false, forall_eq_or_imp,
      forall_eq]
    repeat' apply And.intro
    all_goals
      intro hne x s
      first
      | rfl
      | exact absurd rfl hne
  ext s t h := by
    cases s
    cases t
    simpa [DashboardConfig.fields, int] using h
  plain := by
    simp only [DashboardConfig.fields, List.mem_cons, List.not_mem_nil, or_false, forall_eq_or_imp,
      forall_eq]
    repeat' apply And.intro
    all_goals decide +kernel

theorem configTable : FieldTable Config.fields where
  independent := fields_independent.2.2.2
  get_put := by
    simp only [Config.fields, List.mem_cons, List.not_mem_nil, or_false, forall_eq_or_imp,
      forall_eq]
    repeat' apply And.intro
    all_goals exact fun _ _ => rfl
  get_other := by
    simp only [Config.fields, List.mem_cons, List.not_mem_nil, or_false, forall_eq_or_imp,
      forall_eq]
    repeat' apply And.intro
    all_goals
      intro hne x s
      first
      | rfl
      | exact absurd rfl hne
  ext s t h := by
    cases s
    cases t
    simpa [Config.fields, struct, structs] using h
  plain := by
    simp only [Config.fields, List.mem_cons, List.not_mem_nil, or_false, forall_eq_or_imp,
      forall_eq]
    repeat' apply And.intro
    all_goals decide +kernel

/-! ## The fields that hold structures -/

def securityField : JsonField ClusterConfig :=
  .struct "security" (·.security) (fun v s => { s with security := v }) SecurityConfig.fields

def clustersField : JsonField Config :=
  .structs "clusters" (·.clusters) (fun v s => { s with clusters := v }) ClusterConfig.fields
    ClusterConfig.zero

def auditField : JsonField Config :=
  .struct "audit" (·.audit) (fun v s => { s with audit := v }) AuditConfig.fields

def dashboardField : JsonField Config :=
  .struct "dashboard" (·.dashboard) (fun v s => { s with dashboard := v }) DashboardConfig.fields

theorem securityField_mem : securityField ∈ ClusterConfig.fields := by
  simp [ClusterConfig.fields, securityField]

theorem clustersField_mem : clustersField ∈ Config.fields := by
  simp [Config.fields, clustersField]

theorem auditField_mem : auditField ∈ Config.fields := by
  simp [Config.fields, auditField]

theorem dashboardField_mem : dashboardField ∈ Config.fields := by
  simp [Config.fields, dashboardField]

/-! ## What the server wrote -/

/-- The numbers of a configuration are integers of 53 bits. -/
structure Config.Safe (c : Config) : Prop where
  sessionHours : |c.server.sessionHours| < 2 ^ 53
  retentionDays : |c.audit.retentionDays| < 2 ^ 53
  maxFileSizeMB : |c.audit.maxFileSizeMB| < 2 ^ 53
  configBackupRetentionDays : |c.audit.configBackupRetentionDays| < 2 ^ 53
  sampleIntervalSeconds : |c.dashboard.sampleIntervalSeconds| < 2 ^ 53
  historyPoints : |c.dashboard.historyPoints| < 2 ^ 53

theorem fits_of_safe {n : Int} (h : |n| < 2 ^ 53) : fits64 n = true := by
  obtain ⟨hlow, hhigh⟩ := abs_lt.1 h
  simp only [fits64, decide_eq_true_eq]
  omega

/-- A field is read as it was written, and a page can hold what was written. -/
def Carried {σ : Type} (zero s : σ) (f : JsonField σ) : Prop :=
  f.Reads zero s ∧ (f.omits (f.get s) = false → (f.write (f.get s)).Small)

theorem boolPointer_small {σ : Type} (name : String) (get : σ → Option Bool)
    (put : Option Bool → σ → σ) (b : Option Bool) : ((boolPointer name get put).write b).Small := by
  cases b <;> trivial

theorem carried_int {σ : Type} {zero s : σ} {name : String} {get : σ → Int} {put : Int → σ → σ}
    (hput : ∀ d, put (get d) d = d) (h : |get s| < 2 ^ 53) : Carried zero s (int name get put) :=
  ⟨int_reads hput (fits_of_safe h), fun _ => ⟨_, rfl, h⟩⟩

theorem carried_server {s : ServerConfig} (h : |s.sessionHours| < 2 ^ 53) :
    ∀ f ∈ ServerConfig.fields, Carried ServerConfig.zero s f := by
  simp only [ServerConfig.fields, List.mem_cons, List.not_mem_nil, or_false, forall_eq_or_imp,
    forall_eq]
  exact ⟨⟨text_reads fun _ => rfl, fun _ => trivial⟩, ⟨text_reads fun _ => rfl, fun _ => trivial⟩,
    ⟨optionalText_reads (fun _ => rfl) rfl, fun _ => trivial⟩,
    ⟨optionalText_reads (fun _ => rfl) rfl, fun _ => trivial⟩, carried_int (fun _ => rfl) h⟩

theorem carried_security (s : SecurityConfig) :
    ∀ f ∈ SecurityConfig.fields, Carried SecurityConfig.zero s f := by
  simp only [SecurityConfig.fields, List.mem_cons, List.not_mem_nil, or_false, forall_eq_or_imp,
    forall_eq]
  exact ⟨⟨text_reads fun _ => rfl, fun _ => trivial⟩,
    ⟨optionalText_reads (fun _ => rfl) rfl, fun _ => trivial⟩,
    ⟨optionalText_reads (fun _ => rfl) rfl, fun _ => trivial⟩,
    ⟨optionalText_reads (fun _ => rfl) rfl, fun _ => trivial⟩,
    ⟨optionalBool_reads (fun _ => rfl) rfl, fun _ => trivial⟩⟩

theorem carried_audit {s : AuditConfig} (hretention : |s.retentionDays| < 2 ^ 53)
    (hsize : |s.maxFileSizeMB| < 2 ^ 53) (hbackup : |s.configBackupRetentionDays| < 2 ^ 53) :
    ∀ f ∈ AuditConfig.fields, Carried AuditConfig.zero s f := by
  simp only [AuditConfig.fields, List.mem_cons, List.not_mem_nil, or_false, forall_eq_or_imp,
    forall_eq]
  refine ⟨⟨boolPointer_reads (fun _ => rfl) rfl, fun _ => ?_⟩,
    ⟨text_reads fun _ => rfl, fun _ => trivial⟩, carried_int (fun _ => rfl) hretention,
    carried_int (fun _ => rfl) hsize, carried_int (fun _ => rfl) hbackup⟩
  exact boolPointer_small _ _ _ s.enabled

theorem carried_dashboard {s : DashboardConfig} (hinterval : |s.sampleIntervalSeconds| < 2 ^ 53)
    (hpoints : |s.historyPoints| < 2 ^ 53) :
    ∀ f ∈ DashboardConfig.fields, Carried DashboardConfig.zero s f := by
  simp only [DashboardConfig.fields, List.mem_cons, List.not_mem_nil, or_false, forall_eq_or_imp,
    forall_eq]
  exact ⟨carried_int (fun _ => rfl) hinterval, carried_int (fun _ => rfl) hpoints⟩

theorem carried_cluster (c : ClusterConfig) :
    ∀ f ∈ ClusterConfig.fields, Carried ClusterConfig.zero c f := by
  simp only [ClusterConfig.fields, List.mem_cons, List.not_mem_nil, or_false, forall_eq_or_imp,
    forall_eq]
  refine ⟨⟨text_reads fun _ => rfl, fun _ => trivial⟩, ⟨text_reads fun _ => rfl, fun _ => trivial⟩,
    ⟨texts_reads fun _ => rfl, fun _ => ?_⟩, ⟨boolPointer_reads (fun _ => rfl) rfl, fun _ => ?_⟩,
    ⟨optionalBool_reads (fun _ => rfl) rfl, fun _ => trivial⟩,
    ⟨struct_reads (fun _ => rfl) (SecurityConfig.decode_encode c.security), fun _ => ?_⟩⟩
  · refine Json.smallItems_iff.2 fun v hv => ?_
    obtain ⟨line, -, rfl⟩ := List.mem_map.1 hv
    trivial
  · exact boolPointer_small _ _ _ c.enabled
  · exact encodeStruct_small securityTable fun f hf => (carried_security c.security f hf).2

theorem carried_config {c : Config} (h : c.Safe)
    (hitems : clustersField.write c.clusters =
      .arr (c.clusters.map (encodeStruct ClusterConfig.fields))) :
    ∀ f ∈ Config.fields, Carried Config.zero c f := by
  have hserver := carried_server h.sessionHours
  have haudit := carried_audit h.retentionDays h.maxFileSizeMB h.configBackupRetentionDays
  have hdashboard := carried_dashboard h.sampleIntervalSeconds h.historyPoints
  simp only [Config.fields, List.mem_cons, List.not_mem_nil, or_false, forall_eq_or_imp, forall_eq]
  refine ⟨⟨struct_reads (fun _ => rfl) (ServerConfig.decode_encode (fits_of_safe h.sessionHours)),
      fun _ => encodeStruct_small serverTable fun f hf => (hserver f hf).2⟩,
    ⟨structs_reads (fun _ => rfl) fun item _ => ClusterConfig.decode_encode item, fun _ => ?_⟩,
    ⟨struct_reads (fun _ => rfl) (AuditConfig.decode_encode (fits_of_safe h.retentionDays)
        (fits_of_safe h.maxFileSizeMB) (fits_of_safe h.configBackupRetentionDays)),
      fun _ => encodeStruct_small auditTable fun f hf => (haudit f hf).2⟩,
    ⟨struct_reads (fun _ => rfl) (DashboardConfig.decode_encode
        (fits_of_safe h.sampleIntervalSeconds) (fits_of_safe h.historyPoints)),
      fun _ => encodeStruct_small dashboardTable fun f hf => (hdashboard f hf).2⟩⟩
  show (clustersField.write c.clusters).Small
  rw [hitems]
  refine Json.smallItems_iff.2 fun v hv => ?_
  obtain ⟨item, -, rfl⟩ := List.mem_map.1 hv
  exact encodeStruct_small clusterTable fun f hf => (carried_cluster item f hf).2

namespace Web

open Api

variable {T : NumberText}

/-- An object of the page and the cluster it stands for. -/
structure ShowsCluster (T : NumberText) (v : JsValue) (c : ClusterConfig) : Prop where
  cluster : Shows T ClusterConfig.fields ClusterConfig.zero v c
  security : ∃ u, v.property "security".toList = some u ∧
    Shows T SecurityConfig.fields SecurityConfig.zero u c.security

structure ShowsConfig (T : NumberText) (v : JsValue) (c : Config) : Prop where
  config : Shows T Config.fields Config.zero v c
  clusters : ∃ items, v.property "clusters".toList = some (.arr items) ∧
    List.Forall₂ (ShowsCluster T) items c.clusters
  audit : ∃ u, v.property "audit".toList = some u ∧
    Shows T AuditConfig.fields AuditConfig.zero u c.audit
  dashboard : ∃ u, v.property "dashboard".toList = some u ∧
    Shows T DashboardConfig.fields DashboardConfig.zero u c.dashboard

theorem showsCluster_toJs (c : ClusterConfig) :
    ShowsCluster T (encodeStruct ClusterConfig.fields c).toJs c where
  cluster := shows_toJs clusterTable (fun f hf => (carried_cluster c f hf).1)
    fun f hf => (carried_cluster c f hf).2
  security :=
    ⟨_, property_toJs clusterTable securityField_mem rfl,
      shows_toJs securityTable (fun f hf => (carried_security c.security f hf).1)
        fun f hf => (carried_security c.security f hf).2⟩

/-- What `getConfig` writes stands for what it is about. -/
theorem showsConfig_toJs {c : Config} (h : c.Safe) (hclusters : c.clusters ≠ []) :
    ShowsConfig T c.toJson.toJs c := by
  have haudit := carried_audit h.retentionDays h.maxFileSizeMB h.configBackupRetentionDays
  have hdashboard := carried_dashboard h.sampleIntervalSeconds h.historyPoints
  have hitems : (clustersField.write c.clusters) =
      .arr (c.clusters.map (encodeStruct ClusterConfig.fields)) := if_neg (by simpa using hclusters)
  have hcarried := carried_config h hitems
  refine ⟨shows_toJs configTable (fun f hf => (hcarried f hf).1) fun f hf => (hcarried f hf).2,
    ⟨c.clusters.map fun item => (encodeStruct ClusterConfig.fields item).toJs, ?_, ?_⟩,
    ⟨_, property_toJs configTable auditField_mem rfl,
      shows_toJs auditTable (fun f hf => (haudit f hf).1) fun f hf => (haudit f hf).2⟩,
    ⟨_, property_toJs configTable dashboardField_mem rfl,
      shows_toJs dashboardTable (fun f hf => (hdashboard f hf).1) fun f hf => (hdashboard f hf).2⟩⟩
  · refine (property_toJs configTable clustersField_mem rfl).trans (congrArg some ?_)
    refine (congrArg Json.toJs hitems).trans ?_
    rw [Json.toJs_arr, List.map_map]
    rfl
  · rw [List.forall₂_map_left_iff, List.forall₂_same]
    exact fun item _ => showsCluster_toJs item

/-! ## Edits -/

section

variable {v : JsValue} {c : Config}

theorem decode_clusters {items : List JsValue} {clusters : List ClusterConfig}
    (h : List.Forall₂ (ShowsCluster T) items clusters) :
    (items.map (JsValue.posted T)).mapM (decodeStruct ClusterConfig.fields ClusterConfig.zero) =
      some clusters := by
  induction h with
  | nil => rfl
  | cons hitem _ ih =>
      rw [List.map_cons, List.mapM_cons, hitem.cluster.decode clusterTable, ih]
      rfl

theorem ShowsConfig.onClusters (h : ShowsConfig T v c) {f : List JsValue → List JsValue}
    {clusters : List ClusterConfig}
    (hf : ∀ items, List.Forall₂ (ShowsCluster T) items c.clusters →
      List.Forall₂ (ShowsCluster T) (f items) clusters) :
    ShowsConfig T (onClusters v f) { c with clusters := clusters } := by
  obtain ⟨items, hitems, hshown⟩ := h.clusters
  have hpage : Web.onClusters v f = v.spread "clusters".toList (.arr (f items)) := by
    rw [Web.onClusters, hitems]
  have hread : clustersField.read (clustersField.get Config.zero)
      (JsValue.posted T (.arr (f items))) = some clusters := by
    rw [JsValue.posted_arr]
    exact decode_clusters (hf items hshown)
  rw [hpage]
  refine ⟨h.config.spread configTable clustersField_mem hread,
    ⟨f items, ?_, hf items hshown⟩, ?_, ?_⟩
  · rw [h.config.property_spread, if_pos rfl]
  · rw [h.config.property_spread, if_neg (by decide)]
    exact h.audit
  · rw [h.config.property_spread, if_neg (by decide)]
    exact h.dashboard

theorem forall₂_modify {α β : Type} {R : α → β → Prop} {f : α → α} {g : β → β}
    (hfg : ∀ a b, R a b → R (f a) (g b)) {l : List α} {l' : List β} (h : List.Forall₂ R l l')
    (i : Nat) : List.Forall₂ R (l.modify i f) (l'.modify i g) := by
  induction h generalizing i with
  | nil => cases i <;> exact .nil
  | cons hab h ih =>
      cases i with
      | zero => exact .cons (hfg _ _ hab) h
      | succ i => exact .cons hab (ih i)

theorem forall₂_eraseIdx {α β : Type} {R : α → β → Prop} {l : List α} {l' : List β}
    (h : List.Forall₂ R l l') (i : Nat) : List.Forall₂ R (l.eraseIdx i) (l'.eraseIdx i) := by
  induction h generalizing i with
  | nil => exact .nil
  | cons hab h ih =>
      cases i with
      | zero => exact h
      | succ i => exact .cons hab (ih i)

theorem ShowsConfig.update (h : ShowsConfig T v c) (index : Nat) {patch : JsValue → JsValue}
    {patch' : ClusterConfig → ClusterConfig}
    (hpatch : ∀ item cluster, ShowsCluster T item cluster →
      ShowsCluster T (patch item) (patch' cluster)) :
    ShowsConfig T (update v index patch) { c with clusters := c.clusters.modify index patch' } :=
  h.onClusters fun _ hitems => forall₂_modify hpatch hitems index

/-- A property of a cluster other than its security. -/
theorem ShowsCluster.spread {item : JsValue} {cluster : ClusterConfig}
    (h : ShowsCluster T item cluster) {f : JsonField ClusterConfig} (hf : f ∈ ClusterConfig.fields)
    (hname : "security".toList ≠ f.name)
    (hput : ∀ y, (f.put y cluster).security = cluster.security) {x : JsValue} {y : f.Value}
    (hread : f.read (f.get ClusterConfig.zero) (x.posted T) = some y) :
    ShowsCluster T (item.spread f.name x) (f.put y cluster) := by
  refine ⟨h.cluster.spread clusterTable hf hread, ?_⟩
  rw [h.cluster.property_spread, if_neg hname, hput]
  exact h.security

theorem ShowsCluster.input {item : JsValue} {cluster : ClusterConfig}
    (h : ShowsCluster T item cluster) (input : ClusterInput) (value : JsString) :
    ShowsCluster T (item.spread input.key (.str value)) (input.put (postedText value) cluster) := by
  cases input with
  | name =>
      exact h.spread (f := .text "name" (·.name) fun v s => { s with name := v })
        (by simp [ClusterConfig.fields]) (by decide) (fun _ => rfl) rfl
  | id =>
      exact h.spread (f := .text "id" (·.id) fun v s => { s with id := v })
        (by simp [ClusterConfig.fields]) (by decide) (fun _ => rfl) rfl

theorem ShowsCluster.brokers {item : JsValue} {cluster : ClusterConfig}
    (h : ShowsCluster T item cluster) (lines : List JsString) :
    ShowsCluster T (item.spread "brokers".toList (.arr (lines.map JsValue.str)))
      { cluster with brokers := lines.map postedText } := by
  refine h.spread (f := .texts "brokers" (·.brokers) fun v s => { s with brokers := v })
    (by simp [ClusterConfig.fields]) (by decide) (fun _ => rfl) (y := lines.map postedText) ?_
  rw [JsValue.posted_arr, List.map_map]
  show (lines.map (JsValue.posted T ∘ JsValue.str)).mapM
    (fun v => (Json.setString [] v).map String.ofList) = some (lines.map postedText)
  induction lines with
  | nil => rfl
  | cons line rest ih =>
      rw [List.map_cons, List.mapM_cons, ih]
      rfl

theorem ShowsCluster.readOnly {item : JsValue} {cluster : ClusterConfig}
    (h : ShowsCluster T item cluster) (checked : Bool) :
    ShowsCluster T (item.spread "readOnly".toList (.bool checked))
      { cluster with readOnly := checked } :=
  h.spread (f := .optionalBool "readOnly" (·.readOnly) fun v s => { s with readOnly := v })
    (by simp [ClusterConfig.fields]) (by decide) (fun _ => rfl) rfl

/-- The security of a cluster, in an object that stood for one or for none. -/
theorem ShowsCluster.ofSecurity {item u : JsValue} {cluster : ClusterConfig}
    {security : SecurityConfig} (h : Shows T ClusterConfig.fields ClusterConfig.zero item cluster)
    (hu : Shows T SecurityConfig.fields SecurityConfig.zero u security) :
    ShowsCluster T (item.spread "security".toList u) { cluster with security := security } := by
  refine ⟨h.spread clusterTable securityField_mem (hu.decode securityTable), ⟨u, ?_, hu⟩⟩
  rw [h.property_spread, if_pos rfl]

theorem shows_securityInput {u : JsValue} {security : SecurityConfig}
    (h : Shows T SecurityConfig.fields SecurityConfig.zero u security) (input : SecurityInput)
    (value : JsString) :
    Shows T SecurityConfig.fields SecurityConfig.zero (u.spread input.key (.str value))
      (input.put (postedText value) security) := by
  cases input with
  | protocol =>
      exact h.spread securityTable (f := .text "protocol" (·.protocol) fun v s =>
        { s with protocol := v }) (by simp [SecurityConfig.fields]) rfl
  | mechanism =>
      exact h.spread securityTable (f := .optionalText "mechanism" (·.mechanism) fun v s =>
        { s with mechanism := v }) (by simp [SecurityConfig.fields]) rfl
  | username =>
      exact h.spread securityTable (f := .optionalText "username" (·.username) fun v s =>
        { s with username := v }) (by simp [SecurityConfig.fields]) rfl
  | password =>
      exact h.spread securityTable (f := .optionalText "password" (·.password) fun v s =>
        { s with password := v }) (by simp [SecurityConfig.fields]) rfl

theorem ShowsCluster.securityInput {item : JsValue} {cluster : ClusterConfig}
    (h : ShowsCluster T item cluster) (input : SecurityInput) (value : JsString) :
    ShowsCluster T (spreadIn item "security".toList input.key (.str value))
      { cluster with security := input.put (postedText value) cluster.security } := by
  obtain ⟨u, hu, hshown⟩ := h.security
  rw [spreadIn, hu, Option.getD_some]
  exact .ofSecurity h.cluster (shows_securityInput hshown input value)

/-- An object is made of its properties one by one. -/
theorem spread_all {properties : List (JsString × JsValue)}
    (hnodup : (properties.map Prod.fst).Nodup) :
    JsValue.obj properties = .obj (properties.foldl JsValue.createProperty []) :=
  congrArg JsValue.obj (JsValue.createProperties_nodup hnodup).symm

theorem shows_blank : ShowsCluster T blank blankCluster := by
  have hempty : Shows T ClusterConfig.fields ClusterConfig.zero (.obj []) ClusterConfig.zero :=
    shows_empty
  have hid := hempty.spread clusterTable (f := .text "id" (·.id) fun v s => { s with id := v })
    (x := .str []) (y := "") (by simp [ClusterConfig.fields]) rfl
  have hname := hid.spread clusterTable
    (f := .text "name" (·.name) fun v s => { s with name := v })
    (x := .str []) (y := "") (by simp [ClusterConfig.fields]) rfl
  have hbrokers := hname.spread clusterTable
    (f := .texts "brokers" (·.brokers) fun v s => { s with brokers := v })
    (x := .arr [.str []]) (y := [""]) (by simp [ClusterConfig.fields]) rfl
  have hreadOnly := hbrokers.spread clusterTable
    (f := .optionalBool "readOnly" (·.readOnly) fun v s => { s with readOnly := v })
    (x := .bool false) (y := false) (by simp [ClusterConfig.fields]) rfl
  have hnone : Shows T SecurityConfig.fields SecurityConfig.zero (.obj []) SecurityConfig.zero :=
    shows_empty
  have hsecurity := shows_securityInput hnone .protocol (JsString.ofText "PLAINTEXT".toList)
  have hblank := ShowsCluster.ofSecurity hreadOnly hsecurity
  have hpage : blank = .obj ([(JsString.ofText "id".toList, .str []),
      (JsString.ofText "name".toList, .str []), (JsString.ofText "brokers".toList, .arr [.str []]),
      (JsString.ofText "readOnly".toList, .bool false),
      (JsString.ofText "security".toList, .obj
        [(JsString.ofText "protocol".toList, .str (JsString.ofText "PLAINTEXT".toList))])].foldl
          JsValue.createProperty []) := spread_all (by decide +kernel)
  rw [hpage]
  exact hblank

theorem posted_safe {n : JsNumber} {k : Int} (h : safeInteger n = some k) :
    JsValue.posted T (.num n) = .num (.ofInt k) ∧ |k| < 2 ^ 53 := by
  cases n with
  | nan => cases h
  | infinite negative => cases h
  | finite x =>
      rw [safeInteger] at h
      split at h
      · next hsafe =>
          obtain ⟨hden, hsmall⟩ := hsafe
          obtain rfl := Option.some.inj h
          have hvalue : x.value = (x.value.num : ℚ) := (Rat.coe_int_num_of_den_eq_one hden).symm
          obtain ⟨y, hy, hvalue'⟩ := toDouble_intCast hsmall
          have hx : JsNumber.finite x = .ofRat (x.value.num : ℚ) := by
            rw [JsNumber.ofRat, hy, Option.elim_some]
            exact congrArg JsNumber.finite (Double.ext (hvalue.trans hvalue'.symm))
          rw [hx]
          exact ⟨JsValue.posted_int hsmall, hsmall⟩
      · cases h

/-- A number that was typed is read as an integer. -/
theorem shows_number {σ : Type} {fields : List (JsonField σ)} {zero s : σ} {u : JsValue}
    (ht : FieldTable fields) (h : Shows T fields zero u s) (name : String) (get : σ → Int)
    (put : Int → σ → σ) (hf : .int name get put ∈ fields) {n : JsNumber} {k : Int}
    (hsafe : safeInteger n = some k) :
    Shows T fields zero (u.spread name.toList (.num n)) (put k s) := by
  obtain ⟨hposted, hsmall⟩ := posted_safe (T := T) hsafe
  refine h.spread ht hf (y := k) ?_
  rw [hposted]
  exact parseInt_formatInt (fits_of_safe hsmall)

theorem shows_auditInput {u : JsValue} {audit : AuditConfig}
    (h : Shows T AuditConfig.fields AuditConfig.zero u audit) (input : AuditInput)
    {n : JsNumber} {k : Int} (hsafe : safeInteger n = some k) :
    Shows T AuditConfig.fields AuditConfig.zero (u.spread input.key (.num n))
      (input.put k audit) := by
  cases input with
  | retentionDays =>
      exact shows_number auditTable h "retentionDays" (·.retentionDays)
        (fun v s => { s with retentionDays := v }) (by simp [AuditConfig.fields]) hsafe
  | maxFileSizeMB =>
      exact shows_number auditTable h "maxFileSizeMB" (·.maxFileSizeMB)
        (fun v s => { s with maxFileSizeMB := v }) (by simp [AuditConfig.fields]) hsafe
  | configBackupRetentionDays =>
      exact shows_number auditTable h "configBackupRetentionDays" (·.configBackupRetentionDays)
        (fun v s => { s with configBackupRetentionDays := v }) (by simp [AuditConfig.fields]) hsafe

theorem shows_dashboardInput {u : JsValue} {dashboard : DashboardConfig}
    (h : Shows T DashboardConfig.fields DashboardConfig.zero u dashboard) (input : DashboardInput)
    {n : JsNumber} {k : Int} (hsafe : safeInteger n = some k) :
    Shows T DashboardConfig.fields DashboardConfig.zero (u.spread input.key (.num n))
      (input.put k dashboard) := by
  cases input with
  | sampleIntervalSeconds =>
      exact shows_number dashboardTable h "sampleIntervalSeconds" (·.sampleIntervalSeconds)
        (fun v s => { s with sampleIntervalSeconds := v }) (by simp [DashboardConfig.fields]) hsafe
  | historyPoints =>
      exact shows_number dashboardTable h "historyPoints" (·.historyPoints)
        (fun v s => { s with historyPoints := v }) (by simp [DashboardConfig.fields]) hsafe

theorem ShowsConfig.auditInput (h : ShowsConfig T v c) (input : AuditInput) {n : JsNumber}
    {k : Int} (hsafe : safeInteger n = some k) :
    ShowsConfig T (spreadIn v "audit".toList input.key (.num n))
      { c with audit := input.put k c.audit } := by
  obtain ⟨u, hu, hshown⟩ := h.audit
  have hnew := shows_auditInput hshown input hsafe
  rw [spreadIn, hu, Option.getD_some]
  refine ⟨h.config.spread configTable auditField_mem (hnew.decode auditTable), ?_,
    ⟨_, ?_, hnew⟩, ?_⟩
  · rw [h.config.property_spread, if_neg (by decide)]
    exact h.clusters
  · rw [h.config.property_spread, if_pos rfl]
  · rw [h.config.property_spread, if_neg (by decide)]
    exact h.dashboard

theorem ShowsConfig.dashboardInput (h : ShowsConfig T v c) (input : DashboardInput) {n : JsNumber}
    {k : Int} (hsafe : safeInteger n = some k) :
    ShowsConfig T (spreadIn v "dashboard".toList input.key (.num n))
      { c with dashboard := input.put k c.dashboard } := by
  obtain ⟨u, hu, hshown⟩ := h.dashboard
  have hnew := shows_dashboardInput hshown input hsafe
  rw [spreadIn, hu, Option.getD_some]
  refine ⟨h.config.spread configTable dashboardField_mem (hnew.decode dashboardTable), ?_, ?_,
    ⟨_, ?_, hnew⟩⟩
  · rw [h.config.property_spread, if_neg (by decide)]
    exact h.clusters
  · rw [h.config.property_spread, if_neg (by decide)]
    exact h.audit
  · rw [h.config.property_spread, if_pos rfl]

/-- An edit of the page is the edit of the configuration. -/
theorem ShowsConfig.edit (h : ShowsConfig T v c) {e : SettingsEdit} (he : e.Safe) :
    ShowsConfig T (e.onPage v) (e.onConfig c) := by
  cases e with
  | cluster index input value => exact h.update index fun _ _ hitem => hitem.input input value
  | brokers index value => exact h.update index fun _ _ hitem => hitem.brokers (brokerLines value)
  | readOnly index checked => exact h.update index fun _ _ hitem => hitem.readOnly checked
  | security index input value =>
      exact h.update index fun _ _ hitem => hitem.securityInput input value
  | remove index => exact h.onClusters fun _ hitems => forall₂_eraseIdx hitems index
  | add => exact h.onClusters fun _ hitems => List.rel_append hitems (.cons shows_blank .nil)
  | audit input value =>
      obtain ⟨k, hk⟩ := Option.isSome_iff_exists.1 he
      rw [SettingsEdit.onConfig, hk]
      exact h.auditInput input hk
  | dashboard input value =>
      obtain ⟨k, hk⟩ := Option.isSome_iff_exists.1 he
      rw [SettingsEdit.onConfig, hk]
      exact h.dashboardInput input hk

theorem ShowsConfig.edits {es : List SettingsEdit} (h : ShowsConfig T v c)
    (hes : ∀ e ∈ es, e.Safe) :
    ShowsConfig T (run SettingsEdit.onPage v es) (run SettingsEdit.onConfig c es) := by
  induction es generalizing v c with
  | nil => exact h
  | cons e es ih =>
      exact ih (h.edit (hes e List.mem_cons_self)) fun e' he' => hes e' (List.mem_cons_of_mem e he')

end

/-! ## The secrets that were not shown -/

/-- The password that `fillPassword` leaves in a cluster. -/
def keptPassword (current : Config) (id password : String) : String :=
  if password = "" then
    ((current.clusters.find? fun old => old.id == id).map (·.security.password)).getD ""
  else password

theorem fillPassword_eq (cfg : Config) (item : ClusterConfig) :
    fillPassword cfg item = { item with security := { item.security with
      password := keptPassword cfg item.id item.security.password } } := by
  rw [fillPassword, keptPassword]
  split
  · next hempty =>
      cases cfg.clusters.find? fun old => old.id == item.id with
      | some old => rfl
      | none => rw [Option.map_none, Option.getD_none, ← hempty]
  · rfl

/-- An edit that neither reads nor changes what the server looks a password up by. -/
theorem fillPassword_patch {cfg : Config} (f : ClusterConfig → ClusterConfig) {item : ClusterConfig}
    (hid : (f item).id = item.id) (hpassword : (f item).security.password = item.security.password)
    (hf : ∀ p, f { item with security := { item.security with password := p } } =
      { f item with security := { (f item).security with password := p } }) :
    fillPassword cfg (f item) = f (fillPassword cfg item) := by
  have hkept : keptPassword cfg (f item).id (f item).security.password =
      keptPassword cfg item.id item.security.password := by rw [hid, hpassword]
  rw [fillPassword_eq cfg (f item), hkept, fillPassword_eq cfg item]
  exact (hf _).symm

/-- A password that was typed is not looked up. -/
theorem fillPassword_security {cfg : Config} {input : SecurityInput} {value : JsString}
    (he : input = .password → postedText value ≠ "") (item : ClusterConfig) :
    fillPassword cfg { item with security := input.put (postedText value) item.security } =
      { fillPassword cfg item with
        security := input.put (postedText value) (fillPassword cfg item).security } := by
  cases input with
  | protocol =>
      exact fillPassword_patch
        (fun item => { item with security := { item.security with protocol := postedText value } })
        rfl rfl fun _ => rfl
  | mechanism =>
      exact fillPassword_patch
        (fun item => { item with security := { item.security with mechanism := postedText value } })
        rfl rfl fun _ => rfl
  | username =>
      exact fillPassword_patch
        (fun item => { item with security := { item.security with username := postedText value } })
        rfl rfl fun _ => rfl
  | password =>
      have hkept : keptPassword cfg item.id (postedText value) = postedText value := if_neg (he rfl)
      rw [fillPassword_eq, fillPassword_eq]
      show ({ item with security := { item.security with
        password := keptPassword cfg item.id (postedText value) } } : ClusterConfig) = _
      rw [hkept]
      rfl

/-- An edit of what is sent is the edit of what is stored. -/
theorem fillSecrets_edit {cfg : Config} (hids : ∀ old ∈ cfg.clusters, old.id ≠ "")
    {e : SettingsEdit} (he : e.KeepsSecrets) (sent : Config) :
    fillSecrets cfg (e.onConfig sent) = e.onConfig (fillSecrets cfg sent) := by
  have hitems : List.Forall₂ (fun item stored => fillPassword cfg item = stored) sent.clusters
      (sent.clusters.map (fillPassword cfg)) := by
    rw [List.forall₂_map_right_iff, List.forall₂_same]
    exact fun _ _ => rfl
  have hclusters : ∀ {items stored : List ClusterConfig},
      List.Forall₂ (fun item stored => fillPassword cfg item = stored) items stored →
      fillSecrets cfg { sent with clusters := items } =
        { fillSecrets cfg sent with clusters := stored } := by
    intro items stored h
    have hmap : items.map (fillPassword cfg) = stored := by
      rwa [← List.forall₂_map_left_iff (f := fillPassword cfg) (R := Eq),
        List.forall₂_eq_eq_eq] at h
    rw [fillSecrets, fillSecrets, hmap]
  have hmodify : ∀ (index : Nat) {f : ClusterConfig → ClusterConfig},
      (∀ item, fillPassword cfg (f item) = f (fillPassword cfg item)) →
      fillSecrets cfg { sent with clusters := sent.clusters.modify index f } =
        { fillSecrets cfg sent with
          clusters := (fillSecrets cfg sent).clusters.modify index f } := fun index f hf =>
    hclusters (forall₂_modify (fun item stored h => by rw [hf, h]) hitems index)
  cases e with
  | cluster index input value =>
      cases input with
      | name =>
          exact hmodify index fun item => fillPassword_patch
            (fun item => ClusterInput.put (postedText value) item .name) rfl rfl fun _ => rfl
      | id => exact absurd he id
  | brokers index value =>
      exact hmodify index fun item => fillPassword_patch
        (fun item => { item with brokers := (brokerLines value).map postedText }) rfl rfl
        fun _ => rfl
  | readOnly index checked =>
      exact hmodify index fun item => fillPassword_patch
        (fun item => { item with readOnly := checked }) rfl rfl fun _ => rfl
  | security index input value =>
      have htyped : input = .password → postedText value ≠ "" := by
        rintro rfl
        exact he
      exact hmodify index (fillPassword_security htyped)
  | remove index => exact hclusters (forall₂_eraseIdx hitems index)
  | add =>
      -- no cluster in force has an empty id
      have hnone : (cfg.clusters.find? fun old => old.id == blankCluster.id) = none :=
        List.find?_eq_none.2 fun old hold hid => hids old hold (beq_iff_eq.1 hid)
      have hblank : fillPassword cfg blankCluster = blankCluster := by
        rw [fillPassword, hnone]
        exact if_pos rfl
      exact hclusters (List.rel_append hitems (.cons hblank .nil))
  | audit input value => rfl
  | dashboard input value => rfl

theorem fillSecrets_edits {cfg : Config} (hids : ∀ old ∈ cfg.clusters, old.id ≠ "")
    {es : List SettingsEdit} (hes : ∀ e ∈ es, e.KeepsSecrets) (sent : Config) :
    fillSecrets cfg (run SettingsEdit.onConfig sent es) =
      run SettingsEdit.onConfig (fillSecrets cfg sent) es := by
  induction es generalizing sent with
  | nil => rfl
  | cons e es ih =>
      rw [run_cons, run_cons, ih fun e' he' => hes e' (List.mem_cons_of_mem e he'),
        fillSecrets_edit hids (hes e List.mem_cons_self)]

/-! ## From the server to the page and back -/

theorem isBlank_empty : isBlank "" = true := by decide +kernel

theorem validateClusters_named {i : Nat} {seen : List String} {clusters : List ClusterConfig}
    (h : validateClusters i seen clusters = none) : ∀ c ∈ clusters, c.id ≠ "" := by
  induction clusters generalizing i seen with
  | nil => exact fun _ hc => absurd hc List.not_mem_nil
  | cons c rest ih =>
      rw [validateClusters] at h
      split at h
      · cases h
      · next hvalid =>
          split at h
          · cases h
          · refine List.forall_mem_cons.2 ⟨fun hid => ?_, ih h⟩
            rw [validateCluster, hid, if_pos isBlank_empty] at hvalid
            cases hvalid

/-- A valid configuration has a cluster, and each has an id. -/
theorem validate_clusters {cfg : Config} (h : cfg.validate = none) :
    cfg.clusters ≠ [] ∧ ∀ c ∈ cfg.clusters, c.id ≠ "" := by
  unfold Config.validate at h
  split at h
  · cases h
  · split at h
    · cases h
    · split at h
      · cases h
      · next hclusters =>
          split at h
          · cases h
          · next hvalid =>
              exact ⟨fun hnil => hclusters (by rw [hnil]; rfl), validateClusters_named hvalid⟩

/-- What the page sends is decoded as the edits of what it was shown, and what is
stored of it is, the secrets included, the edits of what was in force. -/
theorem settings_saved (T : NumberText) {cfg : Config} (hvalid : cfg.validate = none)
    (hsafe : cfg.Safe) {es : List SettingsEdit} (hes : ∀ e ∈ es, e.Safe) :
    ∃ page, loadSettings (getConfig cfg) = some page ∧
      ((saveBody T (run SettingsEdit.onPage page es)).length ≤ bodyLimit →
        decodeConfig (saveBody T (run SettingsEdit.onPage page es)) =
          some (run SettingsEdit.onConfig (maskConfig cfg) es)) ∧
      ((∀ e ∈ es, e.KeepsSecrets) →
        fillSecrets cfg (run SettingsEdit.onConfig (maskConfig cfg) es) =
          run SettingsEdit.onConfig cfg es) := by
  obtain ⟨hclusters, hids⟩ := validate_clusters hvalid
  have hmasked : (maskConfig cfg).Safe := ⟨hsafe.sessionHours, hsafe.retentionDays,
    hsafe.maxFileSizeMB, hsafe.configBackupRetentionDays, hsafe.sampleIntervalSeconds,
    hsafe.historyPoints⟩
  have hpage : ShowsConfig T (maskConfig cfg).toJson.toJs (maskConfig cfg) :=
    showsConfig_toJs hmasked (by simpa [maskConfig] using hclusters)
  refine ⟨(maskConfig cfg).toJson.toJs, ?_, fun hlimit => ?_, fun hkeeps => ?_⟩
  · rw [loadSettings, getConfig, runes_utf8]
    exact JsValue.parse_line _
  · have hsent := hpage.edits hes
    have hstops : Stops [] := trivial
    have hread := JsValue.readValue_stringify T .compact
      (run SettingsEdit.onPage (maskConfig cfg).toJson.toJs es) (Nat.le_succ _) hstops
    rw [List.append_nil] at hread
    rw [decodeConfig_eq, List.take_of_length_le hlimit, saveBody, runes_utf8, hread]
    exact hsent.config.decode configTable
  · rw [fillSecrets_edits hids hkeeps, fillSecrets_mask (Config.validate_ids hvalid)]

def clusterRenamed : List SettingsEdit := [.cluster 0 .name (JsString.ofText "b".toList)]

/-- A cluster with a password is renamed. -/
theorem settings_saved_renamed :
    ∃ (T : NumberText) (page : JsValue), loadSettings (getConfig securedConfig) = some page ∧
      decodeConfig (saveBody T (run SettingsEdit.onPage page clusterRenamed)) =
        some (run SettingsEdit.onConfig (maskConfig securedConfig) clusterRenamed) ∧
      fillSecrets securedConfig
          (run SettingsEdit.onConfig (maskConfig securedConfig) clusterRenamed) =
        run SettingsEdit.onConfig securedConfig clusterRenamed := by
  obtain ⟨T⟩ := numberText_nonempty
  have hsafe : securedConfig.Safe :=
    ⟨by decide, by decide, by decide, by decide, by decide, by decide⟩
  obtain ⟨page, hload, hsaved, hstored⟩ := settings_saved T (by decide +kernel) hsafe
    (show ∀ e ∈ clusterRenamed, e.Safe by simp [clusterRenamed, SettingsEdit.Safe])
  refine ⟨T, page, hload, hsaved ?_, hstored (by simp [clusterRenamed, SettingsEdit.KeepsSecrets])⟩
  have hpage : page = (maskConfig securedConfig).toJson.toJs := by
    rw [loadSettings, getConfig, runes_utf8, JsValue.parse_line] at hload
    exact (Option.some.inj hload).symm
  have hedited : run SettingsEdit.onPage page clusterRenamed =
      (run SettingsEdit.onConfig (maskConfig securedConfig) clusterRenamed).toJson.toJs := by
    rw [hpage]
    rfl
  have hsmall :
      (run SettingsEdit.onConfig (maskConfig securedConfig) clusterRenamed).toJson.Small :=
    encodeStruct_small configTable fun f hf => (carried_config
      ⟨by decide, by decide, by decide, by decide, by decide, by decide⟩ rfl f hf).2
  rw [hedited, saveBody, JsValue.stringify, Json.toTree_toJs T _ hsmall]
  decide +kernel

end Web

end KafkaManager
