import KafkaManager.Lib.GoText

/-!
# The configuration and its validation

The records of `internal/config/model.go`, field for field, and the checks of
`validate.go` in the order the source makes them. A pointer to a boolean is an
`Option Bool`. An error is the constructor named after its message; what the
message prints, the constructor carries.
-/

namespace KafkaManager

open Lib

structure ServerConfig where
  listenAddress : String
  username : String
  password : String
  passwordHash : String
  sessionHours : Int
deriving DecidableEq, Repr

structure SecurityConfig where
  protocol : String
  mechanism : String
  username : String
  password : String
  tls : Bool
deriving DecidableEq, Repr

structure ClusterConfig where
  id : String
  name : String
  brokers : List String
  enabled : Option Bool
  readOnly : Bool
  security : SecurityConfig
deriving DecidableEq, Repr

structure AuditConfig where
  enabled : Option Bool
  directory : String
  retentionDays : Int
  maxFileSizeMB : Int
  configBackupRetentionDays : Int
deriving DecidableEq, Repr

structure DashboardConfig where
  sampleIntervalSeconds : Int
  historyPoints : Int
deriving DecidableEq, Repr

structure Config where
  server : ServerConfig
  clusters : List ClusterConfig
  audit : AuditConfig
  dashboard : DashboardConfig
deriving DecidableEq, Repr

/-- The guard `cfg.Enabled != nil && !*cfg.Enabled` of every loop that skips
a cluster. A cluster without the field is enabled. -/
def ClusterConfig.disabled (c : ClusterConfig) : Bool := c.enabled == some false

/-- What `validateCluster` returns. -/
inductive ClusterError
  | idRequired                         -- id is required
  | nameRequired                       -- name is required
  | brokerRequired                     -- at least one broker is required
  | brokerEmpty                        -- broker must not be empty
  | mechanismRequired                  -- SASL mechanism is required
  | mechanismUnsupported (m : String)  -- unsupported SASL mechanism %q
  | saslUsernameRequired               -- SASL username is required
  | protocolUnsupported (p : String)   -- unsupported security protocol %q
deriving DecidableEq, Repr

/-- What `Validate` returns. -/
inductive ConfigError
  | usernameRequired                   -- server username is required
  | passwordRequired                   -- server password is required
  | clusterRequired                    -- at least one cluster is required
  | cluster (i : Nat) (e : ClusterError)  -- cluster %d: %w
  | duplicateID (id : String)          -- duplicate cluster id %q
  | retentionDays                      -- audit retentionDays must be greater than zero
  | maxFileSizeMB                      -- audit maxFileSizeMB must be greater than zero
  | configBackupRetentionDays          -- audit configBackupRetentionDays must be greater than zero
  | sampleIntervalSeconds              -- dashboard sampleIntervalSeconds must be between 5 and 3600
  | historyPoints                      -- dashboard historyPoints must be between 2 and 10000
deriving DecidableEq, Repr

def validateCluster (c : ClusterConfig) : Option ClusterError :=
  if isBlank c.id then some .idRequired
  else if isBlank c.name then some .nameRequired
  else if c.brokers.isEmpty then some .brokerRequired
  else if c.brokers.any isBlank then some .brokerEmpty
  else
    let protocol := if c.security.protocol = "" then "PLAINTEXT" else c.security.protocol
    if protocol = "PLAINTEXT" ∨ protocol = "SSL" then none
    else if protocol = "SASL_PLAINTEXT" ∨ protocol = "SASL_SSL" then
      if c.security.mechanism = "" then some .mechanismRequired
      else if c.security.mechanism = "PLAIN" ∨ c.security.mechanism = "SCRAM-SHA-256"
          ∨ c.security.mechanism = "SCRAM-SHA-512" then
        if c.security.username = "" then some .saslUsernameRequired else none
      else some (.mechanismUnsupported c.security.mechanism)
    else some (.protocolUnsupported protocol)

/-- The loop over the clusters of `Validate`, from index `i` on with the ids
`seen` before. -/
def validateClusters : Nat → List String → List ClusterConfig → Option ConfigError
  | _, _, [] => none
  | i, seen, c :: rest =>
      match validateCluster c with
      | some e => some (.cluster i e)
      | none =>
          if c.id ∈ seen then some (.duplicateID c.id)
          else validateClusters (i + 1) (c.id :: seen) rest

/-- `Validate`: `none` where the source returns a nil error. -/
def Config.validate (c : Config) : Option ConfigError :=
  if isBlank c.server.username then some .usernameRequired
  else if c.server.password = "" ∧ isBlank c.server.passwordHash then some .passwordRequired
  else if c.clusters.isEmpty then some .clusterRequired
  else
    match validateClusters 0 [] c.clusters with
    | some e => some e
    | none =>
        if c.audit.retentionDays < 1 then some .retentionDays
        else if c.audit.maxFileSizeMB < 1 then some .maxFileSizeMB
        else if c.audit.configBackupRetentionDays < 1 then some .configBackupRetentionDays
        else if c.dashboard.sampleIntervalSeconds < 5
            ∨ c.dashboard.sampleIntervalSeconds > 3600 then some .sampleIntervalSeconds
        else if c.dashboard.historyPoints < 2 ∨ c.dashboard.historyPoints > 10000 then
          some .historyPoints
        else none

/-- The ids of a cluster list are pairwise distinct. -/
def DistinctIDs (clusters : List ClusterConfig) : Prop := (clusters.map ClusterConfig.id).Nodup

/-- The loop accepts only lists whose ids are new and distinct. -/
theorem validateClusters_ids {i : Nat} {seen : List String} {clusters : List ClusterConfig}
    (h : validateClusters i seen clusters = none) :
    DistinctIDs clusters ∧ ∀ c ∈ clusters, c.id ∉ seen := by
  induction clusters generalizing i seen with
  | nil => exact ⟨List.nodup_nil, by simp⟩
  | cons c rest ih =>
      rw [validateClusters] at h
      split at h
      · simp at h
      · split at h
        · simp at h
        · next hc =>
            obtain ⟨hnd, hnew⟩ := ih h
            have hrest : ∀ d ∈ rest, d.id ≠ c.id ∧ d.id ∉ seen := by
              intro d hd
              simpa [not_or] using hnew d hd
            refine ⟨List.nodup_cons.2 ⟨?_, hnd⟩, ?_⟩
            · intro hmem
              obtain ⟨d, hd, hid⟩ := List.mem_map.1 hmem
              exact (hrest d hd).1 hid
            · intro d hd
              rcases List.mem_cons.1 hd with rfl | hd
              · exact hc
              · exact (hrest d hd).2

/-- A valid configuration has pairwise distinct cluster ids. -/
theorem Config.validate_ids {c : Config} (h : c.validate = none) : DistinctIDs c.clusters := by
  unfold Config.validate at h
  split at h
  · simp at h
  · split at h
    · simp at h
    · split at h
      · simp at h
      · split at h
        · simp at h
        · next hv => exact (validateClusters_ids hv).1

/-- A cluster without authentication. -/
def plainCluster (id broker : String) : ClusterConfig :=
  { id := id, name := id, brokers := [broker], enabled := none, readOnly := false
    security := { protocol := "", mechanism := "", username := "", password := "", tls := false } }

end KafkaManager
