import KafkaManager.Lib.References
import KafkaManager.Config.Crypto

/-!
# Reading and writing `config.yaml` (`internal/config/load.go`, `marshal.go`)

A text is a list of characters. `load` expands the references `${NAME}` over
the raw text, decodes the result into the defaults, and validates. `marshal`
encodes and puts comment lines before the text and before three of its
sections. The YAML package is a parameter: `decode` takes the configuration it
decodes into, and refuses unknown fields as the source configures it to.
-/

namespace KafkaManager

open Lib

/-- `gopkg.in/yaml.v3`, at the type `Config`. -/
structure Yaml where
  encode : Config → Option (List Char)
  decode : Config → List Char → Option Config

/-- `os.LookupEnv` -/
abbrev Environment : Type := List Char → Option (List Char)

inductive LoadError
  | missing (name : List Char)   -- environment variable %s is not set
  | decode                       -- decode config: %w
  | invalid (e : ConfigError)
deriving DecidableEq, Repr

def defaultConfig : Config where
  server :=
    { listenAddress := ":8080", username := "", password := "", passwordHash := ""
      sessionHours := 12 }
  clusters := []
  audit :=
    { enabled := none, directory := "./data/audit", retentionDays := 30, maxFileSizeMB := 50
      configBackupRetentionDays := 30 }
  dashboard := { sampleIntervalSeconds := 15, historyPoints := 240 }

/-- `Load`. A variable that is not set expands to nothing, and the first such
name is the error. -/
def load (yaml : Yaml) (env : Environment) (raw : List Char) : Except LoadError Config :=
  match (Refs.names raw).find? fun name => (env name).isNone with
  | some name => .error (.missing name)
  | none =>
      match yaml.decode defaultConfig (Refs.expand (fun name => (env name).getD []) raw) with
      | none => .error .decode
      | some cfg =>
          match cfg.validate with
          | some e => .error (.invalid e)
          | none => .ok cfg

theorem load_missing {yaml : Yaml} {env : Environment} {raw name : List Char}
    (h : (Refs.names raw).find? (fun name => (env name).isNone) = some name) :
    load yaml env raw = .error (.missing name) := by
  unfold load
  rw [h]

theorem load_eq {yaml : Yaml} {env : Environment} {raw : List Char} {cfg : Config}
    (hset : ∀ name ∈ Refs.names raw, (env name).isSome = true)
    (hdecode : yaml.decode defaultConfig
      (Refs.expand (fun name => (env name).getD []) raw) = some cfg)
    (hvalid : cfg.validate = none) : load yaml env raw = .ok cfg := by
  have hfind : (Refs.names raw).find? (fun name => (env name).isNone) = none := by
    rw [List.find?_eq_none]
    intro name hname
    have := hset name hname
    cases henv : env name with
    | none => rw [henv] at this; exact absurd this (by simp)
    | some v => simp
  unfold load
  rw [hfind]
  simp only
  rw [hdecode]
  simp only
  rw [hvalid]

/-- What `Load` returns was decoded from the expanded text and is valid. -/
theorem load_ok {yaml : Yaml} {env : Environment} {raw : List Char} {cfg : Config}
    (h : load yaml env raw = .ok cfg) :
    yaml.decode defaultConfig (Refs.expand (fun name => (env name).getD []) raw) = some cfg ∧
      cfg.validate = none := by
  unfold load at h
  split at h
  · exact absurd h (by simp)
  · split at h
    · exact absurd h (by simp)
    · next hdecode =>
        split at h
        · exact absurd h (by simp)
        · next hv =>
            obtain rfl := Except.ok.inj h
            exact ⟨hdecode, hv⟩

theorem load_valid {yaml : Yaml} {env : Environment} {raw : List Char} {cfg : Config}
    (h : load yaml env raw = .ok cfg) : cfg.validate = none := (load_ok h).2

/-! ## Marshal -/

def header : List Char :=
  "# Kafka Manager 配置文件
# 修改后会自动热加载；也可以在 Web 的“集群配置”页面保存。
# config.yaml 包含登录及 Kafka 凭据，请设置 0600 权限且不要提交到 Git。

# Web 服务与登录配置
# listenAddress 为监听地址；username/password 为 Web 登录账号密码。
".toList

def clustersKey : List Char := "clusters:\n".toList

def auditKey : List Char := "audit:\n".toList

def dashboardKey : List Char := "dashboard:\n".toList

def clustersNote : List Char :=
  "# Kafka 集群列表
# protocol: PLAINTEXT / SSL / SASL_PLAINTEXT / SASL_SSL
# SASL mechanism: PLAIN / SCRAM-SHA-256 / SCRAM-SHA-512
".toList

def auditNote : List Char := "# 本地数据保留：审计日志按日期和大小轮转，配置备份按天清理\n".toList

def dashboardNote : List Char := "# 首页监控采样：采样间隔（秒）与内存历史点数\n".toList

/-- `replaceSection`, called with a replacement that is the section key behind
a comment. -/
def replaceSection (source key note : List Char) : List Char :=
  replaceFirst source key (note ++ key)

/-- What `Marshal` does to the encoder's text. -/
def annotate (text : List Char) : List Char :=
  header ++ replaceSection (replaceSection (replaceSection text clustersKey clustersNote)
    auditKey auditNote) dashboardKey dashboardNote

/-- `Marshal` -/
def marshal (yaml : Yaml) (cfg : Config) : Option (List Char) := (yaml.encode cfg).map annotate

end KafkaManager
