import KafkaManager.Api.Config
import KafkaManager.Config.Load
import KafkaManager.Lib.JsonRest
import KafkaManager.Lib.JsonRoundTrip
import KafkaManager.Lib.JsonText

/-!
# The configuration without its secrets

What `getConfig` shows does not depend on any secret, and what `putConfig` makes
of a text that is sent back as it was is the configuration in force. In between
stands the limit of a body: a configuration may be too long to be sent back.
-/

namespace KafkaManager.Api

open Lib

/-- What the sent cluster leaves empty is taken over from the cluster of the
same id, if there is one. -/
def OwnPassword (current : Config) (sent : ClusterConfig) (password : String) : Prop :=
  if sent.security.password = "" then
    (∃ old ∈ current.clusters, old.id = sent.id ∧ password = old.security.password) ∨
      (∀ old ∈ current.clusters, old.id ≠ sent.id) ∧ password = ""
  else password = sent.security.password

/-- What is stored is what was sent, with secrets that are its own. -/
structure OwnSecrets (current sent stored : Config) : Prop where
  clusters : List.Forall₂ (fun c c' => ∃ password,
    c' = { c with security := { c.security with password := password } } ∧
      OwnPassword current c password) sent.clusters stored.clusters
  server : stored.server = { sent.server with
    password := if sent.server.password = "" then current.server.password else sent.server.password
    passwordHash :=
      if sent.server.passwordHash = "" then current.server.passwordHash
      else sent.server.passwordHash }
  audit : stored.audit = sent.audit
  dashboard : stored.dashboard = sent.dashboard

/-- The second differs from the first in its secrets at most. -/
structure SameButSecrets (a b : Config) : Prop where
  server : ∃ password passwordHash,
    b.server = { a.server with password := password, passwordHash := passwordHash }
  clusters : List.Forall₂ (fun c c' => ∃ password,
    c' = { c with security := { c.security with password := password } }) a.clusters b.clusters
  audit : b.audit = a.audit
  dashboard : b.dashboard = a.dashboard

theorem fillPassword_own (current : Config) (sent : ClusterConfig) :
    ∃ password, fillPassword current sent =
        { sent with security := { sent.security with password := password } } ∧
      OwnPassword current sent password := by
  unfold fillPassword OwnPassword
  by_cases hempty : sent.security.password = ""
  · rw [if_pos hempty]
    cases hfind : current.clusters.find? fun old => old.id == sent.id with
    | some old =>
        refine ⟨old.security.password, rfl, ?_⟩
        rw [if_pos hempty]
        exact .inl ⟨old, List.mem_of_find?_eq_some hfind, by simpa using List.find?_some hfind, rfl⟩
    | none =>
        refine ⟨"", by rw [← hempty], ?_⟩
        rw [if_pos hempty]
        refine .inr ⟨fun old hold hid => ?_, rfl⟩
        exact List.find?_eq_none.1 hfind old hold (beq_iff_eq.2 hid)
  · exact ⟨sent.security.password, by rw [if_neg hempty], by rw [if_neg hempty]⟩

theorem fillSecrets_own (current sent : Config) :
    OwnSecrets current sent (fillSecrets current sent) where
  clusters := by
    show List.Forall₂ _ sent.clusters (sent.clusters.map (fillPassword current))
    induction sent.clusters with
    | nil => exact .nil
    | cons c rest ih => exact .cons (fillPassword_own current c) ih
  server := rfl
  audit := rfl
  dashboard := rfl

theorem maskCluster_same {cs ds : List ClusterConfig}
    (h : List.Forall₂ (fun c c' : ClusterConfig => ∃ password,
      c' = { c with security := { c.security with password := password } }) cs ds) :
    ds.map maskCluster = cs.map maskCluster := by
  induction h with
  | nil => rfl
  | cons hc _ ih =>
      obtain ⟨password, rfl⟩ := hc
      rw [List.map_cons, List.map_cons, ih]
      rfl

/-- Nothing that is masked is shown. -/
theorem maskConfig_same {a b : Config} (h : SameButSecrets a b) : maskConfig b = maskConfig a := by
  obtain ⟨⟨password, passwordHash, hserver⟩, hclusters, haudit, hdashboard⟩ := h
  unfold maskConfig
  rw [hserver, haudit, hdashboard, maskCluster_same hclusters]

/-- What is masked is filled in again. -/
theorem fillPassword_mask {cfg : Config} (hids : DistinctIDs cfg.clusters) {c : ClusterConfig}
    (hc : c ∈ cfg.clusters) : fillPassword cfg (maskCluster c) = c := by
  have hfind : (cfg.clusters.find? fun old => old.id == c.id) = some c := by
    cases hfind : cfg.clusters.find? fun old => old.id == c.id with
    | none => exact absurd (beq_self_eq_true c.id) (List.find?_eq_none.1 hfind c hc)
    | some old =>
        have hid : old.id = c.id := by simpa using List.find?_some hfind
        rw [List.inj_on_of_nodup_map hids (List.mem_of_find?_eq_some hfind) hc hid]
  simp only [fillPassword, maskCluster, if_true, hfind]

theorem fillSecrets_mask {cfg : Config} (hids : DistinctIDs cfg.clusters) :
    fillSecrets cfg (maskConfig cfg) = cfg := by
  have hclusters : (cfg.clusters.map maskCluster).map (fillPassword cfg) = cfg.clusters := by
    rw [List.map_map]
    exact (List.map_congr_left fun c hc => fillPassword_mask hids hc).trans (List.map_id' _)
  simp only [fillSecrets, maskConfig, hclusters, if_true]

/-! ## What is read of a body -/

/-- A text within the limit is read to the end of its value. -/
theorem decodeConfig_written {cfg : Config} (hfits : cfg.Fits)
    (hlimit : (utf8 cfg.toJson.write).length ≤ bodyLimit) :
    decodeConfig (utf8 (cfg.toJson.write ++ ['\n'])) = some cfg := by
  -- the newline is read or not
  obtain ⟨rest, hrest, htake⟩ : ∃ rest, Stops rest ∧
      (utf8 (cfg.toJson.write ++ ['\n'])).take bodyLimit = utf8 (cfg.toJson.write ++ rest) := by
    have happend : ∀ s, utf8 (cfg.toJson.write ++ s) = utf8 cfg.toJson.write ++ utf8 s := fun s =>
      List.flatMap_append ..
    rcases Nat.lt_or_ge (utf8 cfg.toJson.write).length bodyLimit with hlt | hge
    · refine ⟨['\n'], Json.stops_cons (.inr (.inr (.inr (by decide)))) [], ?_⟩
      refine List.take_of_length_le ?_
      rw [happend, List.length_append, show (utf8 ['\n']).length = 1 from rfl]
      omega
    · refine ⟨[], trivial, ?_⟩
      rw [happend, List.append_nil, List.take_left' (Nat.le_antisymm hlimit hge)]
  have hread := Json.readValue_write cfg.toJson ((cfg.toJson.write ++ rest).length + 1) rest
    (by rw [List.length_append]; omega) hrest
  simp only [decodeConfig_eq, htake, runes_utf8, hread, Option.bind_some]
  exact Config.ofJson_toJson hfits

theorem maskConfig_fits {cfg : Config} (h : cfg.Fits) : (maskConfig cfg).Fits :=
  ⟨h.sessionHours, h.retentionDays, h.maxFileSizeMB, h.configBackupRetentionDays,
    h.sampleIntervalSeconds, h.historyPoints⟩

/-- A valid configuration comes back if it is not too long, secrets come from where
they belong and none is shown. -/
theorem masked_config (cfg : Config) :
    (cfg.validate = none → cfg.Fits → (utf8 (maskConfig cfg).toJson.write).length ≤ bodyLimit →
      (decodeConfig (getConfig cfg)).map (fillSecrets cfg) = some cfg) ∧
    (∀ sent, OwnSecrets cfg sent (fillSecrets cfg sent)) ∧
    ∀ other, SameButSecrets cfg other → getConfig other = getConfig cfg := by
  refine ⟨fun hvalid hfits hlimit => ?_, fillSecrets_own cfg, fun other hsame => ?_⟩
  · rw [getConfig, decodeConfig_written (maskConfig_fits hfits) hlimit, Option.map_some,
      fillSecrets_mask (Config.validate_ids hvalid)]
  · rw [getConfig, getConfig, maskConfig_same hsame]

/-- A configuration with a listen address of so many letters. -/
def addressConfig (n : Nat) : Config :=
  { defaultConfig with
    server := { defaultConfig.server with
      listenAddress := String.ofList (List.replicate n 'a')
      username := "admin"
      password := "secret" }
    clusters := [plainCluster "a" "k1:9092"] }

/-- A cluster with a password. -/
def securedConfig : Config :=
  { addressConfig 0 with
    clusters := [{ plainCluster "a" "k1:9092" with
      security :=
        { protocol := "SASL_PLAINTEXT", mechanism := "PLAIN", username := "app", password := "hidden"
          tls := false } }] }

theorem masked_config_secured :
    (decodeConfig (getConfig securedConfig)).map (fillSecrets securedConfig) =
      some securedConfig := by
  have hfits : securedConfig.Fits :=
    ⟨by decide, by decide, by decide, by decide, by decide, by decide⟩
  exact (masked_config securedConfig).1 (by decide +kernel) hfits (by decide +kernel)

/-! ## A text that is too long -/

/-- How the text of a configuration goes on after its brace. -/
def addressFront : List Char :=
  '"' :: (writeChars "server".toList ++ (':' :: '{' :: '"' ::
    (writeChars "listenAddress".toList ++ [':', '"'])))

theorem write_obj (key : List Char) (v : Json) (rest : List (List Char × Json)) :
    (Json.obj ((key, v) :: rest)).write =
      '{' :: '"' :: (writeChars key ++ (':' :: (v.write ++ Json.writeFields false rest))) := by
  rw [Json.write, Json.writeFields, if_pos rfl, List.nil_append]

theorem write_front (c : Config) : ∃ back, c.toJson.write =
    '{' :: (addressFront ++ (c.server.listenAddress.toList.flatMap escapeChar ++ back)) := by
  have hserver : writtenFields ServerConfig.fields c.server =
      ("listenAddress".toList, .str c.server.listenAddress.toList) ::
        writtenFields ServerConfig.fields.tail c.server := writtenFields_cons rfl
  have hconfig : writtenFields Config.fields c =
      ("server".toList, encodeStruct ServerConfig.fields c.server) ::
        writtenFields Config.fields.tail c := writtenFields_cons rfl
  generalize hserverRest : writtenFields ServerConfig.fields.tail c.server = serverRest at hserver
  generalize hconfigRest : writtenFields Config.fields.tail c = configRest at hconfig
  refine ⟨'"' :: (Json.writeFields false serverRest ++ Json.writeFields false configRest), ?_⟩
  rw [Config.toJson, encodeStruct, hconfig, write_obj, encodeStruct, hserver, write_obj, Json.write,
    addressFront]
  generalize writeChars "server".toList = server
  generalize writeChars "listenAddress".toList = listenAddress
  simp only [writeChars, List.append_assoc, List.cons_append, List.nil_append]

theorem addressConfig_valid (n : Nat) : (addressConfig n).validate = none := by
  have hsame : (addressConfig n).validate = (addressConfig 0).validate := rfl
  rw [hsame]
  decide +kernel

theorem addressConfig_fits (n : Nat) : (addressConfig n).Fits := by
  have h : (addressConfig 0).Fits :=
    ⟨by decide, by decide, by decide, by decide, by decide, by decide⟩
  exact ⟨h.sessionHours, h.retentionDays, h.maxFileSizeMB, h.configBackupRetentionDays,
    h.sampleIntervalSeconds, h.historyPoints⟩

theorem utf8_letters (n : Nat) : utf8 (List.replicate n 'a') = List.replicate n 97 := by
  induction n with
  | zero => rfl
  | succ n ih =>
      rw [List.replicate_succ, List.replicate_succ, ← ih]
      rfl

theorem take_run {α : Type} (front back : List α) (x : α) {limit n : Nat}
    (hfront : front.length ≤ limit) (hn : limit ≤ n) :
    (front ++ (List.replicate n x ++ back)).take limit =
      front ++ List.replicate (limit - front.length) x := by
  rw [List.take_append, List.take_of_length_le hfront, List.take_append_of_le_length,
    List.take_replicate, Nat.min_eq_left]
  · omega
  · rw [List.length_replicate]
    omega

/-- The limit cuts the text within the address. -/
theorem decodeConfig_cut {n : Nat} (hn : bodyLimit ≤ n) :
    decodeConfig (getConfig (addressConfig n)) = none := by
  obtain ⟨back, hback⟩ := write_front (maskConfig (addressConfig n))
  have haddress : (maskConfig (addressConfig n)).server.listenAddress.toList.flatMap escapeChar =
      List.replicate n 'a' := by
    show (String.ofList (List.replicate n 'a')).toList.flatMap escapeChar = _
    rw [String.toList_ofList]
    exact Json.escape_plain (by simp [plainPrinted]) (by simp [htmlSpecial])
  rw [haddress] at hback
  obtain ⟨k, hk⟩ : ∃ k, (utf8 ('{' :: addressFront)).length = k := ⟨_, rfl⟩
  have hcut : (getConfig (addressConfig n)).take bodyLimit =
      utf8 ('{' :: (addressFront ++ List.replicate (bodyLimit - k) 'a')) := by
    have happend : ∀ s t : List Char, utf8 (s ++ t) = utf8 s ++ utf8 t := fun s t =>
      List.flatMap_append ..
    have htext : getConfig (addressConfig n) = utf8 ('{' :: addressFront) ++
        (List.replicate n 97 ++ utf8 (back ++ ['\n'])) := by
      rw [getConfig, hback, ← utf8_letters, ← happend, ← happend]
      simp
    have hshort : (utf8 ('{' :: addressFront)).length ≤ bodyLimit := by decide
    rw [htext, take_run _ _ _ hshort hn, hk, ← utf8_letters, ← happend]
    rfl
  have hopen : '}' ∉ addressFront ++ List.replicate (bodyLimit - k) 'a' := by
    rw [List.mem_append, List.mem_replicate]
    rintro (hfront | ⟨-, hletter⟩)
    · revert hfront
      decide
    · cases hletter
  simp only [decodeConfig_eq, hcut, runes_utf8, Json.readValue_unclosed hopen, Option.bind_none]

/-- A configuration that is valid and too long to be sent back. -/
theorem masked_config_cut :
    let cfg := addressConfig bodyLimit
    cfg.validate = none ∧ cfg.Fits ∧ (decodeConfig (getConfig cfg)).map (fillSecrets cfg) = none := by
  intro cfg
  refine ⟨addressConfig_valid bodyLimit, addressConfig_fits bodyLimit, ?_⟩
  rw [decodeConfig_cut (Nat.le_refl bodyLimit)]
  rfl

end KafkaManager.Api
