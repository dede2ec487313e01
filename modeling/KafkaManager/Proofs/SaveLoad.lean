import KafkaManager.Config.Load

/-!
# What is saved and what is loaded

`putConfig` stores `marshal c` and keeps `c`. A restart loads the file and
decrypts. Of the valid configurations without line breaks in their values, the
two agree on those that have no `${NAME}` in a value and no password that looks
encrypted (`Plain`), and on no other. A comment may land inside a value with
line breaks, and what the package reads then is not documented.

The first half is bookkeeping: comments put into a text without references
make none, so nothing is expanded. The second half needs an environment that
tells a text with references from one without and that `Load` still accepts.
Giving each variable its own reference with a letter behind it does both: the
expanded text is the encoding of the configuration with that letter written
into its values, which is as valid as the one saved, and is another one.

`Documented` collects what is used of the YAML package for one configuration.
-/

namespace KafkaManager

open Lib

/-! ## Rewriting the values of a configuration -/

def mapText (f : List Char → List Char) (s : String) : String := String.ofList (f s.toList)

def SecurityConfig.mapStrings (f : List Char → List Char) (s : SecurityConfig) : SecurityConfig where
  protocol := mapText f s.protocol
  mechanism := mapText f s.mechanism
  username := mapText f s.username
  password := mapText f s.password
  tls := s.tls

def ClusterConfig.mapStrings (f : List Char → List Char) (c : ClusterConfig) : ClusterConfig where
  id := mapText f c.id
  name := mapText f c.name
  brokers := c.brokers.map (mapText f)
  enabled := c.enabled
  readOnly := c.readOnly
  security := c.security.mapStrings f

/-- The configuration with `f` applied to every string value. -/
def Config.mapStrings (f : List Char → List Char) (c : Config) : Config where
  server :=
    { listenAddress := mapText f c.server.listenAddress
      username := mapText f c.server.username
      password := mapText f c.server.password
      passwordHash := mapText f c.server.passwordHash
      sessionHours := c.server.sessionHours }
  clusters := c.clusters.map (ClusterConfig.mapStrings f)
  audit := { c.audit with directory := mapText f c.audit.directory }
  dashboard := c.dashboard

def ClusterConfig.strings (c : ClusterConfig) : List String :=
  [c.id, c.name, c.security.protocol, c.security.mechanism, c.security.username,
    c.security.password] ++ c.brokers

/-- The string values of a configuration. -/
def Config.strings (c : Config) : List String :=
  [c.server.listenAddress, c.server.username, c.server.password, c.server.passwordHash,
    c.audit.directory] ++ c.clusters.flatMap ClusterConfig.strings

/-- No value has a line break. -/
def Config.OneLine (c : Config) : Prop := ∀ s ∈ c.strings, '\n' ∉ s.toList

@[simp] theorem toList_mapText (f : List Char → List Char) (s : String) :
    (mapText f s).toList = f s.toList := String.toList_ofList

theorem mapText_eq_iff {f : List Char → List Char} {s : String} :
    mapText f s = s ↔ f s.toList = s.toList := by
  rw [← String.toList_inj, toList_mapText]

theorem ClusterConfig.mapStrings_eq {f : List Char → List Char} {c : ClusterConfig} :
    c.mapStrings f = c ↔ ∀ s ∈ c.strings, mapText f s = s := by
  obtain ⟨id, name, brokers, enabled, readOnly, protocol, mechanism, username, password, tls⟩ := c
  have hbrokers : brokers.map (mapText f) = brokers ↔ ∀ s ∈ brokers, mapText f s = s := by
    conv => lhs; rhs; rw [← List.map_id brokers]
    rw [List.map_inj_left]
    rfl
  simp only [ClusterConfig.mapStrings, SecurityConfig.mapStrings, ClusterConfig.strings,
    ClusterConfig.mk.injEq, SecurityConfig.mk.injEq, hbrokers, List.mem_append, List.mem_cons,
    List.not_mem_nil, or_false, or_imp, forall_and, forall_eq, and_true, true_and]
  tauto

theorem Config.mapStrings_eq {f : List Char → List Char} {c : Config} :
    c.mapStrings f = c ↔ ∀ s ∈ c.strings, mapText f s = s := by
  obtain ⟨⟨listen, user, pass, hash, hours⟩, clusters, ⟨en, dir, ret, size, bak⟩, dash⟩ := c
  have hclusters : clusters.map (ClusterConfig.mapStrings f) = clusters ↔
      ∀ s ∈ clusters.flatMap ClusterConfig.strings, mapText f s = s := by
    conv => lhs; rhs; rw [← List.map_id clusters]
    rw [List.map_inj_left]
    simp only [id, ClusterConfig.mapStrings_eq, List.mem_flatMap]
    exact ⟨fun h s ⟨c, hc, hs⟩ => h c hc s hs, fun h c hc s hs => h s ⟨c, hc, hs⟩⟩
  simp only [Config.mapStrings, Config.strings, Config.mk.injEq, ServerConfig.mk.injEq,
    AuditConfig.mk.injEq, hclusters, List.mem_append, List.mem_cons, List.not_mem_nil, or_false,
    or_imp, forall_and, forall_eq, and_true, true_and]
  tauto

theorem plainLiteral {s : String} {l : List Char} (h : s = String.ofList l) (hl : '$' ∉ l) :
    '$' ∉ s.toList := by
  rw [toList_eq h]
  exact hl

/-- The error about the rewritten configuration. -/
def ClusterError.mapStrings (f : List Char → List Char) : ClusterError → ClusterError
  | .mechanismUnsupported m => .mechanismUnsupported (mapText f m)
  | .protocolUnsupported p => .protocolUnsupported (mapText f p)
  | e => e

/-- A rewriting of values that validation does not notice. -/
structure Transparent (f : List Char → List Char) : Prop where
  injective : Function.Injective f
  plain : ∀ s, '$' ∉ s → f s = s
  blank : ∀ s, (f s).all isSpace = s.all isSpace

namespace Transparent

variable {f : List Char → List Char} (h : Transparent f)

include h

theorem isBlank (s : String) : isBlank (mapText f s) = Lib.isBlank s := by
  rw [Lib.isBlank, toList_mapText, h.blank]
  rfl

theorem eq_iff (s lit : String) (hlit : '$' ∉ lit.toList) :
    mapText f s = lit ↔ s = lit := by
  have hfix : mapText f lit = lit := mapText_eq_iff.2 (h.plain _ hlit)
  constructor
  · intro heq
    have hl : f s.toList = f lit.toList := by
      rw [← toList_mapText f s, ← toList_mapText f lit, heq, hfix]
    exact String.toList_inj.1 (h.injective hl)
  · rintro rfl
    exact hfix

theorem mapText_injective : Function.Injective (mapText f) := by
  intro s t heq
  have hl : f s.toList = f t.toList := by
    rw [← toList_mapText f s, ← toList_mapText f t, heq]
  exact String.toList_inj.1 (h.injective hl)

theorem validateCluster (c : ClusterConfig) :
    KafkaManager.validateCluster (c.mapStrings f) =
      (KafkaManager.validateCluster c).map (ClusterError.mapStrings f) := by
  have hany : (c.brokers.map (mapText f)).any Lib.isBlank = c.brokers.any Lib.isBlank := by
    rw [List.any_map]
    congr 1
    exact funext h.isBlank
  have hempty : (c.brokers.map (mapText f)).isEmpty = c.brokers.isEmpty := by
    cases c.brokers <;> rfl
  unfold KafkaManager.validateCluster
  simp only [ClusterConfig.mapStrings, SecurityConfig.mapStrings, h.isBlank, hany, hempty,
    h.eq_iff c.security.protocol "" (plainLiteral rfl (by decide)),
    h.eq_iff c.security.mechanism "" (plainLiteral rfl (by decide)),
    h.eq_iff c.security.mechanism "PLAIN" (plainLiteral rfl (by decide)),
    h.eq_iff c.security.mechanism "SCRAM-SHA-256" (plainLiteral rfl (by decide)),
    h.eq_iff c.security.mechanism "SCRAM-SHA-512" (plainLiteral rfl (by decide)),
    h.eq_iff c.security.username "" (plainLiteral rfl (by decide)),
    apply_ite (Option.map (ClusterError.mapStrings f)), Option.map_some, Option.map_none]
  by_cases hp : c.security.protocol = ""
  · simp only [hp, if_true, true_or]
    rfl
  · simp only [if_neg hp,
      h.eq_iff c.security.protocol "PLAINTEXT" (plainLiteral rfl (by decide)),
      h.eq_iff c.security.protocol "SSL" (plainLiteral rfl (by decide)),
      h.eq_iff c.security.protocol "SASL_PLAINTEXT" (plainLiteral rfl (by decide)),
      h.eq_iff c.security.protocol "SASL_SSL" (plainLiteral rfl (by decide))]
    rfl

theorem validateClusters {i : Nat} {seen : List String} {clusters : List ClusterConfig}
    (hc : validateClusters i seen clusters = none) :
    KafkaManager.validateClusters i (seen.map (mapText f))
      (clusters.map (ClusterConfig.mapStrings f)) = none := by
  induction clusters generalizing i seen with
  | nil => rfl
  | cons c rest ih =>
      rw [KafkaManager.validateClusters] at hc
      split at hc
      · exact absurd hc (by simp)
      · next hv =>
          split at hc
          · exact absurd hc (by simp)
          · next hnew =>
              have hnew' : (c.mapStrings f).id ∉ seen.map (mapText f) := by
                intro hmem
                obtain ⟨id, hid, heq⟩ := List.mem_map.1 hmem
                obtain rfl := h.mapText_injective heq
                exact hnew hid
              rw [List.map_cons, KafkaManager.validateClusters, h.validateCluster, hv]
              simp only [Option.map_none]
              rw [if_neg hnew']
              exact ih hc

theorem validate {c : Config} (hc : c.validate = none) : (c.mapStrings f).validate = none := by
  have hempty : (c.clusters.map (ClusterConfig.mapStrings f)).isEmpty = c.clusters.isEmpty := by
    cases c.clusters <;> rfl
  have hpassword := h.eq_iff c.server.password "" (plainLiteral rfl (by decide))
  unfold Config.validate at hc ⊢
  simp only [Config.mapStrings, h.isBlank, hempty, hpassword] at hc ⊢
  cases hv : KafkaManager.validateClusters 0 [] c.clusters with
  | some e =>
      rw [hv] at hc
      exact absurd hc (by simp only; split <;> [skip; split <;> [skip; split]] <;> simp)
  | none =>
      have hv' := h.validateClusters hv
      rw [List.map_nil] at hv'
      rw [hv] at hc
      rw [hv']
      exact hc

end Transparent

/-- The probe is not noticed: a letter behind a reference leaves what is blank
blank and what is distinct distinct. -/
theorem transparent_suffixed {w : List Char → List Char} :
    Transparent (Refs.expand (Refs.suffixed w)) where
  injective := Refs.expand_suffixed_injective w
  plain := fun _ => Refs.expand_of_plain _
  blank := by
    intro s
    induction s using Refs.token_induction with
    | nil => rfl
    | char c rest hc ih =>
        rw [Refs.expand_char _ hc, List.all_cons, List.all_cons, ih]
    | ref name rest hn ih =>
        rw [Refs.expand_ref _ hn]
        have hdollar : isSpace '$' = false := by decide
        simp [Refs.suffixed, Refs.refText, hdollar]

/-! ## Comment lines -/

/-- The comments `marshal` writes. -/
def IsNote (note : List Char) : Prop :=
  note = header ∨ note = clustersNote ∨ note = auditNote ∨ note = dashboardNote

/-- The lines it writes them before. -/
def IsKey (key : List Char) : Prop :=
  key = clustersKey ∨ key = auditKey ∨ key = dashboardKey

theorem hashLiteral {s : String} {l : List Char} (h : s = String.ofList ('#' :: l)) :
    s.toList.head? = some '#' := by
  rw [toList_eq h]
  rfl

set_option maxRecDepth 2000 in
theorem IsNote.hash {note : List Char} (h : IsNote note) : note.head? = some '#' := by
  rcases h with h | h | h | h
  · rw [h]
    exact hashLiteral rfl
  · rw [h]
    exact hashLiteral rfl
  · rw [h]
    exact hashLiteral rfl
  · rw [h]
    exact hashLiteral rfl

set_option maxRecDepth 2000 in
theorem IsNote.plain {note : List Char} (h : IsNote note) : '$' ∉ note := by
  rcases h with h | h | h | h
  · rw [h]
    exact plainLiteral rfl (by decide)
  · rw [h]
    exact plainLiteral rfl (by decide)
  · rw [h]
    exact plainLiteral rfl (by decide)
  · rw [h]
    exact plainLiteral rfl (by decide)

theorem IsKey.plain {key : List Char} (h : IsKey key) : '$' ∉ key := by
  rcases h with h | h | h
  · rw [h]
    exact plainLiteral rfl (by decide)
  · rw [h]
    exact plainLiteral rfl (by decide)
  · rw [h]
    exact plainLiteral rfl (by decide)

/-- `text` with some of the comments put in, each at the beginning or before
the line of a section key. -/
inductive Annotated (text : List Char) : List Char → Prop
  | refl : Annotated text text
  | insert {x note y : List Char} (h : Annotated text (x ++ y)) (hx : Refs.EndsLine x)
      (hnote : IsNote note) (hy : x = [] ∨ ∃ key, IsKey key ∧ key <+: y) :
      Annotated text (x ++ (note ++ y))

/-- `key` is first found at the beginning of a line. -/
def AlignedAt (text key : List Char) : Prop :=
  ∀ x y, cut key text = some (x, y) → Refs.EndsLine x

/-- Each comment of `marshal` is put before a line. -/
def Aligned (text : List Char) : Prop :=
  let text₁ := replaceSection text clustersKey clustersNote
  let text₂ := replaceSection text₁ auditKey auditNote
  AlignedAt text clustersKey ∧ AlignedAt text₁ auditKey ∧ AlignedAt text₂ dashboardKey

theorem Annotated.replaceSection {text t key note : List Char} (h : Annotated text t)
    (hkey : IsKey key) (hnote : IsNote note) (ha : AlignedAt t key) :
    Annotated text (replaceSection t key note) := by
  unfold KafkaManager.replaceSection replaceFirst
  split
  · next x y hcut =>
      rw [eq_of_cut hcut] at h
      rw [List.append_assoc]
      exact .insert h (ha x y hcut) hnote (Or.inr ⟨key, hkey, List.prefix_append ..⟩)
  · exact h

theorem annotated_annotate {text : List Char} (h : Aligned text) :
    Annotated text (annotate text) := by
  obtain ⟨h₁, h₂, h₃⟩ := h
  have hclusters := (Annotated.refl : Annotated text text).replaceSection (.inl rfl)
    (.inr (.inl rfl)) h₁
  have haudit := hclusters.replaceSection (.inr (.inl rfl)) (.inr (.inr (.inl rfl))) h₂
  have hdashboard := haudit.replaceSection (.inr (.inr rfl)) (.inr (.inr (.inr rfl))) h₃
  have hheader := Annotated.insert (x := []) hdashboard (.inl rfl) (.inl rfl) (.inl rfl)
  rw [List.nil_append] at hheader
  exact hheader

/-- Expansion leaves the comments where they are. -/
theorem Annotated.expand {text t : List Char} (h : Annotated text t)
    (value : List Char → List Char) :
    Annotated (Refs.expand value text) (Refs.expand value t) := by
  induction h with
  | refl => exact .refl
  | @insert x note y h hx hnote hy ih =>
      rw [Refs.expand_append value hx] at ih
      rw [Refs.expand_append value hx, Refs.expand_append_of_plain value hnote.plain]
      refine .insert ih (hx.expand value) hnote ?_
      rcases hy with rfl | ⟨key, hkey, z, rfl⟩
      · exact Or.inl rfl
      · refine Or.inr ⟨key, hkey, ?_⟩
        rw [Refs.expand_append_of_plain value hkey.plain]
        exact List.prefix_append ..

/-- The comments bring no references with them. -/
theorem names_replaceSection {t note : List Char} (key : List Char) (h : Refs.names t = [])
    (hnote : IsNote note) : Refs.names (replaceSection t key note) = [] := by
  unfold replaceSection replaceFirst
  split
  · next x y hcut =>
      rw [eq_of_cut hcut] at h
      rw [List.append_assoc]
      exact Refs.names_insert h hnote.hash hnote.plain
  · exact h

theorem names_annotate {text : List Char} (h : Refs.names text = []) :
    Refs.names (annotate text) = [] := by
  unfold annotate
  rw [Refs.names_append_of_plain (IsNote.plain (.inl rfl))]
  have hclusters := names_replaceSection clustersKey h (.inr (.inl rfl))
  have haudit := names_replaceSection auditKey hclusters (.inr (.inr (.inl rfl)))
  exact names_replaceSection dashboardKey haudit (.inr (.inr (.inr rfl)))

/-! ## The YAML package -/

/-- Every letter of these suffixes is an ordinary character of a value. -/
def Letters (w : List Char → List Char) : Prop :=
  ∀ name, ∀ c ∈ w name, ('a' ≤ c ∧ c ≤ 'z') ∨ ('A' ≤ c ∧ c ≤ 'Z')

/-- What is used of the YAML package for a configuration `c` that it encodes
as `text`, and for `c` with letters written behind the references in its
values: it writes the values' ordinary characters as they are; it decodes what
it encodes, with or without comment lines before section keys; and a section
key is found inside a value only if that value has a line break. -/
structure Yaml.Documented (yaml : Yaml) (c : Config) (text : List Char) : Prop where
  emits : ∀ w, Letters w → yaml.encode (c.mapStrings (Refs.expand (Refs.suffixed w))) =
    some (Refs.expand (Refs.suffixed w) text)
  reads : ∀ w, Letters w → ∀ t, Annotated (Refs.expand (Refs.suffixed w) text) t →
    yaml.decode defaultConfig t = some (c.mapStrings (Refs.expand (Refs.suffixed w)))
  aligned : c.OneLine → Aligned text

theorem letters_nil : Letters fun _ => [] := fun _ c hc => absurd hc (by simp)

theorem letters_z : Letters fun _ => ['z'] := by
  intro _ c hc
  rw [List.mem_singleton.1 hc]
  exact Or.inl (by decide)

theorem mapStrings_suffixed_nil (c : Config) :
    c.mapStrings (Refs.expand (Refs.suffixed fun _ => [])) = c :=
  Config.mapStrings_eq.2 fun _ _ => mapText_eq_iff.2 (Refs.expand_suffixed_nil _)

/-- A configuration is unchanged by letters behind its references exactly if
it has none. -/
theorem mapStrings_suffixed_z {c : Config} :
    c.mapStrings (Refs.expand (Refs.suffixed fun _ => ['z'])) = c ↔
      ∀ s ∈ c.strings, Refs.names s.toList = [] := by
  rw [Config.mapStrings_eq]
  constructor
  · intro h s hs
    exact Refs.names_nil_of_expand_suffixed _ (by simp) (mapText_eq_iff.1 (h s hs))
  · intro h s hs
    exact mapText_eq_iff.2 (Refs.expand_of_names_nil _ (h s hs))

namespace Yaml.Documented

variable {yaml : Yaml} {c : Config} {text : List Char} (h : yaml.Documented c text)

include h

theorem encode : yaml.encode c = some text := by
  have hnil := h.emits _ letters_nil
  rwa [mapStrings_suffixed_nil, Refs.expand_suffixed_nil] at hnil

theorem marshal : marshal yaml c = some (annotate text) := by
  rw [KafkaManager.marshal, h.encode]
  rfl

theorem names_nil (hrefs : ∀ s ∈ c.strings, Refs.names s.toList = []) : Refs.names text = [] := by
  have hz := h.emits _ letters_z
  rw [mapStrings_suffixed_z.2 hrefs, h.encode] at hz
  exact Refs.names_nil_of_expand_suffixed (fun _ => ['z']) (by simp) (Option.some.inj hz).symm

theorem decode_annotate (ha : Aligned text) :
    yaml.decode defaultConfig (annotate text) = some c := by
  have hreads := h.reads _ letters_nil (annotate text)
  rw [Refs.expand_suffixed_nil, mapStrings_suffixed_nil] at hreads
  exact hreads (annotated_annotate ha)

/-- `Load` in an environment where each variable is its own reference with
letters behind it. -/
theorem load_suffixed (hc : c.validate = none) (ha : Aligned text) {w : List Char → List Char}
    (hw : Letters w) :
    load yaml (fun name => some (Refs.suffixed w name)) (annotate text) =
      .ok (c.mapStrings (Refs.expand (Refs.suffixed w))) := by
  have hdecode := h.reads w hw _ ((annotated_annotate ha).expand (Refs.suffixed w))
  exact load_eq (fun _ _ => rfl) hdecode ((transparent_suffixed (w := w)).validate hc)

end Yaml.Documented

/-! ## Decryption -/

theorem runtimeClusters_of_clear {gcm : Gcm} {key : List UInt8} {clusters : List ClusterConfig}
    (h : ∀ c ∈ clusters, c.InClear) : runtimeClusters gcm key clusters = .ok clusters := by
  induction clusters with
  | nil => rfl
  | cons c rest ih =>
      rw [runtimeClusters, decrypt_of_clear (h c (by simp)), ih fun d hd => h d (by simp [hd])]
      simp [String.ofList_toList]

theorem runtimeClusters_clear {gcm : Gcm} {key : List UInt8} {clusters : List ClusterConfig}
    (h : runtimeClusters gcm key clusters = .ok clusters) : ∀ c ∈ clusters, c.InClear := by
  induction clusters with
  | nil => simp
  | cons c rest ih =>
      rw [runtimeClusters] at h
      split at h
      · exact absurd h (by simp)
      · next password hdec =>
          split at h
          · exact absurd h (by simp)
          · next rest' hrest =>
              obtain ⟨hhead, rfl⟩ := List.cons.inj (Except.ok.inj h)
              have hpassword : String.ofList password = c.security.password :=
                congrArg (fun cl : ClusterConfig => cl.security.password) hhead
              intro d hd
              rcases List.mem_cons.1 hd with rfl | hd
              · intro hp
                refine decrypt_ne_self gcm key hp ?_
                rw [hdec, ← hpassword, String.toList_ofList]
              · exact ih hrest d hd

/-- `Runtime` changes passwords in clear not at all, and any other. -/
theorem runtime_eq_self {gcm : Gcm} {key : List UInt8} {c : Config} :
    runtime gcm c key = .ok c ↔ ∀ cl ∈ c.clusters, cl.InClear := by
  constructor
  · intro h
    unfold runtime at h
    split at h
    · exact absurd h (by simp)
    · next clusters hclusters =>
        have heq : clusters = c.clusters := by
          have hc := Except.ok.inj h
          rw [← hc]
        subst heq
        exact runtimeClusters_clear hclusters
  · intro h
    rw [runtime, runtimeClusters_of_clear h]

theorem inClear_suffixed {w : List Char → List Char} {c : ClusterConfig} :
    (c.mapStrings (Refs.expand (Refs.suffixed w))).InClear ↔ c.InClear := by
  have hpassword := toList_mapText (Refs.expand (Refs.suffixed w)) c.security.password
  unfold ClusterConfig.InClear
  rw [show (c.mapStrings (Refs.expand (Refs.suffixed w))).security.password.toList = _
    from hpassword, Refs.prefix_expand_suffixed w (by decide)]

/-! ## The two compared -/

/-- No value has a reference in it and no cluster password looks encrypted. -/
structure Config.Plain (c : Config) : Prop where
  noRefs : ∀ s ∈ c.strings, Refs.names s.toList = []
  inClear : ∀ cl ∈ c.clusters, cl.InClear

/-- `putConfig` has `data` to save for `c`, and `Save` accepts it. -/
def Stored (yaml : Yaml) (env : Environment) (c : Config) (data : List Char) : Prop :=
  marshal yaml c = some data ∧ ∃ loaded, load yaml env data = .ok loaded

/-- In every environment and with every key, a restart after `putConfig`
stored `c` comes up with `c`. -/
def SavedIsLoaded (yaml : Yaml) (gcm : Gcm) (c : Config) : Prop :=
  ∀ env key data, Stored yaml env c data →
    ∃ loaded, load yaml env data = .ok loaded ∧ runtime gcm loaded key = .ok c

namespace Yaml.Documented

variable {yaml : Yaml} {gcm : Gcm} {c : Config} {text : List Char} (h : yaml.Documented c text)

include h

/-- Nothing is expanded and nothing is decrypted. -/
theorem saved_of_plain (hline : c.OneLine) (hplain : c.Plain) : SavedIsLoaded yaml gcm c := by
  intro env key data ⟨hdata, loaded, hload⟩
  rw [h.marshal] at hdata
  obtain rfl := Option.some.inj hdata
  have hnames := names_annotate (h.names_nil hplain.noRefs)
  have hdecode := (load_ok hload).1
  rw [Refs.expand_of_names_nil _ hnames, h.decode_annotate (h.aligned hline)] at hdecode
  obtain rfl := Option.some.inj hdecode
  exact ⟨c, hload, runtime_eq_self.2 hplain.inClear⟩

/-- The probe is stored and loaded, so it must come back as `c`. -/
theorem suffixed_loaded (hc : c.validate = none) (ha : Aligned text)
    (hsaved : SavedIsLoaded yaml gcm c) {w : List Char → List Char} (hw : Letters w) :
    runtime gcm (c.mapStrings (Refs.expand (Refs.suffixed w))) [] = .ok c := by
  have hload := h.load_suffixed hc ha hw
  obtain ⟨loaded, hloaded, hruntime⟩ := hsaved _ [] _ ⟨h.marshal, _, hload⟩
  rw [hload] at hloaded
  obtain rfl := Except.ok.inj hloaded
  exact hruntime

theorem plain_of_saved (hc : c.validate = none) (hline : c.OneLine)
    (hsaved : SavedIsLoaded yaml gcm c) : c.Plain := by
  have ha := h.aligned hline
  have hclear : ∀ cl ∈ c.clusters, cl.InClear := by
    have hself := h.suffixed_loaded hc ha hsaved letters_nil
    rw [mapStrings_suffixed_nil] at hself
    exact runtime_eq_self.1 hself
  refine ⟨?_, hclear⟩
  -- Its passwords do not look encrypted either.
  have hclear' : ∀ cl ∈ (c.mapStrings (Refs.expand (Refs.suffixed fun _ => ['z']))).clusters,
      cl.InClear := by
    intro cl hcl
    obtain ⟨cl, hmem, rfl⟩ := List.mem_map.1 hcl
    exact inClear_suffixed.2 (hclear cl hmem)
  have hz := h.suffixed_loaded hc ha hsaved letters_z
  rw [runtime_eq_self.2 hclear'] at hz
  exact mapStrings_suffixed_z.1 (Except.ok.inj hz)

end Yaml.Documented

/-- What the Web saves is what a restart loads, for the plain configurations and
no others, if no value has a line break. -/
theorem saved_is_loaded (yaml : Yaml) (gcm : Gcm) (c : Config) (text : List Char)
    (hc : c.validate = none) (hline : c.OneLine) (hy : yaml.Documented c text) :
    SavedIsLoaded yaml gcm c ↔ c.Plain :=
  ⟨hy.plain_of_saved hc hline, hy.saved_of_plain hline⟩

/-! ## A configuration and its text

What the package writes for one cluster, as a function of the cluster's
password. -/

def beforePassword : List Char :=
  "server:
  listenAddress: :8080
  username: admin
  password: admin
  sessionHours: 12
clusters:
  - id: a
    name: a
    brokers:
      - k1:9092
    security:
      protocol: PLAINTEXT
      password: ".toList

def afterPassword : List Char :=
  "audit:
  directory: ./data/audit
  retentionDays: 30
  maxFileSizeMB: 50
  configBackupRetentionDays: 30
dashboard:
  sampleIntervalSeconds: 15
  historyPoints: 240
".toList

def passwordText (password : List Char) : List Char :=
  beforePassword ++ (password ++ '\n' :: afterPassword)

def passwordConfig (password : List Char) : Config :=
  { defaultConfig with
    server := { defaultConfig.server with username := "admin", password := "admin" }
    clusters :=
      [{ plainCluster "a" "k1:9092" with
          security :=
            { protocol := "PLAINTEXT", mechanism := "", username := ""
              password := String.ofList password, tls := false } }] }

/-- What is known of the line a character stands in. -/
inductive Line
  | start
  | kept
  | dropped
deriving DecidableEq

def Line.next (line : Line) (c : Char) : Line :=
  if c = '\n' then .start
  else if line = .start then (if c = '#' then .dropped else .kept) else line

def Line.keeps (line : Line) (c : Char) : Bool :=
  if c = '\n' then line == .kept else line.next c == .kept

/-- A text without its comment lines and empty lines. -/
def dropNotes : Line → List Char → List Char
  | _, [] => []
  | line, c :: rest =>
      if line.keeps c then c :: dropNotes (line.next c) rest else dropNotes (line.next c) rest

/-- The YAML package on this configuration. -/
def passwordYaml : Yaml where
  encode c :=
    match c.clusters with
    | [cl] =>
        let password := cl.security.password.toList
        if c = passwordConfig password then some (passwordText password) else none
    | _ => none
  decode _ t :=
    let body := dropNotes .start t
    let password := (body.drop beforePassword.length).take
      (body.length - beforePassword.length - (afterPassword.length + 1))
    if body = passwordText password then some (passwordConfig password) else none

theorem dropNotes_append (line : Line) (x y : List Char) :
    dropNotes line (x ++ y) = dropNotes line x ++ dropNotes (x.foldl Line.next line) y := by
  induction x generalizing line with
  | nil => rfl
  | cons c rest ih =>
      rw [List.cons_append, dropNotes, dropNotes, ih, List.foldl_cons]
      split
      · rfl
      · rfl

theorem foldl_next_endsLine {x : List Char} (h : Refs.EndsLine x) :
    x.foldl Line.next .start = .start := by
  rcases h with rfl | ⟨x', rfl⟩
  · rfl
  · rw [List.foldl_append]
    rfl

set_option maxRecDepth 2000 in
theorem IsNote.dropped {note : List Char} (h : IsNote note) :
    dropNotes .start note = [] ∧ note.foldl Line.next .start = .start := by
  rcases h with h | h | h | h
  · rw [h, show header = _ from toList_eq rfl]
    decide
  · rw [h, show clustersNote = _ from toList_eq rfl]
    decide
  · rw [h, show auditNote = _ from toList_eq rfl]
    decide
  · rw [h, show dashboardNote = _ from toList_eq rfl]
    decide

theorem Annotated.dropNotes {text t : List Char} (h : Annotated text t) :
    dropNotes .start t = KafkaManager.dropNotes .start text := by
  induction h with
  | refl => rfl
  | insert h hx hnote hy ih =>
      rw [dropNotes_append, foldl_next_endsLine hx] at ih
      rw [dropNotes_append, foldl_next_endsLine hx, dropNotes_append, hnote.dropped.1,
        hnote.dropped.2]
      exact ih

/-- The comments bring no names with them. -/
theorem Annotated.names {text t : List Char} (h : Annotated text t) :
    Refs.names t = Refs.names text := by
  induction h with
  | refl => rfl
  | insert h hx hnote hy ih =>
      rw [← ih]
      unfold Refs.names
      rw [Refs.tokens_append hx, Refs.tokens_append hx, Refs.tokens_append_of_plain hnote.plain,
        List.filterMap_append, List.filterMap_append, List.filterMap_append]
      simp

set_option maxRecDepth 2000 in
theorem beforePassword_plain : '$' ∉ beforePassword ∧
    dropNotes .start beforePassword = beforePassword ∧
      beforePassword.foldl Line.next .start = .kept := by
  rw [show beforePassword = _ from toList_eq rfl]
  decide

set_option maxRecDepth 2000 in
theorem afterPassword_plain : '$' ∉ afterPassword ∧
    dropNotes .start afterPassword = afterPassword := by
  rw [show afterPassword = _ from toList_eq rfl]
  decide

theorem dropNotes_passwordText {password : List Char} (h : '\n' ∉ password) :
    dropNotes .start (passwordText password) = passwordText password := by
  have hkept : dropNotes .kept (password ++ '\n' :: afterPassword) =
      password ++ '\n' :: afterPassword := by
    induction password with
    | nil =>
        have hkeeps : Line.keeps .kept '\n' = true := rfl
        have hnext : Line.next .kept '\n' = .start := rfl
        rw [List.nil_append, dropNotes, if_pos hkeeps, hnext, afterPassword_plain.2]
    | cons c rest ih =>
        have hc : c ≠ '\n' := fun hc => h (by simp [hc])
        have hnext : Line.next .kept c = .kept := by simp [Line.next, hc]
        have hkeeps : Line.keeps .kept c = true := by simp [Line.keeps, hnext]
        rw [List.cons_append, dropNotes, if_pos hkeeps, hnext, ih fun hm => h (by simp [hm])]
  obtain ⟨-, hbefore, hfold⟩ := beforePassword_plain
  rw [passwordText, dropNotes_append, hbefore, hfold, hkept]

/-- What is cut out between a beginning and an end of known lengths. -/
theorem take_between {α : Type} (x y z : List α) (c : α) :
    ((x ++ (y ++ c :: z)).drop x.length).take
      ((x ++ (y ++ c :: z)).length - x.length - (z.length + 1)) = y := by
  have hlen : (x ++ (y ++ c :: z)).length - x.length - (z.length + 1) = y.length := by
    simp only [List.length_append, List.length_cons]
    omega
  rw [hlen, List.drop_left, List.take_left]

theorem passwordYaml_decode {cfg : Config} {t password : List Char} (h : '\n' ∉ password)
    (ht : Annotated (passwordText password) t) :
    passwordYaml.decode cfg t = some (passwordConfig password) := by
  have hbody := ht.dropNotes.trans (dropNotes_passwordText h)
  have hpassword : ((passwordText password).drop beforePassword.length).take
      ((passwordText password).length - beforePassword.length - (afterPassword.length + 1)) =
        password := by
    rw [passwordText]
    exact take_between _ _ _ _
  unfold passwordYaml
  simp only [hbody]
  rw [hpassword, if_pos rfl]

theorem expand_passwordText (value : List Char → List Char) (password : List Char) :
    Refs.expand value (passwordText password) = passwordText (Refs.expand value password) := by
  have hsep : Refs.expand value (password ++ '\n' :: afterPassword) =
      Refs.expand value password ++ '\n' :: afterPassword := by
    have hafter := Refs.expand_of_plain value afterPassword_plain.1
    unfold Refs.expand at hafter ⊢
    rw [Refs.tokens_separator Refs.newline_separator, List.flatMap_append, List.flatMap_cons,
      hafter]
    rfl
  rw [passwordText, Refs.expand_append_of_plain value beforePassword_plain.1, hsep]
  rfl

theorem passwordConfig_mapStrings {f : List Char → List Char} (hf : ∀ s, '$' ∉ s → f s = s)
    (password : List Char) :
    (passwordConfig password).mapStrings f = passwordConfig (f password) := by
  have hfix : ∀ {s : String}, '$' ∉ s.toList → mapText f s = s := fun h => mapText_eq_iff.2 (hf _ h)
  have hpassword : mapText f (String.ofList password) = String.ofList (f password) := by
    rw [mapText, String.toList_ofList]
  unfold passwordConfig Config.mapStrings
  simp only [List.map_cons, List.map_nil, ClusterConfig.mapStrings, SecurityConfig.mapStrings,
    plainCluster, defaultConfig, hpassword,
    hfix (s := ":8080") (plainLiteral rfl (by decide)), hfix (s := "") (plainLiteral rfl (by decide)),
    hfix (s := "admin") (plainLiteral rfl (by decide)), hfix (s := "a") (plainLiteral rfl (by decide)),
    hfix (s := "k1:9092") (plainLiteral rfl (by decide)),
    hfix (s := "PLAINTEXT") (plainLiteral rfl (by decide)),
    hfix (s := "./data/audit") (plainLiteral rfl (by decide))]

theorem passwordYaml_encode (password : List Char) :
    passwordYaml.encode (passwordConfig password) = some (passwordText password) := by
  have hself : (String.ofList password).toList = password := String.toList_ofList
  show (if passwordConfig password = passwordConfig (String.ofList password).toList then
    some (passwordText (String.ofList password).toList) else none) = _
  rw [hself, if_pos rfl]

/-- Writing letters behind references starts no line. -/
theorem newline_expand_suffixed {w : List Char → List Char} (hw : Letters w) {s : List Char}
    (h : '\n' ∉ s) : '\n' ∉ Refs.expand (Refs.suffixed w) s := by
  induction s using Refs.token_induction with
  | nil => exact h
  | char c rest hc ih =>
      rw [Refs.expand_char _ hc]
      simp only [List.mem_cons, not_or] at h ⊢
      exact ⟨h.1, ih h.2⟩
  | ref name rest hn ih =>
      rw [Refs.expand_ref _ hn, Refs.suffixed]
      simp only [List.mem_append, not_or] at h ⊢
      refine ⟨⟨h.1, fun hmem => ?_⟩, ih h.2⟩
      rcases hw name _ hmem with ⟨hle, -⟩ | ⟨hle, -⟩
      · exact absurd hle (by decide)
      · exact absurd hle (by decide)

theorem passwordYaml_documented {password : List Char} (hline : '\n' ∉ password)
    (ha : Aligned (passwordText password)) :
    passwordYaml.Documented (passwordConfig password) (passwordText password) where
  emits := by
    intro w _
    rw [passwordConfig_mapStrings fun _ => Refs.expand_of_plain _, expand_passwordText]
    exact passwordYaml_encode _
  reads := by
    intro w hw t ht
    rw [expand_passwordText] at ht
    rw [passwordConfig_mapStrings fun _ => Refs.expand_of_plain _]
    exact passwordYaml_decode (newline_expand_suffixed hw hline) ht
  aligned := fun _ => ha

theorem passwordConfig_valid (password : List Char) : (passwordConfig password).validate = none := by
  have hadmin : isBlank "admin" = false := not_blank rfl (by decide)
  have ha : isBlank "a" = false := not_blank rfl (by decide)
  have hbroker : isBlank "k1:9092" = false := not_blank rfl (by decide)
  unfold passwordConfig Config.validate
  simp [defaultConfig, plainCluster, validateClusters, validateCluster, hadmin, ha, hbroker]

theorem passwordConfig_oneLine {password : List Char} (h : '\n' ∉ password) :
    (passwordConfig password).OneLine := by
  have hlit : ∀ {s : String} {l : List Char}, s = String.ofList l → '\n' ∉ l → '\n' ∉ s.toList := by
    intro s l hs hl
    rwa [toList_eq hs]
  unfold Config.OneLine passwordConfig Config.strings
  simp only [List.flatMap_cons, List.flatMap_nil, ClusterConfig.strings, plainCluster,
    defaultConfig, List.append_nil, List.cons_append, List.nil_append, List.forall_mem_cons]
  exact ⟨hlit rfl (by decide), hlit rfl (by decide), hlit rfl (by decide), hlit rfl (by decide),
    hlit rfl (by decide), hlit rfl (by decide), hlit rfl (by decide), hlit rfl (by decide),
    hlit rfl (by decide), hlit rfl (by decide), hlit rfl h, hlit rfl (by decide),
    fun _ hs => absurd hs List.not_mem_nil⟩

theorem passwordConfig_injective : Function.Injective passwordConfig := by
  intro s t h
  have hpassword := congrArg
    (fun c : Config => c.clusters.map fun cl => cl.security.password.toList) h
  simpa [passwordConfig, String.toList_ofList] using hpassword

theorem passwordConfig_inClear {password : List Char} (h : ¬ encryptedPrefix <+: password) :
    ∀ cl ∈ (passwordConfig password).clusters, cl.InClear := by
  intro cl hcl
  obtain rfl := List.mem_singleton.1 hcl
  unfold ClusterConfig.InClear
  rwa [show (String.ofList password).toList = password from String.toList_ofList]

theorem names_passwordText (password : List Char) :
    Refs.names (passwordText password) = Refs.names password := by
  rw [passwordText, Refs.names_append_of_plain beforePassword_plain.1]
  have hafter := Refs.names_append_of_plain afterPassword_plain.1 []
  rw [List.append_nil] at hafter
  unfold Refs.names at hafter ⊢
  rw [Refs.tokens_separator Refs.newline_separator, List.filterMap_append, List.filterMap_cons]
  simp only
  rw [hafter]
  exact List.append_nil _

/-- As `AlignedAt`, to be computed. -/
def alignedAt (text key : List Char) : Bool :=
  match cut key text with
  | some (x, _) => x.isEmpty || x.getLast? == some '\n'
  | none => true

theorem alignedAt_of {text key : List Char} (h : alignedAt text key = true) :
    AlignedAt text key := by
  intro x y hcut
  rw [alignedAt, hcut] at h
  simp only [Bool.or_eq_true, List.isEmpty_iff, beq_iff_eq] at h
  rcases h with rfl | h
  · exact Or.inl rfl
  · obtain ⟨x', rfl⟩ := List.getLast?_eq_some_iff.1 h
    exact Or.inr ⟨x', rfl⟩

def secret : List Char := ['s', 'e', 'c', 'r', 'e', 't']

/-- The password `${HOME}`. -/
def homeRef : List Char := Refs.refText ['H', 'O', 'M', 'E']

set_option maxRecDepth 4000 in
theorem passwordText_aligned : Aligned (passwordText secret) ∧ Aligned (passwordText homeRef) := by
  unfold Aligned passwordText
  rw [show beforePassword = _ from toList_eq rfl, show afterPassword = _ from toList_eq rfl,
    show clustersKey = _ from toList_eq rfl, show auditKey = _ from toList_eq rfl,
    show dashboardKey = _ from toList_eq rfl, show clustersNote = _ from toList_eq rfl,
    show auditNote = _ from toList_eq rfl]
  exact ⟨⟨alignedAt_of (by decide +kernel), alignedAt_of (by decide +kernel),
    alignedAt_of (by decide +kernel)⟩, ⟨alignedAt_of (by decide +kernel),
    alignedAt_of (by decide +kernel), alignedAt_of (by decide +kernel)⟩⟩

/-- A cipher that opens nothing. -/
def closedGcm : Gcm where
  openSealed _ _ _ := none
  length_le _ _ _ _ h := absurd h (by simp)

theorem saved_is_loaded_secret :
    SavedIsLoaded passwordYaml closedGcm (passwordConfig secret) := by
  have hline : '\n' ∉ secret := by decide
  have hy := passwordYaml_documented hline passwordText_aligned.1
  refine (saved_is_loaded passwordYaml closedGcm (passwordConfig secret) (passwordText secret)
    (passwordConfig_valid secret) (passwordConfig_oneLine hline) hy).2
      ⟨mapStrings_suffixed_z.1 ?_, passwordConfig_inClear (by decide)⟩
  rw [passwordConfig_mapStrings fun _ => Refs.expand_of_plain _,
    Refs.expand_of_plain _ (by decide)]

/-- The environment of a process run by root. -/
def rootEnvironment : Environment := fun name =>
  if name = ['H', 'O', 'M', 'E'] then some ['/', 'r', 'o', 'o', 't'] else none

theorem load_home : load passwordYaml rootEnvironment (annotate (passwordText homeRef)) =
    .ok (passwordConfig ['/', 'r', 'o', 'o', 't']) := by
  have hannotated := annotated_annotate passwordText_aligned.2
  refine load_eq (fun name hname => ?_) ?_ (passwordConfig_valid _)
  · rw [hannotated.names] at hname
    have hnames : Refs.names (passwordText homeRef) = [['H', 'O', 'M', 'E']] :=
      (names_passwordText homeRef).trans (by decide)
    rw [hnames] at hname
    rw [List.mem_singleton.1 hname]
    decide
  · have hexpand := hannotated.expand fun name => (rootEnvironment name).getD []
    rw [expand_passwordText] at hexpand
    exact passwordYaml_decode (by decide) hexpand

/-- A password `${HOME}` is kept as it is until the restart, and read as
`/root` from then on. -/
theorem saved_is_loaded_home :
    (passwordConfig homeRef).validate = none ∧
      passwordYaml.Documented (passwordConfig homeRef) (passwordText homeRef) ∧
      Stored passwordYaml rootEnvironment (passwordConfig homeRef)
        (annotate (passwordText homeRef)) ∧
      ¬ ∃ loaded, load passwordYaml rootEnvironment (annotate (passwordText homeRef)) = .ok loaded ∧
        runtime closedGcm loaded [] = .ok (passwordConfig homeRef) := by
  have hline : '\n' ∉ homeRef := by decide
  have hy := passwordYaml_documented hline passwordText_aligned.2
  refine ⟨passwordConfig_valid _, hy, ⟨hy.marshal, _, load_home⟩, ?_⟩
  rintro ⟨loaded, hload, hruntime⟩
  rw [load_home] at hload
  obtain rfl := Except.ok.inj hload
  rw [runtime_eq_self.2 (passwordConfig_inClear (by decide))] at hruntime
  exact absurd (passwordConfig_injective (Except.ok.inj hruntime)) (by decide)

end KafkaManager
