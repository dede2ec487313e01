import KafkaManager.Config.Model

/-!
# Encrypted passwords (`internal/config/crypto.go`)

A cluster password that begins with `enc:v1:` is a ciphertext; any other is
the password itself. `decrypt` makes the checks of the source in its order.
Base64 is written out. AES-GCM is a parameter: `Gcm` is what opening a sealed
text under a key and a nonce gives, with the one fact used of it, that the
plaintext is not longer than what was sealed.
-/

namespace KafkaManager

open Lib

def encryptedPrefix : List Char := ['e', 'n', 'c', ':', 'v', '1', ':']

/-- The value of a base64 digit of the standard alphabet. -/
def base64Digit (c : Char) : Option Nat :=
  if 'A' ≤ c && c ≤ 'Z' then some (c.toNat - 65)
  else if 'a' ≤ c && c ≤ 'z' then some (c.toNat - 71)
  else if '0' ≤ c && c ≤ '9' then some (c.toNat + 4)
  else if c == '+' then some 62
  else if c == '/' then some 63
  else none

/-- Four digits make three bytes; at the end two make one and three make
two. -/
def base64Quanta : List Nat → Option (List UInt8)
  | [] => some []
  | [_] => none
  | [a, b] => some [.ofNat (a * 4 + b / 16)]
  | [a, b, c] => some [.ofNat (a * 4 + b / 16), .ofNat (b % 16 * 16 + c / 4)]
  | a :: b :: c :: d :: rest =>
      (base64Quanta rest).map fun bytes =>
        .ofNat (a * 4 + b / 16) :: .ofNat (b % 16 * 16 + c / 4) :: .ofNat (c % 4 * 64 + d) :: bytes

/-- The digits of a text, passing over line breaks. -/
def base64Digits : List Char → Option (List Nat)
  | [] => some []
  | c :: rest =>
      if c == '\r' || c == '\n' then base64Digits rest
      else
        match base64Digit c with
        | none => none
        | some d => (base64Digits rest).map fun ds => d :: ds

/-- `base64.RawStdEncoding.DecodeString` -/
def rawStdDecode (s : List Char) : Option (List UInt8) := (base64Digits s).bind base64Quanta

/-- AES-GCM: what `Open` gives for a key, a nonce and a sealed text. -/
structure Gcm where
  openSealed : List UInt8 → List UInt8 → List UInt8 → Option (List Char)
  length_le : ∀ key nonce sealed plain, openSealed key nonce sealed = some plain →
    plain.length ≤ sealed.length

inductive DecryptError
  | base64
  | keySize     -- crypto/aes: invalid key size
  | truncated   -- encrypted value is truncated
  | refused     -- decrypt value: %w
deriving DecidableEq, Repr

def gcmNonceSize : Nat := 12

def decrypt (gcm : Gcm) (key : List UInt8) (value : List Char) : Except DecryptError (List Char) :=
  if !encryptedPrefix.isPrefixOf value then .ok value
  else
    match rawStdDecode (value.drop encryptedPrefix.length) with
    | none => .error .base64
    | some data =>
        if key.length ≠ 16 ∧ key.length ≠ 24 ∧ key.length ≠ 32 then .error .keySize
        else if data.length < gcmNonceSize then .error .truncated
        else
          match gcm.openSealed key (data.take gcmNonceSize) (data.drop gcmNonceSize) with
          | none => .error .refused
          | some plain => .ok plain

/-- decrypt password for cluster %s: %w -/
structure RuntimeError where
  cluster : String
  cause : DecryptError
deriving DecidableEq, Repr

/-- The loop of `Runtime` over the clusters. -/
def runtimeClusters (gcm : Gcm) (key : List UInt8) :
    List ClusterConfig → Except RuntimeError (List ClusterConfig)
  | [] => .ok []
  | c :: rest =>
      match decrypt gcm key c.security.password.toList with
      | .error e => .error ⟨c.id, e⟩
      | .ok password =>
          match runtimeClusters gcm key rest with
          | .error e => .error e
          | .ok rest' =>
              .ok ({ c with security := { c.security with password := String.ofList password } }
                :: rest')

/-- `Runtime` -/
def runtime (gcm : Gcm) (persisted : Config) (key : List UInt8) : Except RuntimeError Config :=
  match runtimeClusters gcm key persisted.clusters with
  | .error e => .error e
  | .ok clusters => .ok { persisted with clusters := clusters }

theorem runtimeClusters_ids {gcm : Gcm} {key : List UInt8} {clusters clusters' : List ClusterConfig}
    (h : runtimeClusters gcm key clusters = .ok clusters') :
    clusters'.map ClusterConfig.id = clusters.map ClusterConfig.id := by
  induction clusters generalizing clusters' with
  | nil =>
      obtain rfl := Except.ok.inj h
      rfl
  | cons c rest ih =>
      rw [runtimeClusters] at h
      split at h
      · simp at h
      · split at h
        · simp at h
        · next rest' hrest =>
            obtain rfl := Except.ok.inj h
            rw [List.map_cons, List.map_cons, ih hrest]

/-- Decrypting leaves the ids as they are. -/
theorem runtime_ids {gcm : Gcm} {persisted cfg : Config} {key : List UInt8}
    (h : runtime gcm persisted key = .ok cfg) (hdist : DistinctIDs persisted.clusters) :
    DistinctIDs cfg.clusters := by
  unfold runtime at h
  split at h
  · simp at h
  · next clusters hclusters =>
      obtain rfl := Except.ok.inj h
      unfold DistinctIDs
      rw [runtimeClusters_ids hclusters]
      exact hdist

/-- The password is in clear. -/
def ClusterConfig.InClear (c : ClusterConfig) : Prop :=
  ¬ encryptedPrefix <+: c.security.password.toList

theorem decrypt_of_clear {gcm : Gcm} {key : List UInt8} {value : List Char}
    (h : ¬ encryptedPrefix <+: value) : decrypt gcm key value = .ok value := by
  have hp : encryptedPrefix.isPrefixOf value = false := by
    rw [← Bool.not_eq_true, List.isPrefixOf_iff_prefix]
    exact h
  simp [decrypt, hp]

theorem base64Quanta_length {digits : List Nat} {bytes : List UInt8}
    (h : base64Quanta digits = some bytes) : bytes.length ≤ digits.length := by
  induction digits using base64Quanta.induct generalizing bytes with
  | case1 =>
      obtain rfl := Option.some.inj h
      exact Nat.le_refl _
  | case2 a => exact absurd h (by simp [base64Quanta])
  | case3 a b =>
      obtain rfl := Option.some.inj h
      simp
  | case4 a b c =>
      obtain rfl := Option.some.inj h
      simp
  | case5 a b c d rest ih =>
      rw [base64Quanta] at h
      obtain ⟨tail, htail, rfl⟩ := Option.map_eq_some_iff.1 h
      have := ih htail
      simp only [List.length_cons]
      omega

theorem base64Digits_length {s : List Char} {digits : List Nat}
    (h : base64Digits s = some digits) : digits.length ≤ s.length := by
  induction s generalizing digits with
  | nil =>
      obtain rfl := Option.some.inj h
      exact Nat.le_refl _
  | cons c rest ih =>
      rw [base64Digits] at h
      rw [List.length_cons]
      split at h
      · have := ih h
        omega
      · split at h
        · exact absurd h (by simp)
        · obtain ⟨tail, htail, rfl⟩ := Option.map_eq_some_iff.1 h
          have := ih htail
          rw [List.length_cons]
          omega

theorem rawStdDecode_length {s : List Char} {bytes : List UInt8}
    (h : rawStdDecode s = some bytes) : bytes.length ≤ s.length := by
  obtain ⟨digits, hdigits, hbytes⟩ := Option.bind_eq_some_iff.1 h
  have hlen := base64Quanta_length hbytes
  have hdig := base64Digits_length hdigits
  omega

/-- What decrypts is shorter than its ciphertext. -/
theorem decrypt_ne_self (gcm : Gcm) (key : List UInt8) {value : List Char}
    (h : encryptedPrefix <+: value) : decrypt gcm key value ≠ .ok value := by
  intro heq
  have hp : encryptedPrefix.isPrefixOf value = true := List.isPrefixOf_iff_prefix.2 h
  rw [decrypt, hp] at heq
  simp only [Bool.not_true, Bool.false_eq_true, if_false] at heq
  split at heq
  · exact absurd heq (by simp)
  · next data hdata =>
      split at heq
      · exact absurd heq (by simp)
      · split at heq
        · exact absurd heq (by simp)
        · split at heq
          · exact absurd heq (by simp)
          · next plain hopen =>
              have hplain : plain = value := by simpa using heq
              have hle := gcm.length_le _ _ _ _ hopen
              have hdec := rawStdDecode_length hdata
              have hpre := h.length_le
              have hpos : 0 < encryptedPrefix.length := by decide
              rw [hplain, List.length_drop] at hle
              rw [List.length_drop] at hdec
              omega

end KafkaManager
