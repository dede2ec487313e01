import KafkaManager.Config.Crypto
import KafkaManager.Lib.GoTime
import KafkaManager.Lib.JsonRoundTrip

/-!
# Sessions (`internal/auth/session.go`)

A token is a payload and a signature, both in base64 with the alphabet for
URLs. The payload is the JSON of the claims. HMAC-SHA256 is a parameter.
-/

namespace KafkaManager.Auth

open Lib

/-! ## Base64 for URLs -/

def urlChar (n : Nat) : Char :=
  if n < 26 then Char.ofNat (n + 65)
  else if n < 52 then Char.ofNat (n + 71)
  else if n < 62 then Char.ofNat (n - 4)
  else if n = 62 then '-'
  else '_'

def urlDigit (c : Char) : Option Nat :=
  if 'A' ≤ c && c ≤ 'Z' then some (c.toNat - 65)
  else if 'a' ≤ c && c ≤ 'z' then some (c.toNat - 71)
  else if '0' ≤ c && c ≤ '9' then some (c.toNat + 4)
  else if c == '-' then some 62
  else if c == '_' then some 63
  else none

/-- Three bytes make four digits; at the end one makes two and two make
three. -/
def quantaDigits : List UInt8 → List Nat
  | [] => []
  | [a] => [a.toNat / 4, a.toNat % 4 * 16]
  | [a, b] => [a.toNat / 4, a.toNat % 4 * 16 + b.toNat / 16, b.toNat % 16 * 4]
  | a :: b :: c :: rest =>
      a.toNat / 4 :: (a.toNat % 4 * 16 + b.toNat / 16) :: (b.toNat % 16 * 4 + c.toNat / 64) ::
        (c.toNat % 64) :: quantaDigits rest

/-- `base64.RawURLEncoding.EncodeToString` -/
def rawURLEncode (bytes : List UInt8) : List Char := (quantaDigits bytes).map urlChar

/-- The digits of a text, passing over line breaks. -/
def urlDigits : List Char → Option (List Nat)
  | [] => some []
  | c :: rest =>
      if c == '\r' || c == '\n' then urlDigits rest
      else
        match urlDigit c with
        | none => none
        | some d => (urlDigits rest).map fun ds => d :: ds

/-- `base64.RawURLEncoding.DecodeString` -/
def rawURLDecode (s : List Char) : Option (List UInt8) := (urlDigits s).bind base64Quanta

theorem urlDigit_urlChar {n : Nat} (h : n < 64) :
    urlDigit (urlChar n) = some n ∧ (urlChar n == '\r' || urlChar n == '\n') = false ∧
      urlChar n ≠ '.' := by
  have hall : ∀ m < 64, urlDigit (urlChar m) = some m ∧
      (urlChar m == '\r' || urlChar m == '\n') = false ∧ urlChar m ≠ '.' := by decide
  exact hall n h

theorem quantaDigits_lt (bytes : List UInt8) : ∀ d ∈ quantaDigits bytes, d < 64 := by
  induction bytes using quantaDigits.induct with
  | case1 => simp [quantaDigits]
  | case2 a =>
      have ha := a.toNat_lt
      intro d hd
      simp only [quantaDigits, List.mem_cons, List.not_mem_nil, or_false] at hd
      omega
  | case3 a b =>
      have ha := a.toNat_lt
      have hb := b.toNat_lt
      intro d hd
      simp only [quantaDigits, List.mem_cons, List.not_mem_nil, or_false] at hd
      omega
  | case4 a b c rest ih =>
      have ha := a.toNat_lt
      have hb := b.toNat_lt
      have hc := c.toNat_lt
      intro d hd
      simp only [quantaDigits, List.mem_cons] at hd
      rcases hd with hd | hd | hd | hd | hd
      · omega
      · omega
      · omega
      · omega
      · exact ih d hd

theorem ofNat_toNat_eq {a : UInt8} {n : Nat} (h : n = a.toNat) : UInt8.ofNat n = a := by
  rw [h, UInt8.ofNat_toNat]

theorem base64Quanta_quantaDigits (bytes : List UInt8) :
    base64Quanta (quantaDigits bytes) = some bytes := by
  induction bytes using quantaDigits.induct with
  | case1 => rfl
  | case2 a =>
      rw [quantaDigits, base64Quanta, ofNat_toNat_eq (a := a) (by omega)]
  | case3 a b =>
      have hb := b.toNat_lt
      rw [quantaDigits, base64Quanta, ofNat_toNat_eq (a := a) (by omega),
        ofNat_toNat_eq (a := b) (by omega)]
  | case4 a b c rest ih =>
      have hb := b.toNat_lt
      have hc := c.toNat_lt
      rw [quantaDigits, base64Quanta, ih, Option.map_some, ofNat_toNat_eq (a := a) (by omega),
        ofNat_toNat_eq (a := b) (by omega), ofNat_toNat_eq (a := c) (by omega)]

theorem urlDigits_map {digits : List Nat} (h : ∀ d ∈ digits, d < 64) :
    urlDigits (digits.map urlChar) = some digits := by
  induction digits with
  | nil => rfl
  | cons d digits ih =>
      obtain ⟨hdigit, hbreak, -⟩ := urlDigit_urlChar (h d List.mem_cons_self)
      have hrest := ih fun d' hd' => h d' (List.mem_cons_of_mem _ hd')
      simp only [List.map_cons, urlDigits, hbreak, hdigit, hrest, Option.map_some,
        Bool.false_eq_true, if_false]

theorem rawURLDecode_encode (bytes : List UInt8) :
    rawURLDecode (rawURLEncode bytes) = some bytes := by
  rw [rawURLDecode, rawURLEncode, urlDigits_map (quantaDigits_lt bytes), Option.bind_some,
    base64Quanta_quantaDigits]

theorem dot_not_mem_encode (bytes : List UInt8) : '.' ∉ rawURLEncode bytes := by
  intro hmem
  obtain ⟨d, hd, hdot⟩ := List.mem_map.1 hmem
  exact (urlDigit_urlChar (quantaDigits_lt bytes d hd)).2.2 hdot

/-! ## Tokens -/

structure SessionManager where
  key : List UInt8
  ttl : Int

structure SessionClaims where
  username : String
  expiresAt : Int
deriving DecidableEq

inductive SessionError
  | keyTooShort        -- session key must contain at least 32 bytes
  | invalidToken       -- invalid session token
  | invalidSignature   -- invalid session signature
  | decode             -- decode session: %w
  | decodeClaims       -- decode session claims: %w
  | expired            -- session expired
deriving DecidableEq

namespace SessionClaims

def toJson (c : SessionClaims) : Json :=
  .obj [(['s', 'u', 'b'], .str c.username.toList), (['e', 'x', 'p'], .num (.ofInt c.expiresAt))]

def set (key : List Char) (v : Json) (c : SessionClaims) : Option SessionClaims :=
  if Json.names ['s', 'u', 'b'] key then
    (Json.setString c.username.toList v).map fun s => { c with username := String.ofList s }
  else if Json.names ['e', 'x', 'p'] key then
    (Json.setInt c.expiresAt v).map fun n => { c with expiresAt := n }
  else some c

/-- `json.Unmarshal` of a payload. -/
def ofPayload (payload : List UInt8) : Option SessionClaims :=
  (Json.read (runes payload)).bind (Json.decode set ⟨"", 0⟩)

/-- The claims are read back. -/
theorem ofPayload_toJson {c : SessionClaims} (h : fits64 c.expiresAt = true) :
    ofPayload (utf8 c.toJson.write) = some c := by
  have hexp : Json.setInt 0 (.num (.ofInt c.expiresAt)) = some c.expiresAt := parseInt_formatInt h
  have hsub : Json.setString ("".toList) (.str c.username.toList) = some c.username.toList := rfl
  have hnames : Json.names ['s', 'u', 'b'] ['e', 'x', 'p'] = false := by decide
  have hsubName : Json.names ['s', 'u', 'b'] ['s', 'u', 'b'] = true := by decide
  have hexpName : Json.names ['e', 'x', 'p'] ['e', 'x', 'p'] = true := by decide
  have hdepth : c.toJson.depth ≤ Json.maxNestingDepth := show 1 ≤ 10000 by decide
  rw [ofPayload, runes_utf8, Json.read_write hdepth, Option.bind_some]
  simp only [toJson, Json.decode, List.foldlM_cons, List.foldlM_nil, set, hsubName, hsub, hnames,
    hexpName, hexp, if_true, Bool.false_eq_true, if_false, Option.map_some, String.ofList_toList,
    Option.bind_eq_bind, Option.bind_some, Option.pure_def]

end SessionClaims

namespace SessionManager

variable (hmac : List UInt8 → List UInt8 → List UInt8) (m : SessionManager)

def sign (value : List Char) : List UInt8 := hmac m.key (utf8 value)

/-- `Create`, at the time `now` gives. -/
def create (now : Instant) (username : String) : Except SessionError (List Char) :=
  if m.key.length < 32 then .error .keyTooShort
  else
    let claims : SessionClaims := ⟨username, (now.add m.ttl).unix⟩
    let encoded := rawURLEncode (utf8 claims.toJson.write)
    .ok (encoded ++ '.' :: rawURLEncode (m.sign hmac encoded))

/-- `Verify`, at the time `now` gives. -/
def verify (now : Instant) (token : List Char) : Except SessionError String :=
  match token.splitOn '.' with
  | [encoded, signed] =>
      match rawURLDecode signed with
      | none => .error .invalidSignature
      | some signature =>
          if signature ≠ m.sign hmac encoded then .error .invalidSignature
          else
            match rawURLDecode encoded with
            | none => .error .decode
            | some payload =>
                match SessionClaims.ofPayload payload with
                | none => .error .decodeClaims
                | some claims =>
                    if claims.username = "" ∨ now.before (.ofUnix claims.expiresAt) = false then
                      .error .expired
                    else .ok claims.username
  | _ => .error .invalidToken

variable {hmac} {m}

/-- The expiry that is written into a token. -/
def expiry (m : SessionManager) (now : Instant) : Int := (now.add m.ttl).unix

/-- What becomes of a token that a manager with the same key has created. -/
theorem verify_create {creator : SessionManager} {now later : Instant} {username : String}
    {token : List Char} (hkey : m.key = creator.key)
    (h : creator.create hmac now username = .ok token) :
    m.verify hmac later token =
      if username = "" ∨ later.before (.ofUnix (creator.expiry now)) = false then .error .expired
      else .ok username := by
  unfold create at h
  split at h
  · cases h
  · obtain rfl := Except.ok.inj h
    have hsign : ∀ value, m.sign hmac value = creator.sign hmac value := by
      intro value
      rw [sign, sign, hkey]
    have hclaims := SessionClaims.ofPayload_toJson (c := ⟨username, creator.expiry now⟩)
      (bmod_fits _)
    have hsplit : ∀ payload signature : List UInt8,
        (rawURLEncode payload ++ '.' :: rawURLEncode signature).splitOn '.' =
          [rawURLEncode payload, rawURLEncode signature] := by
      intro payload signature
      rw [List.splitOn_append_cons_self_of_not_mem (dot_not_mem_encode payload),
        List.splitOn_eq_singleton (dot_not_mem_encode signature)]
    unfold expiry at hclaims ⊢
    simp only [verify, hsplit, rawURLDecode_encode, hsign, ne_eq, not_true_eq_false, if_false,
      hclaims]

end SessionManager

/-- `time.Duration(hours) * time.Hour` -/
def hoursDuration (hours : Int) : Int := Int.bmod (hours * 3600000000000) (2 ^ 64)

end KafkaManager.Auth
