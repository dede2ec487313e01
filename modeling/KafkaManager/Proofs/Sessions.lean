import KafkaManager.Api.Auth

/-!
# Which sessions work

A session lasts for `SessionHours` hours if the product of the hours and the
nanoseconds of an hour is positive and does not wrap. `Validate` does not look
at the hours, so a configuration it accepts may be one nobody can log in with.
-/

namespace Lib

/-- 1970. -/
def Instant.epoch : Instant := .ofUnix 0

theorem Instant.sec_of_epoch {t : Instant} (h : Instant.epoch.le t) : unixToInternal ≤ t.sec := by
  have hbefore : ¬ t.before (.ofUnix 0) = true := by
    rw [Bool.not_eq_true]
    exact h
  rw [Instant.before_ofUnix] at hbefore
  exact Int.not_lt.1 hbefore

theorem Instant.sec_le {t u : Instant} (h : t.le u) : t.sec ≤ u.sec := by
  rw [Instant.le, Instant.before, Bool.or_eq_false_iff, decide_eq_false_iff_not] at h
  exact Int.not_lt.1 h.1

theorem Instant.sec_range (t : Instant) : -2 ^ 63 ≤ t.sec ∧ t.sec < 2 ^ 63 :=
  of_decide_eq_true t.sec_fits

/-- From 1970 on the seconds since then are what they are. -/
theorem Instant.unix_eq {t : Instant} (h : unixToInternal ≤ t.sec) :
    t.unix = t.sec - unixToInternal := by
  have hrange := t.sec_range
  have hpos : 0 ≤ unixToInternal := by decide
  exact Int.bmod_eq_of_le (by omega) (by omega)

/-- Every later second has an instant. -/
theorem Instant.exists_later {t : Instant} {s : Int} (h : t.sec ≤ s) (hs : s < 2 ^ 63) :
    ∃ later, t.le later ∧ later.sec = s := by
  have hrange := t.sec_range
  rcases Int.lt_or_le t.sec s with hlt | hge
  · refine ⟨⟨s, 0, decide_eq_true ⟨by omega, hs⟩, by decide⟩, ?_, rfl⟩
    simp only [Instant.le, Instant.before, Bool.or_eq_false_iff, Bool.and_eq_false_iff,
      decide_eq_false_iff_not, beq_eq_false_iff_ne]
    omega
  · exact ⟨t, t.le_refl, by omega⟩

end Lib

namespace KafkaManager.Api

open Lib Auth

/-- A session of this user that begins now works: both managers of the server
accept its token now and until so many hours later, counted to the second, and
no longer. -/
def SessionWorks (hmac : List UInt8 → List UInt8 → List UInt8) (cfg : Config) (key : List UInt8)
    (username : String) (t : Instant) : Prop :=
  ∃ token, (newSessionManager cfg key).create hmac t username = .ok token ∧
    ∀ m ∈ [(newAuthHandler cfg key).sessions, newSessionManager cfg key],
      m.verify hmac t token = .ok username ∧
        ∀ later : Instant, t.le later →
          (later.unix < t.unix + cfg.server.sessionHours * 3600 →
            m.verify hmac later token = .ok username) ∧
          (t.unix + cfg.server.sessionHours * 3600 ≤ later.unix →
            ∃ e, m.verify hmac later token = .error e)

section

variable {hmac : List UInt8 → List UInt8 → List UInt8} {cfg : Config} {key : List UInt8}
  {username : String} {t : Instant}

/-- The second a session ends. -/
def endSecond (cfg : Config) (t : Instant) : Int :=
  (t.add (hoursDuration cfg.server.sessionHours)).sec

/-- Both managers of the server are the same. -/
theorem sessions_eq {m : SessionManager}
    (hm : m ∈ [(newAuthHandler cfg key).sessions, newSessionManager cfg key]) :
    m = newSessionManager cfg key := by
  simpa [newAuthHandler] using hm

theorem create_ok (hmac : List UInt8 → List UInt8 → List UInt8) (cfg : Config) (t : Instant)
    (username : String) (hkey : 32 ≤ key.length) :
    ∃ token, (newSessionManager cfg key).create hmac t username = .ok token := by
  refine ⟨_, if_neg ?_⟩
  exact Nat.not_lt.2 hkey

/-- What becomes of a token, by the second. -/
theorem verify_token {token : List Char} {later : Instant} (hname : username ≠ "")
    (htoken : (newSessionManager cfg key).create hmac t username = .ok token) :
    (newSessionManager cfg key).verify hmac later token =
      if later.sec < endSecond cfg t then .ok username else .error .expired := by
  have hbefore : later.before (.ofUnix ((newSessionManager cfg key).expiry t)) = true ↔
      later.sec < endSecond cfg t := Instant.before_ofUnix_unix
  rw [SessionManager.verify_create rfl htoken]
  by_cases hlater : later.sec < endSecond cfg t
  · rw [if_pos hlater, if_neg (by simp [hname, hbefore.2 hlater])]
  · have hfalse : later.before (.ofUnix ((newSessionManager cfg key).expiry t)) = false := by
      rw [← Bool.not_eq_true, hbefore]
      exact hlater
    rw [if_neg hlater, if_pos (.inr hfalse)]

/-- A session works if it ends where it should. -/
theorem sessionWorks_iff_end (hkey : 32 ≤ key.length) (hname : username ≠ "")
    (ht : Instant.epoch.le t) :
    SessionWorks hmac cfg key username t ↔
      t.sec < endSecond cfg t ∧ endSecond cfg t = t.sec + cfg.server.sessionHours * 3600 := by
  have hepoch := Instant.sec_of_epoch ht
  have hunix := Instant.unix_eq hepoch
  constructor
  · rintro ⟨token, htoken, hworks⟩
    obtain ⟨hnow, hlater⟩ := hworks _ (.tail _ (.head _))
    have hstart : t.sec < endSecond cfg t := by
      rw [verify_token hname htoken] at hnow
      by_contra hlt
      rw [if_neg hlt] at hnow
      cases hnow
    have hrange : endSecond cfg t < 2 ^ 63 :=
      (t.add (hoursDuration cfg.server.sessionHours)).sec_range.2
    have hle : endSecond cfg t ≤ t.sec + cfg.server.sessionHours * 3600 := by
      -- the last second of the session is not one too many
      obtain ⟨last, hafter, hlast⟩ := Instant.exists_later (t := t) (s := endSecond cfg t - 1)
        (by omega) (by omega)
      have hlastUnix := Instant.unix_eq (t := last) (by omega)
      have hreject := (hlater last hafter).2
      rw [verify_token hname htoken, if_pos (by omega), hunix, hlastUnix] at hreject
      by_contra hlong
      obtain ⟨e, he⟩ := hreject (by omega)
      cases he
    have hge : t.sec + cfg.server.sessionHours * 3600 ≤ endSecond cfg t := by
      -- the second after it is not one too few
      obtain ⟨next, hafter, hnext⟩ := Instant.exists_later (t := t) (s := endSecond cfg t)
        (by omega) hrange
      have hnextUnix := Instant.unix_eq (t := next) (by omega)
      have haccept := (hlater next hafter).1
      rw [verify_token hname htoken, if_neg (by omega), hunix, hnextUnix] at haccept
      by_contra hshort
      have he := haccept (by omega)
      cases he
    exact ⟨hstart, by omega⟩
  · rintro ⟨hstart, hend⟩
    obtain ⟨token, htoken⟩ := create_ok hmac cfg t username hkey
    refine ⟨token, htoken, fun m hm => ?_⟩
    obtain rfl := sessions_eq hm
    refine ⟨by rw [verify_token hname htoken, if_pos hstart], fun later hle => ?_⟩
    have hsec := Instant.sec_le hle
    have hlater := Instant.unix_eq (t := later) (by omega)
    rw [verify_token hname htoken, hunix, hlater, hend]
    constructor
    · intro hlt
      rw [if_pos (by omega)]
    · intro hge
      exact ⟨.expired, if_neg (by omega)⟩

/-- Where it should end. -/
theorem end_iff (ht : Instant.epoch.le t) :
    (t.sec < endSecond cfg t ∧ endSecond cfg t = t.sec + cfg.server.sessionHours * 3600) ↔
      1 ≤ cfg.server.sessionHours ∧ cfg.server.sessionHours ≤ 2562047 ∧
        t.sec + cfg.server.sessionHours * 3600 < 2 ^ 63 := by
  have hepoch := Instant.sec_of_epoch ht
  have hpos : 0 ≤ unixToInternal := by decide
  have hend : endSecond cfg t =
      Instant.addSec t.sec ((t.nsec + hoursDuration cfg.server.sessionHours) / nanosPerSecond) :=
    rfl
  have hfits : hoursDuration cfg.server.sessionHours < 2 ^ 63 :=
    (of_decide_eq_true (bmod_fits _)).2
  obtain ⟨hnsec, hsub⟩ := t.nsec_range
  unfold nanosPerSecond at hend hsub
  constructor
  · rintro ⟨hstart, hsame⟩
    have hrange : endSecond cfg t < 2 ^ 63 :=
      (t.add (hoursDuration cfg.server.sessionHours)).sec_range.2
    rw [hsame] at hend
    unfold Instant.addSec at hend
    split at hend
    · omega
    · split at hend <;> omega
  · rintro ⟨hone, hmax, hlast⟩
    have hduration : hoursDuration cfg.server.sessionHours =
        cfg.server.sessionHours * 3600000000000 :=
      bmod_of_fits (decide_eq_true ⟨by omega, by omega⟩)
    rw [hend, hduration]
    unfold Instant.addSec
    rw [if_neg (by omega), if_neg (by omega)]
    omega

end

/-- A configuration with these hours. -/
def hoursConfig (hours : Int) : Config :=
  { defaultConfig with
    server := { defaultConfig.server with
      username := "admin", password := "admin", sessionHours := hours }
    clusters := [plainCluster "a" "k1:9092"] }

theorem hoursConfig_valid (hours : Int) : (hoursConfig hours).validate = none := by
  have hadmin : isBlank "admin" = false := not_blank rfl (by decide)
  have ha : isBlank "a" = false := not_blank rfl (by decide)
  have hbroker : isBlank "k1:9092" = false := not_blank rfl (by decide)
  unfold hoursConfig Config.validate
  simp [defaultConfig, plainCluster, validateClusters, validateCluster, hadmin, ha, hbroker]

/-- A configuration without hours is accepted, and no session works. -/
theorem sessions_work_no_hours :
    (hoursConfig 0).validate = none ∧
      ¬ SessionWorks (fun _ _ => []) (hoursConfig 0) (List.replicate 32 0) "admin" Instant.epoch := by
  refine ⟨hoursConfig_valid 0, fun h => ?_⟩
  have hworks := (sessionWorks_iff_end (by decide) (by decide) Instant.epoch.le_refl).1 h
  have hhours := (end_iff Instant.epoch.le_refl).1 hworks
  exact absurd hhours.1 (by decide)

/-- A session works exactly if the configuration has at least one hour and not
so many that the duration wraps, and the last of them has a time. -/
theorem sessions_work (hmac : List UInt8 → List UInt8 → List UInt8) (cfg : Config)
    (key : List UInt8) (hkey : 32 ≤ key.length) (username : String) (hname : username ≠ "")
    (t : Instant) (ht : Instant.epoch.le t) :
    SessionWorks hmac cfg key username t ↔
      1 ≤ cfg.server.sessionHours ∧ cfg.server.sessionHours ≤ 2562047 ∧
        t.sec + cfg.server.sessionHours * 3600 < 2 ^ 63 :=
  (sessionWorks_iff_end hkey hname ht).trans (end_iff ht)

theorem sessions_work_default :
    SessionWorks (fun _ _ => []) (hoursConfig 12) (List.replicate 32 0) "admin" Instant.epoch :=
  (sessions_work (fun _ _ => []) (hoursConfig 12) (List.replicate 32 0) (by decide) "admin"
    (by decide) Instant.epoch Instant.epoch.le_refl).2 (by decide)

end KafkaManager.Api
