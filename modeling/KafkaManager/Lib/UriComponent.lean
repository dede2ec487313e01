import KafkaManager.Lib.Url

/-!
# `decodeURIComponent`

A text is read as characters and escaped octets. Octets that follow each other
are a character of as many bytes as the first one says, and they have to be its
bytes in UTF-8. Everything else is an error.
-/

namespace Lib

/-- What is read of an encoded text. -/
inductive UriUnit
  | char (c : Char)
  | octet (b : UInt8)
deriving DecidableEq, Repr

def uriUnitsFrom : EscapeState → List Char → Option (List UriUnit)
  | .plain, [] => some []
  | .high, [] => none
  | .low _, [] => none
  | .plain, c :: rest =>
      if c = '%' then uriUnitsFrom .high rest else (uriUnitsFrom .plain rest).map (.char c :: ·)
  | .high, c :: rest => (hexValue c).bind fun m => uriUnitsFrom (.low m) rest
  | .low m, c :: rest =>
      (hexValue c).bind fun n => (uriUnitsFrom .plain rest).map (.octet (.ofNat (16 * m + n)) :: ·)

def uriUnits (s : List Char) : Option (List UriUnit) := uriUnitsFrom .plain s

/-- The number of leading 1 bits, five being too many. -/
def leadingOnes (b : UInt8) : Nat :=
  if b.toNat < 0x80 then 0
  else if b.toNat < 0xC0 then 1
  else if b.toNat < 0xE0 then 2
  else if b.toNat < 0xF0 then 3
  else if b.toNat < 0xF8 then 4
  else 5

/-- The character the octets are the bytes of. -/
def octetsChar (octets : List UInt8) : Option Char :=
  let (c, width) := decodeRune octets
  if width = octets.length then some c else none

/-- The octets that have been read of a character, and how many are to come. -/
def decodeUnits : List UInt8 → Nat → List UriUnit → Option (List Char)
  | _, 0, [] => some []
  | _, _ + 1, [] => none
  | _, 0, .char c :: rest => (decodeUnits [] 0 rest).map (c :: ·)
  | _, 0, .octet b :: rest =>
      if leadingOnes b = 0 then (decodeUnits [] 0 rest).map (Char.ofNat b.toNat :: ·)
      else if leadingOnes b = 1 ∨ leadingOnes b > 4 then none
      else decodeUnits [b] (leadingOnes b - 1) rest
  | _, _ + 1, .char _ :: _ => none
  | octets, more + 1, .octet b :: rest =>
      if more = 0 then
        (octetsChar (octets ++ [b])).bind fun c => (decodeUnits [] 0 rest).map (c :: ·)
      else decodeUnits (octets ++ [b]) more rest

/-- `none` is the `URIError`. -/
def decodeURIComponent (s : List Char) : Option (List Char) :=
  (uriUnits s).bind (decodeUnits [] 0)

/-! ## What is encoded is decoded -/

theorem uriUnits_plain {c : Char} (hc : c ≠ '%') (s : List Char) :
    uriUnits (c :: s) = (uriUnits s).map (.char c :: ·) := by
  rw [uriUnits, uriUnitsFrom, if_neg hc]
  rfl

theorem uriUnits_percentByte (b : UInt8) (s : List Char) :
    uriUnits (percentByte b ++ s) = (uriUnits s).map (.octet b :: ·) := by
  have hb := b.toNat_lt
  have hsplit : UInt8.ofNat (16 * (b.toNat / 16) + b.toNat % 16) = b := by
    rw [Nat.div_add_mod, UInt8.ofNat_toNat]
  simp only [uriUnits, percentByte, List.cons_append, List.nil_append, uriUnitsFrom, if_true,
    hexValue_upperHex (show b.toNat / 16 < 16 by omega),
    hexValue_upperHex (show b.toNat % 16 < 16 by omega), Option.bind_some, hsplit]

theorem uriUnits_bytes (bytes : List UInt8) (s : List Char) :
    uriUnits (bytes.flatMap percentByte ++ s) = (uriUnits s).map (bytes.map .octet ++ ·) := by
  induction bytes with
  | nil => simp
  | cons b bytes ih =>
      rw [List.flatMap_cons, List.append_assoc, uriUnits_percentByte, ih, Option.map_map]
      rfl

/-- The units of a character that is encoded. -/
def encodedUnits (keep : Char → Bool) (c : Char) : List UriUnit :=
  if keep c then [.char c] else (utf8Char c).map .octet

theorem uriUnits_encoded {keep : Char → Bool} (hkeep : keep '%' = false) (s : List Char) :
    uriUnits (percentEncode keep s) = some (s.flatMap (encodedUnits keep)) := by
  induction s with
  | nil => rfl
  | cons c s ih =>
      have hcons : percentEncode keep (c :: s) =
          (if keep c then [c] else (utf8Char c).flatMap percentByte) ++ percentEncode keep s := rfl
      rw [hcons, List.flatMap_cons, encodedUnits]
      split
      · next hc =>
          have hne : c ≠ '%' := by
            rintro rfl
            rw [hkeep] at hc
            cases hc
          rw [List.singleton_append, uriUnits_plain hne, ih]
          rfl
      · rw [uriUnits_bytes, ih]
        rfl

/-- The octets that are still to come of a character. -/
theorem decodeUnits_tail {octets tail : List UInt8} {c : Char} (hne : tail ≠ [])
    (hc : octetsChar (octets ++ tail) = some c) (units : List UriUnit) :
    decodeUnits octets tail.length (tail.map .octet ++ units) =
      (decodeUnits [] 0 units).map (c :: ·) := by
  induction tail generalizing octets with
  | nil => exact absurd rfl hne
  | cons b tail ih =>
      rw [List.map_cons, List.cons_append, List.length_cons, decodeUnits]
      cases tail with
      | nil =>
          rw [List.length_nil, if_pos rfl, hc]
          rfl
      | cons b' tail =>
          rw [if_neg (by simp)]
          refine ih (List.cons_ne_nil _ _) ?_
          rw [List.append_assoc]
          exact hc

theorem octetsChar_utf8Char (c : Char) : octetsChar (utf8Char c) = some c := by
  have hdecode := decodeRune_utf8Char c []
  rw [List.append_nil] at hdecode
  rw [octetsChar, hdecode]
  exact if_pos rfl

/-- The first byte says how many there are. -/
theorem leadingOnes_utf8Char (c : Char) :
    utf8Char c = [.ofNat c.toNat] ∧ c.toNat < 0x80 ∨
      ∃ b tail, utf8Char c = b :: tail ∧ tail ≠ [] ∧ leadingOnes b = tail.length + 1 ∧
        tail.length ≤ 3 := by
  have hvalid := toNat_valid c
  unfold utf8Char
  split
  · next h => exact .inl ⟨rfl, h⟩
  · refine .inr ?_
    split
    · refine ⟨_, _, rfl, List.cons_ne_nil _ _, ?_, by simp⟩
      rw [leadingOnes, toNat_ofNat (by omega), if_neg (by omega), if_neg (by omega),
        if_pos (by omega)]
      rfl
    · split
      · refine ⟨_, _, rfl, List.cons_ne_nil _ _, ?_, by simp⟩
        rw [leadingOnes, toNat_ofNat (by omega), if_neg (by omega), if_neg (by omega),
          if_neg (by omega), if_pos (by omega)]
        rfl
      · refine ⟨_, _, rfl, List.cons_ne_nil _ _, ?_, by simp⟩
        rw [leadingOnes, toNat_ofNat (by omega), if_neg (by omega), if_neg (by omega),
          if_neg (by omega), if_neg (by omega), if_pos (by omega)]
        rfl

theorem decodeUnits_utf8Char (c : Char) (units : List UriUnit) :
    decodeUnits [] 0 ((utf8Char c).map .octet ++ units) =
      (decodeUnits [] 0 units).map (c :: ·) := by
  rcases leadingOnes_utf8Char c with ⟨hbytes, hc⟩ | ⟨b, tail, hbytes, hne, hones, hlength⟩
  · have hb : (UInt8.ofNat c.toNat).toNat = c.toNat := toNat_ofNat (by omega)
    rw [hbytes, List.map_cons, List.cons_append, decodeUnits, leadingOnes, hb, if_pos hc,
      if_pos rfl, Char.ofNat_toNat]
    rfl
  · have hpos := List.length_pos_iff.2 hne
    rw [hbytes, List.map_cons, List.cons_append, decodeUnits, hones, if_neg (by omega),
      if_neg (by omega), Nat.add_sub_cancel]
    refine decodeUnits_tail hne ?_ units
    rw [List.singleton_append, ← hbytes]
    exact octetsChar_utf8Char c

theorem decodeUnits_encoded (keep : Char → Bool) (s : List Char) :
    decodeUnits [] 0 (s.flatMap (encodedUnits keep)) = some s := by
  induction s with
  | nil => rfl
  | cons c s ih =>
      rw [List.flatMap_cons, encodedUnits]
      split
      · rw [List.singleton_append, decodeUnits, ih]
        rfl
      · rw [decodeUnits_utf8Char, ih]
        rfl

theorem decodeURIComponent_encodeURIComponent (s : String) :
    decodeURIComponent (encodeURIComponent s) = some s.toList := by
  rw [decodeURIComponent, encodeURIComponent, uriUnits_encoded (by decide), Option.bind_some,
    decodeUnits_encoded]

/-! ## Parts of a path -/

theorem map_cons_ne_nil {α : Type} {o : Option (List α)} {a : α} (h : o.map (a :: ·) = some []) :
    False := by
  obtain ⟨l, -, hl⟩ := Option.map_eq_some_iff.1 h
  exact absurd hl (List.cons_ne_nil a l)

/-- Only no text has no units. -/
theorem uriUnitsFrom_eq_nil {state : EscapeState} {s : List Char}
    (h : uriUnitsFrom state s = some []) : state = .plain ∧ s = [] := by
  induction s generalizing state with
  | nil =>
      cases state with
      | plain => exact ⟨rfl, rfl⟩
      | high => cases h
      | low m => cases h
  | cons c rest ih =>
      cases state with
      | plain =>
          rw [uriUnitsFrom] at h
          split at h
          · exact nomatch (ih h).1
          · exact (map_cons_ne_nil h).elim
      | high =>
          obtain ⟨m, -, hm⟩ := Option.bind_eq_some_iff.1 h
          exact nomatch (ih hm).1
      | low m =>
          obtain ⟨n, -, hn⟩ := Option.bind_eq_some_iff.1 h
          exact (map_cons_ne_nil hn).elim

/-- Units are at least one character. -/
theorem decodeUnits_eq_nil {octets : List UInt8} {more : Nat} {units : List UriUnit}
    (h : decodeUnits octets more units = some []) : more = 0 ∧ units = [] := by
  induction units generalizing octets more with
  | nil =>
      cases more with
      | zero => exact ⟨rfl, rfl⟩
      | succ more => cases h
  | cons unit rest ih =>
      cases more with
      | zero =>
          cases unit with
          | char c => exact (map_cons_ne_nil h).elim
          | octet b =>
              rw [decodeUnits] at h
              split at h
              · exact (map_cons_ne_nil h).elim
              · split at h
                · cases h
                · have := (ih h).1
                  omega
      | succ more =>
          cases unit with
          | char c => cases h
          | octet b =>
              rw [decodeUnits] at h
              split at h
              · obtain ⟨c, -, hc⟩ := Option.bind_eq_some_iff.1 h
                exact (map_cons_ne_nil hc).elim
              · exact absurd (ih h).1 ‹_›

/-- What is decoded of a part that is not empty is not empty. -/
theorem decodeURIComponent_ne_nil {s t : List Char} (h : decodeURIComponent s = some t)
    (hne : s ≠ []) : t ≠ [] := by
  rintro rfl
  obtain ⟨units, hunits, hdecode⟩ := Option.bind_eq_some_iff.1 h
  obtain ⟨-, rfl⟩ := decodeUnits_eq_nil hdecode
  exact hne (uriUnitsFrom_eq_nil hunits).2

theorem percentByte_no_slash (b : UInt8) : '/' ∉ percentByte b := by
  have hhex : ∀ n, n < 16 → upperHex n ≠ '/' := by decide
  have hb := b.toNat_lt
  simp only [percentByte, List.mem_cons, List.not_mem_nil, or_false, not_or]
  exact ⟨by decide, (hhex _ (by omega)).symm, (hhex _ (by omega)).symm⟩

/-- What is encoded can be a part of a path. -/
theorem isSegment_encodeURIComponent {s : String} (h : s ≠ "") :
    IsSegment '/' (encodeURIComponent s) := by
  constructor
  · intro hnil
    have hdecode := decodeURIComponent_encodeURIComponent s
    rw [hnil] at hdecode
    exact h (String.toList_eq_nil_iff.1 (Option.some.inj hdecode).symm)
  · intro hmem
    obtain ⟨c, -, hc⟩ := List.mem_flatMap.1 hmem
    split at hc
    · next hkeep =>
        obtain rfl := List.mem_singleton.1 hc
        exact absurd hkeep (by decide)
    · obtain ⟨b, -, hb⟩ := List.mem_flatMap.1 hc
      exact percentByte_no_slash b hb

end Lib
