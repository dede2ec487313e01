import KafkaManager.Lib.JsValue
import KafkaManager.Lib.JsonRoundTrip

/-!
# What a server writes and a page reads

`encoding/json` and `JSON.parse` read and write strings in their own ways. What
the first writes the second reads, and the value it makes of it is `ofJson`: the
characters of a string are its UTF-16 units, and numbers are rounded.

The reader of a tree never writes, so it reads by `wireForm`, which writes as
the server does, what it reads by `JsString.form`.
-/

namespace Lib

namespace JsString

/-- The characters of a string, for a surrogate that stands alone U+FFFD. -/
def text (s : JsString) : List Char := joinUnits (s.map fun u => .code u.toNat)

theorem text_append (c : Char) (s : JsString) : text (utf16 c ++ s) = c :: text s := by
  have hvalid : c.toNat < 0xD800 ∨ 0xDFFF < c.toNat ∧ c.toNat < 0x110000 := c.valid
  unfold utf16
  split
  · next hsmall =>
      have hunit : (UInt16.ofNat c.toNat).toNat = c.toNat := by
        rw [UInt16.toNat_ofNat', Nat.mod_eq_of_lt hsmall]
      have hhigh : isHighSurrogate c.toNat = false := by
        simp only [isHighSurrogate, Bool.and_eq_false_iff, decide_eq_false_iff_not]
        omega
      have hlow : isLowSurrogate c.toNat = false := by
        simp only [isLowSurrogate, Bool.and_eq_false_iff, decide_eq_false_iff_not]
        omega
      rw [text, List.map_append, List.map_singleton, List.singleton_append, hunit,
        joinUnits_code hhigh hlow, Char.ofNat_toNat]
      rfl
  · next hlarge =>
      have hfirst : (UInt16.ofNat (0xD800 + (c.toNat - 0x10000) / 0x400)).toNat =
          0xD800 + (c.toNat - 0x10000) / 0x400 := by
        rw [UInt16.toNat_ofNat', Nat.mod_eq_of_lt (by omega)]
      have hsecond : (UInt16.ofNat (0xDC00 + (c.toNat - 0x10000) % 0x400)).toNat =
          0xDC00 + (c.toNat - 0x10000) % 0x400 := by
        rw [UInt16.toNat_ofNat', Nat.mod_eq_of_lt (by omega)]
      have hpair : (isHighSurrogate (0xD800 + (c.toNat - 0x10000) / 0x400) &&
          isLowSurrogate (0xDC00 + (c.toNat - 0x10000) % 0x400)) = true := by
        simp only [isHighSurrogate, isLowSurrogate, Bool.and_eq_true, decide_eq_true_eq]
        omega
      have hchar : 0x10000 + (0xD800 + (c.toNat - 0x10000) / 0x400 - 0xD800) * 1024 +
          (0xDC00 + (c.toNat - 0x10000) % 0x400 - 0xDC00) = c.toNat := by omega
      rw [text, List.map_append, List.map_cons, List.map_singleton, List.cons_append,
        List.singleton_append, hfirst, hsecond, joinUnits, if_pos hpair, hchar,
        Char.ofNat_toNat]
      rfl

@[simp] theorem text_ofText (s : List Char) : text (ofText s) = s := by
  induction s with
  | nil => rfl
  | cons c s ih => rw [ofText, List.flatMap_cons, text_append, ← ofText, ih]

theorem literalUnits_unitOf (c : Char) : literalUnits (unitOf c) = utf16 c := by
  unfold unitOf
  split
  · next h =>
      have hlt := unicodeEscaped_lt (Bool.and_eq_true_iff.1 h).2
      rw [literalUnits, utf16, if_pos (by omega)]
  · rfl

/-- What the server writes of a string. -/
theorem readLiteral_writeChars (s after : List Char) :
    readLiteral (writeChars s ++ after) = some (ofText s, after) := by
  have hunits : (s.map unitOf).flatMap literalUnits = ofText s := by
    rw [List.flatMap_map, ofText]
    exact congrArg (fun f => s.flatMap f) (funext literalUnits_unitOf)
  rw [readLiteral, scanString_writeChars, Option.map_some]
  exact congrArg (fun units => some (units, after)) hunits

/-- The strings of a page, written as the server does. -/
def wireForm : StringForm JsString where
  read := readLiteral
  write s := if ofText s.text = s then writeChars s.text else quote s
  read_write s after := by
    split
    · next h => rw [readLiteral_writeChars, h]
    · exact readLiteral_quote s after

end JsString

/-! ## Reading -/

namespace JsonTree

section

variable {σ : Type} {F G : StringForm σ}

mutual

theorem readValue_congr (h : F.read = G.read) : (fuel : Nat) → (s : List Char) →
    readValue F fuel s = readValue G fuel s
  | 0, _ => rfl
  | fuel + 1, s => by
      simp only [readValue, h, readItems_congr h fuel, readFields_congr h fuel]

theorem readItems_congr (h : F.read = G.read) : (fuel : Nat) → (s : List Char) →
    readItems F fuel s = readItems G fuel s
  | 0, _ => rfl
  | fuel + 1, s => by
      simp only [readItems, readValue_congr h fuel, readItems_congr h fuel]

theorem readFields_congr (h : F.read = G.read) : (fuel : Nat) → (s : List Char) →
    readFields F fuel s = readFields G fuel s
  | 0, _ => rfl
  | fuel + 1, s => by
      have hvalue : readValue F fuel = readValue G fuel := funext (readValue_congr h fuel)
      simp only [readFields, h, hvalue, readFields_congr h fuel]

end

end

end JsonTree

/-! ## The value of a page -/

namespace Json

mutual

/-- A value with the strings of a page. -/
def wireTree : Json → JsonTree JsString
  | null => .null
  | bool b => .bool b
  | num n => .num n
  | str s => .str (JsString.ofText s)
  | arr items => .arr (wireItems items)
  | obj fields => .obj (wireFields fields)

def wireItems : List Json → List (JsonTree JsString)
  | [] => []
  | v :: rest => wireTree v :: wireItems rest

def wireFields : List (List Char × Json) → List (JsString × JsonTree JsString)
  | [] => []
  | (key, v) :: rest => (JsString.ofText key, wireTree v) :: wireFields rest

end

/-- What a page makes of a value of the server. -/
def toJs (v : Json) : JsValue := JsValue.ofTree v.wireTree

theorem wireForm_write (s : List Char) :
    JsString.wireForm.write (JsString.ofText s) = writeChars s := by
  show (if JsString.ofText (JsString.ofText s).text = JsString.ofText s then
    writeChars (JsString.ofText s).text else _) = _
  rw [JsString.text_ofText, if_pos rfl]

mutual

theorem write_wireTree : (v : Json) → (depth : Nat) →
    (wireTree v).write JsString.wireForm .compact depth = v.write
  | null, _ | bool _, _ | num _, _ => rfl
  | str s, depth => by
      rw [wireTree, JsonTree.write, wireForm_write]
      rfl
  | arr items, depth => by
      rw [wireTree, JsonTree.write, write, writeItems_wire]
  | obj fields, depth => by
      rw [wireTree, JsonTree.write, write, writeFields_wire]

theorem writeItems_wire : (items : List Json) → (depth : Nat) → (first : Bool) →
    JsonTree.writeItems JsString.wireForm .compact depth first (wireItems items) =
      writeItems first items
  | [], _, first => by cases first <;> rfl
  | v :: rest, depth, first => by
      rw [wireItems, JsonTree.writeItems, writeItems, write_wireTree, writeItems_wire]
      rfl

theorem writeFields_wire : (fields : List (List Char × Json)) → (depth : Nat) →
    (first : Bool) →
    JsonTree.writeFields JsString.wireForm .compact depth first (wireFields fields) =
      writeFields first fields
  | [], _, first => by cases first <;> rfl
  | (key, v) :: rest, depth, first => by
      rw [wireFields, JsonTree.writeFields, writeFields, write_wireTree, writeFields_wire,
        wireForm_write]
      rfl

end

end Json

/-- What the server writes the page reads, with white space behind it. -/
theorem JsValue.parse_append (v : Json) {white : List Char}
    (hwhite : ∀ c ∈ white, Json.isWhite c = true) :
    JsValue.parse (v.write ++ white) = some v.toJs := by
  have hstops : Stops white := by
    cases white with
    | nil => trivial
    | cons c rest => exact Json.stops_cons (.inr (.inr (.inr (hwhite c (.head _))))) rest
  have hskip : Json.skipWhite white = [] := by
    have happend := JsonTree.skipWhite_append hwhite []
    rwa [List.append_nil] at happend
  have hread : JsonTree.readValue JsString.form ((v.write ++ white).length + 1) (v.write ++ white) =
      some (v.wireTree, white) := by
    rw [← Json.write_wireTree v 0,
      JsonTree.readValue_congr (F := JsString.form) (G := JsString.wireForm) rfl,
      JsonTree.readValue_write _ _ _ _ (by rw [List.length_append]; omega) hstops]
  rw [JsValue.parse, JsonTree.read, hread]
  dsimp only
  rw [hskip]
  rfl

/-- What the server writes the page reads. -/
theorem JsValue.parse_write (v : Json) : JsValue.parse v.write = some v.toJs := by
  have hnone : ∀ c ∈ ([] : List Char), Json.isWhite c = true := fun _ h =>
    absurd h List.not_mem_nil
  have hread := JsValue.parse_append v hnone
  rwa [List.append_nil] at hread

/-- The same with the newline of an encoder. -/
theorem JsValue.parse_line (v : Json) : JsValue.parse (v.write ++ ['\n']) = some v.toJs :=
  JsValue.parse_append v fun _ hc => List.mem_singleton.1 hc ▸ rfl

end Lib
