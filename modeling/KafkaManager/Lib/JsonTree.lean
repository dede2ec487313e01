import KafkaManager.Lib.Json

/-!
# JSON over any kind of string

The grammar of JSON where a string literal is read as something of a type of
its own, and a writer that may put white space between the tokens. How strings
are read and written is given by a `StringForm`, what is between the tokens by
a `Layout`. What is written is read back.
-/

namespace Lib

/-- How the rest of a string literal behind its first quote is read, and how it
is written. -/
structure StringForm (σ : Type) where
  read : List Char → Option (σ × List Char)
  write : σ → List Char
  read_write : ∀ s after, read (write s ++ after) = some (s, after)

/-- A value. The fields of an object keep their order and may repeat. -/
inductive JsonTree (σ : Type)
  | null
  | bool (b : Bool)
  | num (n : Numeral)
  | str (s : σ)
  | arr (items : List (JsonTree σ))
  | obj (fields : List (σ × JsonTree σ))

/-- The white space in front of an item, which depends on how deep it is, and
behind a colon. -/
structure Layout where
  line : Nat → List Char
  gap : List Char
  line_white : ∀ depth, ∀ c ∈ line depth, Json.isWhite c = true
  gap_white : ∀ c ∈ gap, Json.isWhite c = true

namespace Layout

/-- No white space. -/
def compact : Layout where
  line _ := []
  gap := []
  line_white _ _ h := nomatch h
  gap_white _ h := nomatch h

/-- An item a line, so many blanks further in for each level. -/
def indented (width : Nat) : Layout where
  line depth := '\n' :: List.replicate (width * depth) ' '
  gap := [' ']
  line_white _ c h := by
    rcases List.mem_cons.1 h with rfl | h
    · rfl
    · rw [List.eq_of_mem_replicate h]
      rfl
  gap_white c h := by
    rw [List.mem_singleton.1 h]
    rfl

end Layout

namespace JsonTree

open Json

variable {σ : Type}

mutual

/-- The numbers of a value as they stand in it. -/
def numbers : JsonTree σ → List Numeral
  | null | bool _ | str _ => []
  | num n => [n]
  | arr items => numbersItems items
  | obj fields => numbersFields fields

def numbersItems : List (JsonTree σ) → List Numeral
  | [] => []
  | v :: rest => v.numbers ++ numbersItems rest

def numbersFields : List (σ × JsonTree σ) → List Numeral
  | [] => []
  | (_, v) :: rest => v.numbers ++ numbersFields rest

end

mutual

/-- In no object a key stands twice. -/
def DistinctKeys : JsonTree σ → Prop
  | null | bool _ | num _ | str _ => True
  | arr items => DistinctItems items
  | obj fields => (fields.map Prod.fst).Nodup ∧ DistinctFields fields

def DistinctItems : List (JsonTree σ) → Prop
  | [] => True
  | v :: rest => v.DistinctKeys ∧ DistinctItems rest

def DistinctFields : List (σ × JsonTree σ) → Prop
  | [] => True
  | (_, v) :: rest => v.DistinctKeys ∧ DistinctFields rest

end

section

variable (F : StringForm σ) (L : Layout)

mutual

def write (depth : Nat) : JsonTree σ → List Char
  | null => nullWord
  | bool b => if b then trueWord else falseWord
  | num n => n.literal
  | str s => '"' :: F.write s
  | arr items => '[' :: writeItems depth true items
  | obj fields => '{' :: writeFields depth true fields

def writeItems (depth : Nat) (first : Bool) : List (JsonTree σ) → List Char
  | [] => (if first then [] else L.line depth) ++ [']']
  | v :: rest =>
      (if first then [] else [',']) ++ (L.line (depth + 1) ++
        (v.write (depth + 1) ++ writeItems depth false rest))

def writeFields (depth : Nat) (first : Bool) : List (σ × JsonTree σ) → List Char
  | [] => (if first then [] else L.line depth) ++ ['}']
  | (key, v) :: rest =>
      (if first then [] else [',']) ++ (L.line (depth + 1) ++
        ('"' :: (F.write key ++ (':' :: (L.gap ++
          (v.write (depth + 1) ++ writeFields depth false rest))))))

end

mutual

/-- A value and what is after it. -/
def readValue : Nat → List Char → Option (JsonTree σ × List Char)
  | 0, _ => none
  | fuel + 1, s =>
      match skipWhite s with
      | [] => none
      | c :: rest =>
          if c == '{' then
            match expect '}' (skipWhite rest) with
            | some after => some (obj [], after)
            | none => (readFields fuel rest).map fun (fields, after) => (obj fields, after)
          else if c == '[' then
            match expect ']' (skipWhite rest) with
            | some after => some (arr [], after)
            | none => (readItems fuel rest).map fun (items, after) => (arr items, after)
          else if c == '"' then (F.read rest).map fun (s, after) => (str s, after)
          else if c == 'n' then (expectWord nullWord (c :: rest)).map fun after => (null, after)
          else if c == 't' then
            (expectWord trueWord (c :: rest)).map fun after => (bool true, after)
          else if c == 'f' then
            (expectWord falseWord (c :: rest)).map fun after => (bool false, after)
          else (Numeral.read (c :: rest)).map fun (n, after) => (num n, after)

/-- The items of an array that is not empty, and what is after its bracket. -/
def readItems : Nat → List Char → Option (List (JsonTree σ) × List Char)
  | 0, _ => none
  | fuel + 1, s =>
      match readValue fuel s with
      | none => none
      | some (v, after) =>
          match expect ',' (skipWhite after) with
          | some rest => (readItems fuel rest).map fun (items, after) => (v :: items, after)
          | none => (expect ']' (skipWhite after)).map fun after => ([v], after)

/-- The fields of an object that is not empty, and what is after its brace. -/
def readFields : Nat → List Char → Option (List (σ × JsonTree σ) × List Char)
  | 0, _ => none
  | fuel + 1, s =>
      match (expect '"' (skipWhite s)).bind F.read with
      | none => none
      | some (key, after) =>
          match (expect ':' (skipWhite after)).bind (readValue fuel) with
          | none => none
          | some (v, after) =>
              match expect ',' (skipWhite after) with
              | some rest =>
                  (readFields fuel rest).map fun (fields, after) => ((key, v) :: fields, after)
              | none => (expect '}' (skipWhite after)).map fun after => ([(key, v)], after)

end

/-- The only value of a text. -/
def read (s : List Char) : Option (JsonTree σ) :=
  match readValue F (s.length + 1) s with
  | some (v, after) => if (skipWhite after).isEmpty then some v else none
  | none => none

end

/-! ## Reading what was written -/

theorem skipWhite_append {white : List Char} (h : ∀ c ∈ white, isWhite c = true) (s : List Char) :
    skipWhite (white ++ s) = skipWhite s := by
  rw [skipWhite, List.dropWhile_append_of_pos h]
  rfl

/-- White space, then a character that ends a number. -/
theorem stops_white {white : List Char} (h : ∀ c ∈ white, isWhite c = true) {c : Char}
    (hc : c = ',' ∨ c = ']' ∨ c = '}') (rest : List Char) : Stops (white ++ c :: rest) := by
  cases white with
  | nil =>
      refine stops_cons ?_ rest
      rcases hc with hc | hc | hc
      · exact .inl hc
      · exact .inr (.inl hc)
      · exact .inr (.inr (.inl hc))
  | cons d white => exact stops_cons (.inr (.inr (.inr (h d List.mem_cons_self)))) _

/-- How a number begins. -/
theorem numeral_head (n : Numeral) :
    ∃ c rest, n.literal = c :: rest ∧ isWhite c = false ∧ ∀ d, NumState.start d = none → c ≠ d := by
  obtain ⟨literal, hscans⟩ := n
  cases literal with
  | nil => cases hscans
  | cons c literal =>
      have hstart : ∀ d, NumState.start d = none → c ≠ d := by
        rintro d hd rfl
        simp only [scanNumber, hd, reduceCtorEq] at hscans
      refine ⟨c, literal, rfl, ?_, hstart⟩
      rw [Bool.eq_false_iff]
      intro hwhite
      have hc : c = ' ' ∨ c = '\t' ∨ c = '\n' ∨ c = '\r' := by
        simpa [isWhite, or_assoc] using hwhite
      rcases hc with hc | hc | hc | hc
      all_goals exact hstart _ (by decide) hc

section

variable {F : StringForm σ} {L : Layout}

theorem readValue_white {white : List Char} (h : ∀ c ∈ white, isWhite c = true) (fuel : Nat)
    (s : List Char) : readValue F fuel (white ++ s) = readValue F fuel s := by
  cases fuel with
  | zero => simp only [readValue]
  | succ fuel => simp only [readValue, skipWhite_append h]

theorem readItems_white {white : List Char} (h : ∀ c ∈ white, isWhite c = true) (fuel : Nat)
    (s : List Char) : readItems F fuel (white ++ s) = readItems F fuel s := by
  cases fuel with
  | zero => simp only [readItems]
  | succ fuel => simp only [readItems, readValue_white h]

theorem readFields_white {white : List Char} (h : ∀ c ∈ white, isWhite c = true) (fuel : Nat)
    (s : List Char) : readFields F fuel (white ++ s) = readFields F fuel s := by
  cases fuel with
  | zero => simp only [readFields]
  | succ fuel => simp only [readFields, skipWhite_append h]

/-- How a value begins. -/
theorem write_head (depth : Nat) (v : JsonTree σ) :
    ∃ c rest, v.write F L depth = c :: rest ∧ isWhite c = false ∧ c ≠ ']' := by
  cases v with
  | null => exact ⟨_, _, rfl, by decide, by decide⟩
  | bool b => cases b <;> exact ⟨_, _, rfl, by decide, by decide⟩
  | num n =>
      obtain ⟨c, rest, hliteral, hwhite, hstart⟩ := numeral_head n
      exact ⟨c, rest, hliteral, hwhite, hstart _ (by decide)⟩
  | str s => exact ⟨_, _, rfl, by decide, by decide⟩
  | arr items => exact ⟨_, _, rfl, by decide, by decide⟩
  | obj fields => exact ⟨_, _, rfl, by decide, by decide⟩

theorem write_length (depth : Nat) (v : JsonTree σ) : 1 ≤ (v.write F L depth).length := by
  obtain ⟨c, rest, hwrite, -⟩ := write_head (F := F) (L := L) depth v
  rw [hwrite]
  simp

theorem writeItems_stops (depth : Nat) (items : List (JsonTree σ)) (after : List Char) :
    Stops (writeItems F L depth false items ++ after) := by
  cases items with
  | nil =>
      rw [writeItems, if_neg (by simp), List.append_assoc]
      exact stops_white (L.line_white depth) (.inr (.inl rfl)) _
  | cons v items => exact stops_cons (.inl rfl) _

theorem writeFields_stops (depth : Nat) (fields : List (σ × JsonTree σ)) (after : List Char) :
    Stops (writeFields F L depth false fields ++ after) := by
  cases fields with
  | nil =>
      rw [writeFields, if_neg (by simp), List.append_assoc]
      exact stops_white (L.line_white depth) (.inr (.inr rfl)) _
  | cons field fields => exact stops_cons (.inl rfl) _

theorem readValue_num (n : Numeral) (fuel : Nat) {after : List Char} (hafter : Stops after) :
    readValue F (fuel + 1) (n.literal ++ after) = some (num n, after) := by
  have hread := n.read_append hafter
  obtain ⟨c, rest, hliteral, hwhite, hstart⟩ := numeral_head n
  rw [hliteral, List.cons_append] at hread ⊢
  rw [readValue, skipWhite_cons hwhite]
  simp only [beq_iff_eq, hstart '{' (by decide), hstart '[' (by decide), hstart '"' (by decide),
    hstart 'n' (by decide), hstart 't' (by decide), hstart 'f' (by decide), if_false, hread,
    Option.map_some]

mutual

theorem readValue_write : (v : JsonTree σ) → (depth fuel : Nat) → (after : List Char) →
    (v.write F L depth).length ≤ fuel → Stops after →
      readValue F fuel (v.write F L depth ++ after) = some (v, after)
  | v, depth, 0, _, hfuel, _ => absurd (write_length (F := F) (L := L) depth v) (by omega)
  | null, _, _ + 1, _, _, _ => by
      simp [write, nullWord, readValue, skipWhite, isWhite, expectWord]
  | bool true, _, _ + 1, _, _, _ => by
      simp [write, trueWord, readValue, skipWhite, isWhite, expectWord]
  | bool false, _, _ + 1, _, _, _ => by
      simp [write, falseWord, readValue, skipWhite, isWhite, expectWord]
  | num n, _, fuel + 1, _, _, hafter => readValue_num n fuel hafter
  | str s, _, _ + 1, after, _, _ => by
      have hread := F.read_write s after
      simp [write, readValue, skipWhite, isWhite, hread]
  | arr [], _, _ + 1, _, _, _ => by
      simp [write, writeItems, readValue, skipWhite, isWhite, expect]
  | arr (v :: items), depth, fuel + 1, after, hfuel, _ => by
      obtain ⟨c, rest, hwrite, hwhite, hbracket⟩ := write_head (F := F) (L := L) (depth + 1) v
      have hread := readItems_write v items depth fuel after (by
        simp only [write, writeItems, List.length_cons, List.length_append] at hfuel ⊢
        simp only [if_true, List.length_nil] at hfuel
        omega)
      have htext : write F L depth (arr (v :: items)) ++ after =
          '[' :: (L.line (depth + 1) ++ (v.write F L (depth + 1) ++
            (writeItems F L depth false items ++ after))) := by
        simp [write, writeItems]
      have hexpect : expect ']' (skipWhite (L.line (depth + 1) ++ (v.write F L (depth + 1) ++
          (writeItems F L depth false items ++ after)))) = none := by
        rw [skipWhite_append (L.line_white _), hwrite, List.cons_append, skipWhite_cons hwhite,
          expect_ne hbracket]
      rw [htext, readValue, skipWhite_cons (by decide)]
      simp only [Char.reduceBEq, Bool.false_eq_true, if_false, if_true, hexpect,
        readItems_white (L.line_white _), hread, Option.map_some]
  | obj [], _, _ + 1, _, _, _ => by
      simp [write, writeFields, readValue, skipWhite, isWhite, expect]
  | obj ((key, v) :: fields), depth, fuel + 1, after, hfuel, _ => by
      have hread := readFields_write key v fields depth fuel after (by
        simp only [write, writeFields, List.length_cons, List.length_append] at hfuel ⊢
        simp only [if_true, List.length_nil] at hfuel
        omega)
      have htext : write F L depth (obj ((key, v) :: fields)) ++ after =
          '{' :: (L.line (depth + 1) ++ ('"' :: (F.write key ++ (':' :: (L.gap ++
            (v.write F L (depth + 1) ++ (writeFields F L depth false fields ++ after))))))) := by
        simp [write, writeFields]
      have hexpect : expect '}' (skipWhite (L.line (depth + 1) ++ ('"' :: (F.write key ++ (':' ::
          (L.gap ++ (v.write F L (depth + 1) ++
            (writeFields F L depth false fields ++ after)))))))) = none := by
        rw [skipWhite_append (L.line_white _), skipWhite_cons (by decide), expect_ne (by decide)]
      rw [htext, readValue, skipWhite_cons (by decide)]
      simp only [Char.reduceBEq, Bool.false_eq_true, if_false, if_true, hexpect,
        readFields_white (L.line_white _), hread, Option.map_some]

theorem readItems_write : (v : JsonTree σ) → (items : List (JsonTree σ)) → (depth fuel : Nat) →
    (after : List Char) →
    (v.write F L (depth + 1) ++ writeItems F L depth false items).length ≤ fuel →
      readItems F fuel (v.write F L (depth + 1) ++ (writeItems F L depth false items ++ after)) =
        some (v :: items, after)
  | v, items, depth, 0, after, hfuel => by
      have := write_length (F := F) (L := L) (depth + 1) v
      simp only [List.length_append] at hfuel
      omega
  | v, items, depth, fuel + 1, after, hfuel => by
      have hlength : 1 ≤ (writeItems F L depth false items).length := by
        cases items <;> simp [writeItems]
      simp only [List.length_append] at hfuel
      have hread := readValue_write v (depth + 1) fuel (writeItems F L depth false items ++ after)
        (by omega) (writeItems_stops depth items after)
      rw [readItems, hread]
      cases items with
      | nil =>
          have htail : writeItems F L depth false [] ++ after = L.line depth ++ ']' :: after := by
            simp [writeItems]
          have hskip : skipWhite (L.line depth ++ ']' :: after) = ']' :: after := by
            rw [skipWhite_append (L.line_white _), skipWhite_cons (by decide)]
          simp only [htail, hskip, expect_ne (show ']' ≠ ',' by decide), expect_cons,
            Option.map_some]
      | cons w items =>
          have hitems := readItems_write w items depth fuel after (by
            simp only [writeItems, List.length_append, Bool.false_eq_true, if_false,
              List.length_singleton] at hfuel ⊢
            omega)
          have htail : writeItems F L depth false (w :: items) ++ after =
              ',' :: (L.line (depth + 1) ++ (w.write F L (depth + 1) ++
                (writeItems F L depth false items ++ after))) := by
            simp [writeItems]
          simp only [htail, skipWhite_cons (show isWhite ',' = false by decide), expect_cons,
            readItems_white (L.line_white _), hitems, Option.map_some]

theorem readFields_write : (key : σ) → (v : JsonTree σ) → (fields : List (σ × JsonTree σ)) →
    (depth fuel : Nat) → (after : List Char) →
    ('"' :: (F.write key ++ (':' :: (v.write F L (depth + 1) ++
      writeFields F L depth false fields)))).length ≤ fuel →
      readFields F fuel ('"' :: (F.write key ++ (':' :: (L.gap ++ (v.write F L (depth + 1) ++
        (writeFields F L depth false fields ++ after)))))) = some ((key, v) :: fields, after)
  | key, v, fields, depth, 0, after, hfuel => by
      simp at hfuel
  | key, v, fields, depth, fuel + 1, after, hfuel => by
      have hlength : 1 ≤ (writeFields F L depth false fields).length := by
        cases fields <;> simp [writeFields]
      simp only [List.length_cons, List.length_append] at hfuel
      have hread := readValue_write v (depth + 1) fuel (writeFields F L depth false fields ++ after)
        (by omega) (writeFields_stops depth fields after)
      have hkey : (expect '"' (skipWhite ('"' :: (F.write key ++ (':' :: (L.gap ++
          (v.write F L (depth + 1) ++ (writeFields F L depth false fields ++ after)))))))).bind
            F.read = some (key, ':' :: (L.gap ++ (v.write F L (depth + 1) ++
              (writeFields F L depth false fields ++ after)))) := by
        rw [skipWhite_cons (by decide), expect_cons, Option.bind_some, F.read_write]
      simp only [readFields, hkey, skipWhite_cons (show isWhite ':' = false by decide), expect_cons,
        Option.bind_some, readValue_white L.gap_white, hread]
      cases fields with
      | nil =>
          have htail : writeFields F L depth false [] ++ after = L.line depth ++ '}' :: after := by
            simp [writeFields]
          have hskip : skipWhite (L.line depth ++ '}' :: after) = '}' :: after := by
            rw [skipWhite_append (L.line_white _), skipWhite_cons (by decide)]
          simp only [htail, hskip, expect_ne (show '}' ≠ ',' by decide), expect_cons,
            Option.map_some]
      | cons field fields =>
          obtain ⟨key', w⟩ := field
          have hfields := readFields_write key' w fields depth fuel after (by
            simp only [writeFields, List.length_cons, List.length_append, Bool.false_eq_true,
              if_false] at hfuel ⊢
            omega)
          have htail : writeFields F L depth false ((key', w) :: fields) ++ after =
              ',' :: (L.line (depth + 1) ++ ('"' :: (F.write key' ++ (':' :: (L.gap ++
                (w.write F L (depth + 1) ++
                  (writeFields F L depth false fields ++ after))))))) := by
            simp [writeFields]
          simp only [htail, skipWhite_cons (show isWhite ',' = false by decide), expect_cons,
            readFields_white (L.line_white _), hfields, Option.map_some]

end

/-- Reading what was written gives the value back. -/
theorem read_write (v : JsonTree σ) (depth : Nat) : read F (v.write F L depth) = some v := by
  have hread := readValue_write (F := F) (L := L) v depth ((v.write F L depth).length + 1) []
    (by omega) trivial
  rw [List.append_nil] at hread
  simp only [read, hread]
  rfl

end

end JsonTree

end Lib
