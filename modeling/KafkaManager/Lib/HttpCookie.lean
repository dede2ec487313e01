import Mathlib.Data.List.Forall2
import KafkaManager.Lib.Segments
import KafkaManager.Lib.Trim

/-!
# Cookies

Three programs have to agree on them: the server writes `Set-Cookie`, the
browser reads that and writes `Cookie`, and the server reads what comes back.
`SetCookie.text` and `readCookie` are those of `net/http`, `Jar` is the
browser's part as RFC 6265 has it, for cookies of one host and path. The
attributes that limit where a cookie is sent, and `Expires`, which `Max-Age`
replaces, are not read.

A jar is in order (`Jar.Ok`) after any lines, and then the server reads of
each name what is kept under it.
-/

namespace Lib

/-- A blank or a tab. -/
def isWsp (c : Char) : Bool := c == ' ' || c == '\t'

/-- `isToken` -/
def isTokenChar (c : Char) : Bool :=
  c.isAlphanum || "!#$%&'*+-.^_|~".toList.contains c || c.toNat == 96

def isToken (s : List Char) : Bool := !s.isEmpty && s.all isTokenChar

/-- `validCookieValueByte` -/
def isCookieChar (c : Char) : Bool :=
  ' ' ≤ c && c.toNat < 127 && c != '"' && c != ';' && c != '\\'

/-- What is before the first such character, and what is after it. -/
def cutAt (sep : Char) (s : List Char) : List Char × List Char :=
  (s.takeWhile (· != sep), (s.dropWhile (· != sep)).drop 1)

/-! ## The server -/

structure SetCookie where
  name : List Char
  value : List Char
  path : List Char
  /-- As it is written, nothing if there is none. -/
  expires : List Char
  maxAge : Int
  httpOnly : Bool
  secure : Bool
  sameSiteStrict : Bool

namespace SetCookie

variable (c : SetCookie)

/-- `sanitizeCookieValue` -/
def cleanValue : List Char :=
  let value := c.value.filter isCookieChar
  if value.contains ' ' || value.contains ',' then '"' :: (value ++ ['"']) else value

/-- What follows the name and the value, in the order of `String`. -/
def attributes : List (List Char) :=
  (if c.path.isEmpty then [] else ["Path=".toList ++ c.path.filter fun b =>
    ' ' ≤ b && b.toNat < 127 && b != ';']) ++
  (if c.expires.isEmpty then [] else ["Expires=".toList ++ c.expires]) ++
  (if 0 < c.maxAge then ["Max-Age=".toList ++ (toString c.maxAge).toList]
    else if c.maxAge < 0 then ["Max-Age=0".toList] else []) ++
  (if c.httpOnly then ["HttpOnly".toList] else []) ++
  (if c.secure then ["Secure".toList] else []) ++
  if c.sameSiteStrict then ["SameSite=Strict".toList] else []

/-- `String`, for a name that is a token. -/
def text : List Char :=
  c.name ++ '=' :: c.cleanValue ++ c.attributes.flatMap fun av => ';' :: ' ' :: av

end SetCookie

/-- `parseCookieValue` -/
def parseCookieValue (raw : List Char) : Option (List Char) :=
  let value :=
    match raw with
    | '"' :: rest => if rest.getLast? = some '"' then rest.dropLast else raw
    | _ => raw
  if value.all isCookieChar then some value else none

/-- One part of a line of `Cookie`. -/
def readCookiePart (name part : List Char) : Option (List Char) :=
  let (key, value) := cutAt '=' (trim isWsp part)
  if isToken (trim isWsp key) && trim isWsp key == name then parseCookieValue value else none

/-- `Request.Cookie` -/
def readCookie (name : List Char) (lines : List (List Char)) : Option (List Char) :=
  lines.findSome? fun line =>
    ((trim isWsp line).splitOn ';').findSome? (readCookiePart name)

/-! ## The browser -/

/-- The names with the values, the oldest first. -/
abbrev Jar : Type := List (List Char × List Char)

/-- The value of a `Max-Age` that is a number. -/
def readMaxAge (av : List Char) : Option (List Char) :=
  let value := trim isWsp (cutAt '=' av).2
  if (trim isWsp (cutAt '=' av).1).map Char.toLower == "max-age".toList then
    match value with
    | '-' :: digits => if digits.all Char.isDigit then some value else none
    | digits => if !digits.isEmpty && digits.all Char.isDigit then some value else none
  else none

/-- No time is left. -/
def isOver (maxAge : List Char) : Bool := maxAge.head? == some '-' || maxAge.all (· == '0')

/-- The name and the value of a line of `Set-Cookie`, and whether the cookie is
over. -/
def readSetCookie (line : List Char) : Option (List Char × List Char × Bool) :=
  match line.splitOn ';' with
  | [] => none
  | pair :: avs =>
      let name := trim isWsp (cutAt '=' pair).1
      if !pair.contains '=' || name.isEmpty then none
      else some (name, trim isWsp (cutAt '=' pair).2, (avs.filterMap readMaxAge).getLast?.any isOver)

namespace Jar

/-- A line of `Set-Cookie`. -/
def receive (jar : Jar) (line : List Char) : Jar :=
  match readSetCookie line with
  | none => jar
  | some (name, _, true) => jar.filter fun kept => kept.1 != name
  | some (name, value, false) =>
      if jar.any fun kept => kept.1 == name then
        jar.map fun kept => if kept.1 == name then (name, value) else kept
      else jar ++ [(name, value)]

/-- The lines of `Cookie` that are sent. -/
def header (jar : Jar) : List (List Char) :=
  if jar.isEmpty then []
  else [[';', ' '].intercalate (jar.map fun kept => kept.1 ++ '=' :: kept.2)]

def value (jar : Jar) (name : List Char) : Option (List Char) :=
  (jar.find? fun kept => kept.1 == name).map Prod.snd

/-- What is kept is what can be sent. -/
structure Ok (jar : Jar) : Prop where
  distinct : (jar.map Prod.fst).Nodup
  names : ∀ kept ∈ jar, kept.1 ≠ [] ∧ '=' ∉ kept.1 ∧ ';' ∉ kept.1 ∧ Trimmed isWsp kept.1
  values : ∀ kept ∈ jar, ';' ∉ kept.2 ∧ Trimmed isWsp kept.2

end Jar

/-! ## Cutting -/

section

variable {c sep : Char} {s t : List Char}

theorem cutAt_append (hs : sep ∉ s) : cutAt sep (s ++ sep :: t) = (s, t) := by
  have hall : ∀ b ∈ s, (b != sep) = true := fun b hb => bne_iff_ne.2 fun heq => hs (heq ▸ hb)
  rw [cutAt, List.takeWhile_append_of_pos hall, List.dropWhile_append_of_pos hall]
  simp

theorem cutAt_mem : (∀ b ∈ (cutAt sep s).1, b ∈ s ∧ b ≠ sep) ∧ ∀ b ∈ (cutAt sep s).2, b ∈ s := by
  refine ⟨fun b hb => ⟨(List.takeWhile_prefix _).subset hb, ?_⟩, fun b hb => ?_⟩
  · exact bne_iff_ne.1 (List.mem_takeWhile_imp (p := fun c => c != sep) hb)
  · exact (List.dropWhile_suffix _).subset ((List.drop_suffix _ _).subset hb)

theorem trim_subset {p : Char → Bool} (h : c ∈ trim p s) : c ∈ s :=
  (List.dropWhile_suffix p).subset ((List.rdropWhile_prefix p _).subset h)

end

/-! ## What is kept -/

namespace Jar

variable {jar : Jar} {line name value : List Char}

/-- What is read from a line can be kept. -/
theorem readSetCookie_ok {expired : Bool} (h : readSetCookie line = some (name, value, expired)) :
    (name ≠ [] ∧ '=' ∉ name ∧ ';' ∉ name ∧ Trimmed isWsp name) ∧
      ';' ∉ value ∧ Trimmed isWsp value := by
  unfold readSetCookie at h
  split at h
  · cases h
  · next pair avs hsplit =>
      dsimp only at h
      split at h
      · cases h
      · next hpair =>
          obtain ⟨rfl, hrest⟩ := Prod.mk.inj (Option.some.inj h)
          obtain ⟨rfl, -⟩ := Prod.mk.inj hrest
          have hsemi : ';' ∉ pair := by
            intro hmem
            have hpart : pair ∈ line.splitOnP (· == ';') := by
              rw [← List.splitOn_eq_splitOnP, hsplit]
              exact .head _
            have hsegment := (mem_splitOnP hpart).2 ';' hmem
            cases hsegment
          simp only [Bool.or_eq_true, not_or, Bool.not_eq_true, List.isEmpty_eq_false_iff] at hpair
          refine ⟨⟨hpair.2, fun hmem => ?_, fun hmem => ?_, trimmed_trim _ _⟩, fun hmem => ?_,
            trimmed_trim _ _⟩
          · exact (cutAt_mem.1 _ (trim_subset hmem)).2 rfl
          · exact hsemi (cutAt_mem.1 _ (trim_subset hmem)).1
          · exact hsemi (cutAt_mem.2 _ (trim_subset hmem))

theorem ok_nil : Ok [] := ⟨List.nodup_nil, by simp, by simp⟩

theorem Ok.receive (h : jar.Ok) (line : List Char) : (jar.receive line).Ok := by
  unfold Jar.receive
  split
  · exact h
  · exact ⟨h.distinct.sublist ((List.filter_sublist).map _),
      fun kept hkept => h.names kept (List.mem_of_mem_filter hkept),
      fun kept hkept => h.values kept (List.mem_of_mem_filter hkept)⟩
  · next name value hread =>
      obtain ⟨hname, hvalue⟩ := readSetCookie_ok hread
      split
      · -- the names stay as they are
        have hnames : (jar.map fun kept => if kept.1 == name then (name, value) else kept).map
            Prod.fst = jar.map Prod.fst := by
          rw [List.map_map]
          refine List.map_congr_left fun kept _ => ?_
          show (if kept.1 == name then (name, value) else kept).1 = kept.1
          split
          · next heq => exact (eq_of_beq heq).symm
          · rfl
        refine ⟨hnames ▸ h.distinct, fun kept hkept => ?_, fun kept hkept => ?_⟩
        · obtain ⟨old, hold, rfl⟩ := List.mem_map.1 hkept
          split
          · exact hname
          · exact h.names old hold
        · obtain ⟨old, hold, rfl⟩ := List.mem_map.1 hkept
          split
          · exact hvalue
          · exact h.values old hold
      · next hnew =>
          refine ⟨?_, fun kept hkept => ?_, fun kept hkept => ?_⟩
          · rw [List.map_append, List.nodup_append]
            refine ⟨h.distinct, by simp, fun a ha b hb hab => ?_⟩
            obtain ⟨kept, hkept, rfl⟩ := List.mem_map.1 ha
            obtain rfl := List.mem_singleton.1 hb
            exact hnew (List.any_eq_true.2 ⟨kept, hkept, beq_iff_eq.2 hab⟩)
          · rcases List.mem_append.1 hkept with hkept | hkept
            · exact h.names kept hkept
            · obtain rfl := List.mem_singleton.1 hkept
              exact hname
          · rcases List.mem_append.1 hkept with hkept | hkept
            · exact h.values kept hkept
            · obtain rfl := List.mem_singleton.1 hkept
              exact hvalue

theorem value_append {rest : Jar} (name : List Char) :
    Jar.value (jar ++ rest) name = (jar.value name).or (Jar.value rest name) := by
  rw [Jar.value, List.find?_append, Jar.value, Jar.value]
  cases jar.find? fun kept => kept.1 == name <;> rfl

theorem value_cons (kept : List Char × List Char) (name : List Char) :
    Jar.value (kept :: jar) name = if kept.1 = name then some kept.2 else jar.value name := by
  by_cases h : kept.1 = name
  · simp [Jar.value, h]
  · rw [if_neg h, Jar.value, List.find?_cons_of_neg (by simpa using h)]
    rfl

theorem value_filter (jar : Jar) (name name' : List Char) :
    Jar.value (jar.filter fun kept => kept.1 != name') name =
      if name' = name then none else jar.value name := by
  induction jar with
  | nil => split <;> rfl
  | cons kept jar ih =>
      rw [List.filter_cons]
      by_cases hkept : kept.1 = name'
      · rw [if_neg (by simp [hkept]), ih, value_cons]
        split
        · rfl
        · next hne => rw [if_neg fun heq => hne (hkept.symm.trans heq)]
      · rw [if_pos (by simp [hkept]), value_cons, ih, value_cons]
        by_cases hname : name' = name
        · rw [if_pos hname, if_pos hname, if_neg fun heq => hkept (heq.trans hname.symm)]
        · rw [if_neg hname, if_neg hname]

theorem value_map (jar : Jar) (name name' value : List Char) :
    Jar.value (jar.map fun kept => if kept.1 == name' then (name', value) else kept) name =
      if name' = name then (jar.value name).map fun _ => value else jar.value name := by
  induction jar with
  | nil => split <;> rfl
  | cons kept jar ih =>
      rw [List.map_cons, value_cons, ih, value_cons]
      by_cases hname : name' = name
      · by_cases hkept : kept.1 = name <;> simp [hname, hkept]
      · by_cases hkept : kept.1 = name'
        · have hother : ¬kept.1 = name := fun heq => hname (hkept.symm.trans heq)
          simp [hname, hkept]
        · simp [hname, hkept]

/-- What is kept under a name after a line. -/
theorem value_receive (jar : Jar) (line name : List Char) :
    (jar.receive line).value name =
      match readSetCookie line with
      | none => jar.value name
      | some (name', value, expired) =>
          if name' = name then (if expired then none else some value) else jar.value name := by
  unfold receive
  match readSetCookie line with
  | none => rfl
  | some (name', value, true) => exact value_filter jar name name'
  | some (name', value, false) =>
      dsimp only
      split
      · next hany =>
          rw [value_map]
          split
          · next heq =>
              obtain ⟨kept, hkept, hsame⟩ := List.any_eq_true.1 hany
              have hfound : (jar.find? fun kept => kept.1 == name).isSome = true :=
                List.find?_isSome.2 ⟨kept, hkept, by rw [← heq]; exact hsame⟩
              obtain ⟨found, hfound⟩ := Option.isSome_iff_exists.1 hfound
              simp [Jar.value, hfound]
          · rfl
      · next hnew =>
          rw [value_append, value_cons]
          by_cases hname : name' = name
          · have hnone : jar.value name = none := by
              rw [Jar.value, Option.map_eq_none_iff, List.find?_eq_none]
              intro kept hkept hsame
              exact hnew (List.any_eq_true.2 ⟨kept, hkept, by rw [hname]; exact hsame⟩)
            simp [hname, hnone]
          · simp [hname, Jar.value]

end Jar

/-! ## What comes back -/

section

variable {c : Char} {name part : List Char} {jar : Jar}

theorem trimmed_between {p : Char → Bool} {front back : List Char} (hfront : Trimmed p front)
    (hne : front ≠ []) (middle : List Char) (hback : Trimmed p back) (hne' : back ≠ []) :
    Trimmed p (front ++ (middle ++ back)) := by
  refine ⟨fun h => ?_, fun h => ?_⟩
  · rw [List.head_append_of_ne_nil hne]
    exact hfront.1 hne
  · rw [List.getLast_append_of_ne_nil h (by simp [hne']),
      List.getLast_append_of_ne_nil (by simp [hne']) hne']
    exact hback.2 hne'

theorem trim_blanks {p : Char → Bool} {blanks s : List Char} (hblanks : ∀ b ∈ blanks, p b = true)
    (hs : Trimmed p s) : trim p (blanks ++ s) = s := by
  have hfront := trim_eq_self hs
  rw [trim, List.dropWhile_append_of_pos hblanks]
  exact hfront

/-- A kept cookie as it is sent. -/
def sent (kept : List Char × List Char) : List Char := kept.1 ++ '=' :: kept.2

theorem trimmed_sent (hok : jar.Ok) {kept : List Char × List Char} (hkept : kept ∈ jar) :
    Trimmed isWsp (sent kept) ∧ sent kept ≠ [] ∧ ';' ∉ sent kept := by
  obtain ⟨hne, -, hsemi, hname⟩ := hok.names kept hkept
  obtain ⟨hsemi', hvalue⟩ := hok.values kept hkept
  have hequals : Trimmed isWsp ['='] := ⟨by simp [isWsp], by simp [isWsp]⟩
  refine ⟨?_, by simp [sent], by simp [sent, hsemi, hsemi']⟩
  by_cases hempty : kept.2 = []
  · rw [sent, hempty]
    exact trimmed_between hname hne [] hequals (by simp)
  · exact trimmed_between hname hne ['='] hvalue hempty

/-- A name and a value after blanks. -/
theorem readCookiePart_sent (hok : jar.Ok) {kept : List Char × List Char} (hkept : kept ∈ jar)
    (hname : isToken name = true) (blanks : List Char) (hblanks : ∀ b ∈ blanks, isWsp b = true) :
    readCookiePart name (blanks ++ sent kept) =
      if kept.1 = name then parseCookieValue kept.2 else none := by
  obtain ⟨-, heq, -, htrimmed⟩ := hok.names kept hkept
  have hcut : cutAt '=' (sent kept) = (kept.1, kept.2) := cutAt_append heq
  rw [readCookiePart, trim_blanks hblanks (trimmed_sent hok hkept).1, hcut]
  dsimp only
  rw [trim_eq_self htrimmed]
  by_cases h : kept.1 = name
  · simp [h, hname]
  · simp [h]

/-- Parts with a semicolon and a blank between them. -/
theorem intercalate_blank (first : List Char) (rest : List (List Char)) :
    [';', ' '].intercalate (first :: rest) = first ++ rest.flatMap fun next => ';' :: ' ' :: next := by
  induction rest generalizing first with
  | nil => simp
  | cons second rest ih =>
      rw [List.intercalate_cons_cons, ih second, List.flatMap_cons]
      simp

theorem splitOn_blank {first : List Char} {rest : List (List Char)} (hfirst : ';' ∉ first)
    (hrest : ∀ next ∈ rest, ';' ∉ next) :
    (first ++ rest.flatMap fun next => ';' :: ' ' :: next).splitOn ';' =
      first :: rest.map (' ' :: ·) := by
  have hjoin : first ++ (rest.flatMap fun next => ';' :: ' ' :: next) =
      [';'].intercalate (first :: rest.map (' ' :: ·)) := by
    rw [intercalate_cons, List.flatMap_map]
  rw [hjoin]
  refine List.splitOn_intercalate ';' (fun part hpart => ?_) (by simp)
  rcases List.mem_cons.1 hpart with rfl | hpart
  · exact hfirst
  · obtain ⟨next, hnext, rfl⟩ := List.mem_map.1 hpart
    simpa using hrest next hnext

theorem trimmed_joined {first : List Char} {rest : List (List Char)}
    (h : ∀ part ∈ first :: rest, Trimmed isWsp part ∧ part ≠ []) :
    Trimmed isWsp ([';', ' '].intercalate (first :: rest)) ∧
      [';', ' '].intercalate (first :: rest) ≠ [] := by
  induction rest generalizing first with
  | nil =>
      rw [List.intercalate_singleton]
      exact h first (.head _)
  | cons second rest ih =>
      obtain ⟨hfirst, hne⟩ := h first (.head _)
      obtain ⟨hback, hne'⟩ := ih fun part hpart => h part (.tail _ hpart)
      rw [List.intercalate_cons_cons, List.append_assoc]
      exact ⟨trimmed_between hfirst hne _ hback hne', by simp [hne]⟩

/-- Of each name there is one part at most. -/
theorem findSome?_sent {parts : List (List Char)}
    (hread : List.Forall₂ (fun kept part => readCookiePart name part =
      if kept.1 = name then parseCookieValue kept.2 else none) jar parts)
    (hdistinct : (jar.map Prod.fst).Nodup) :
    parts.findSome? (readCookiePart name) = (jar.value name).bind parseCookieValue := by
  induction hread with
  | nil => rfl
  | @cons kept part jar parts hpart hparts ih =>
      obtain ⟨hnot, hrest⟩ := List.nodup_cons.1 hdistinct
      rw [List.findSome?_cons, hpart, ih hrest, Jar.value_cons]
      by_cases h : kept.1 = name
      · have hnone : Jar.value jar name = none := by
          rw [Jar.value, Option.map_eq_none_iff, List.find?_eq_none]
          intro kept' hkept' hsame
          exact hnot (List.mem_map.2 ⟨kept', hkept', (eq_of_beq hsame).trans h.symm⟩)
        rw [if_pos h, if_pos h, hnone]
        cases hparse : parseCookieValue kept.2 <;> simp [hparse]
      · rw [if_neg h, if_neg h]

/-- The server reads what is kept. -/
theorem readCookie_header (hok : jar.Ok) (hname : isToken name = true) :
    readCookie name jar.header = (jar.value name).bind parseCookieValue := by
  cases jar with
  | nil => rfl
  | cons kept jar =>
      have hheader : Jar.header (kept :: jar) = [[';', ' '].intercalate (sent kept :: jar.map sent)] :=
        rfl
      have hparts : ∀ part ∈ sent kept :: jar.map sent,
          Trimmed isWsp part ∧ part ≠ [] ∧ ';' ∉ part := by
        intro part hpart
        have hmem : part ∈ (kept :: jar).map sent := hpart
        obtain ⟨kept', hkept', rfl⟩ := List.mem_map.1 hmem
        exact trimmed_sent hok hkept'
      have htrimmed := (trimmed_joined fun part hpart =>
        ⟨(hparts part hpart).1, (hparts part hpart).2.1⟩).1
      have hfirst := readCookiePart_sent hok (.head _) hname [] (by simp)
      have hrest : List.Forall₂ (fun kept part => readCookiePart name part =
          if kept.1 = name then parseCookieValue kept.2 else none) jar
          ((jar.map sent).map (' ' :: ·)) := by
        rw [List.map_map, List.forall₂_map_right_iff, List.forall₂_same]
        intro kept' hkept'
        exact readCookiePart_sent hok (.tail _ hkept') hname [' '] (by simp [isWsp])
      rw [hheader, readCookie, List.findSome?_singleton, trim_eq_self htrimmed, intercalate_blank,
        splitOn_blank (hparts _ (.head _)).2.2 fun next hnext => (hparts next (.tail _ hnext)).2.2]
      exact findSome?_sent (.cons hfirst hrest) hok.distinct

/-! ## What is set -/

/-- A name and a value the server can write as they are. -/
structure SetCookie.Plain (c : SetCookie) : Prop where
  name : isToken c.name = true
  value : ∀ b ∈ c.value, isCookieChar b = true ∧ b ≠ ' ' ∧ b ≠ ','

theorem isTokenChar_ne {c : Char} (h : isTokenChar c = true) :
    c ≠ '=' ∧ c ≠ ';' ∧ isWsp c = false := by
  refine ⟨?_, ?_, ?_⟩
  · rintro rfl
    exact absurd h (by decide)
  · rintro rfl
    exact absurd h (by decide)
  · cases hwsp : isWsp c with
    | false => rfl
    | true =>
        rcases Bool.or_eq_true_iff.1 hwsp with hc | hc <;>
          exact absurd (eq_of_beq hc ▸ h) (by decide)

theorem trimmed_of_all {p : Char → Bool} {s : List Char} (h : ∀ b ∈ s, p b = false) :
    Trimmed p s :=
  ⟨fun hne => by rw [h _ (List.head_mem hne)]; decide,
    fun hne => by rw [h _ (List.getLast_mem hne)]; decide⟩

namespace SetCookie

variable {c : SetCookie}

theorem Plain.token (h : c.Plain) : c.name ≠ [] ∧ '=' ∉ c.name ∧ ';' ∉ c.name ∧
    Trimmed isWsp c.name := by
  obtain ⟨hne, hall⟩ := Bool.and_eq_true_iff.1 h.name
  have hchars : ∀ b ∈ c.name, b ≠ '=' ∧ b ≠ ';' ∧ isWsp b = false := fun b hb =>
    isTokenChar_ne (List.all_eq_true.1 hall b hb)
  refine ⟨by simpa using hne, fun hmem => (hchars _ hmem).1 rfl, fun hmem => (hchars _ hmem).2.1 rfl,
    trimmed_of_all fun b hb => (hchars b hb).2.2⟩

theorem Plain.kept (h : c.Plain) : c.cleanValue = c.value ∧ ';' ∉ c.value ∧
    Trimmed isWsp c.value := by
  have hfilter : c.value.filter isCookieChar = c.value :=
    List.filter_eq_self.2 fun b hb => (h.value b hb).1
  have hblank : ' ' ∉ c.value := fun hmem => (h.value _ hmem).2.1 rfl
  have hcomma : ',' ∉ c.value := fun hmem => (h.value _ hmem).2.2 rfl
  refine ⟨?_, fun hmem => absurd (h.value _ hmem).1 (by decide), trimmed_of_all fun b hb => ?_⟩
  · simp [cleanValue, hfilter, hblank, hcomma]
  · cases hwsp : isWsp b with
    | false => rfl
    | true =>
        rcases Bool.or_eq_true_iff.1 hwsp with hc | hc
        · exact absurd (eq_of_beq hc) (h.value b hb).2.1
        · exact absurd (eq_of_beq hc ▸ (h.value b hb).1) (by decide)

theorem readMaxAge_named (key : List Char) {value : List Char} (hkey : '=' ∉ key)
    (h : (trim isWsp key).map Char.toLower ≠ "max-age".toList) :
    readMaxAge (key ++ '=' :: value) = none := by
  rw [readMaxAge, cutAt_append hkey]
  exact if_neg fun heq => h (eq_of_beq heq)

theorem readMaxAge_rest {avs : List (List Char)} (h : ∀ av ∈ avs, readMaxAge (' ' :: av) = none) :
    (avs.map (' ' :: ·)).filterMap readMaxAge = [] := by
  rw [List.filterMap_eq_nil_iff]
  intro part hpart
  obtain ⟨av, hav, rfl⟩ := List.mem_map.1 hpart
  exact h av hav

/-- An attribute without a value. -/
theorem readMaxAge_flag {b : Bool} (flag : List Char) (h : readMaxAge (' ' :: flag) = none) :
    ((if b then [flag] else []).map (' ' :: ·)).filterMap readMaxAge = [] := by
  refine readMaxAge_rest fun av hav => ?_
  split at hav
  · rw [List.mem_singleton.1 hav, h]
  · cases hav

/-- The attributes are whole parts, and one of them at most ends the cookie. -/
theorem attributes_read (hage : c.maxAge ≤ 0) (hexpires : ';' ∉ c.expires) :
    (∀ av ∈ c.attributes, ';' ∉ av) ∧
      (c.attributes.map (' ' :: ·)).filterMap readMaxAge =
        if c.maxAge < 0 then ["0".toList] else [] := by
  have hpath : ∀ p, readMaxAge (' ' :: ("Path=".toList ++ p)) = none := fun p =>
    readMaxAge_named " Path".toList (by decide) (by decide)
  have hdate : ∀ p, readMaxAge (' ' :: ("Expires=".toList ++ p)) = none := fun p =>
    readMaxAge_named " Expires".toList (by decide) (by decide)
  constructor
  · intro av hav
    simp only [attributes, List.mem_append] at hav
    rcases hav with ((((hav | hav) | hav) | hav) | hav) | hav
    · split at hav
      · cases hav
      · rw [List.mem_singleton.1 hav]
        simp
    · split at hav
      · cases hav
      · rw [List.mem_singleton.1 hav]
        simpa using hexpires
    · rw [if_neg (Int.not_lt.2 hage)] at hav
      split at hav
      · rw [List.mem_singleton.1 hav]
        decide
      · cases hav
    all_goals
      split at hav
      · rw [List.mem_singleton.1 hav]
        decide
      · cases hav
  · have hpaths : ((if c.path.isEmpty then [] else ["Path=".toList ++ c.path.filter fun b =>
        ' ' ≤ b && b.toNat < 127 && b != ';']).map (' ' :: ·)).filterMap readMaxAge = [] := by
      refine readMaxAge_rest fun av hav => ?_
      split at hav
      · cases hav
      · rw [List.mem_singleton.1 hav]
        exact hpath _
    have hdates : ((if c.expires.isEmpty then [] else ["Expires=".toList ++ c.expires]).map
        (' ' :: ·)).filterMap readMaxAge = [] := by
      refine readMaxAge_rest fun av hav => ?_
      split at hav
      · cases hav
      · rw [List.mem_singleton.1 hav]
        exact hdate _
    simp only [attributes, List.map_append, List.filterMap_append]
    rw [readMaxAge_flag "HttpOnly".toList (by decide),
      readMaxAge_flag "Secure".toList (by decide),
      readMaxAge_flag "SameSite=Strict".toList (by decide),
      if_neg (Int.not_lt.2 hage), hpaths, hdates]
    split
    · decide
    · rfl

/-- What the server has set it reads. -/
theorem parseCookieValue_plain (h : c.Plain) : parseCookieValue c.value = some c.value := by
  have hall : c.value.all isCookieChar = true := List.all_eq_true.2 fun b hb => (h.value b hb).1
  unfold parseCookieValue
  split
  · next rest heq =>
      rw [heq] at hall
      exact absurd (List.all_eq_true.1 hall _ (.head _)) (by decide)
  · exact if_pos hall

/-- The browser reads what the server sets. -/
theorem readSetCookie_text (h : c.Plain) (hage : c.maxAge ≤ 0) (hexpires : ';' ∉ c.expires) :
    readSetCookie c.text = some (c.name, c.value, decide (c.maxAge < 0)) := by
  obtain ⟨hne, heq, hsemi, hname⟩ := h.token
  obtain ⟨hclean, hsemi', hvalue⟩ := h.kept
  obtain ⟨hwhole, hread⟩ := attributes_read hage hexpires
  have hpair : ';' ∉ c.name ++ '=' :: c.value := by simp [hsemi, hsemi']
  have hcontains : (c.name ++ '=' :: c.value).contains '=' = true := by simp
  have hempty : c.name.isEmpty = false := by simpa using hne
  unfold readSetCookie
  rw [text, hclean, splitOn_blank hpair hwhole]
  dsimp only
  rw [cutAt_append heq, trim_eq_self hname, trim_eq_self hvalue, hcontains, hempty, hread]
  by_cases hover : c.maxAge < 0
  · simp [hover, isOver]
  · simp [hover]

end SetCookie

end

end Lib
