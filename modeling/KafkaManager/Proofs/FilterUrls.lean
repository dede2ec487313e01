import KafkaManager.Web.MessageFilters

/-!
# The canonical form of a URL with filters

To read the filters of a URL and to write them back gives the URL a form that
doing it again does not change. Reading never throws: an item that is no valid
filter is left out, and a parameter that is no JSON array counts as an empty
one. What is read back of what was written is trimmed and clamped already, and
the parameters that are left out when nothing is active are at their defaults.
-/

namespace KafkaManager.Web

open Lib

/-- What the page makes of the parameters of its URL when it writes its filters
back. -/
def canon (T : NumberText) (params : SearchParams) : Except Thrown SearchParams := do
  let filters ← parseMessageFilters params
  pure (replaceMessageFilterParams T params filters)

/-! ## The JSON filters that count -/

/-- The items that are given, none if the parameter is no JSON array. -/
def givenFilters (params : SearchParams) : List JsValue :=
  match JsValue.parse (getOr params "jsonFilters" "[]").toList with
  | some (.arr items) => items
  | _ => []

/-- An own property of an object. -/
def ownProperty (properties : List (JsString × JsValue)) (key : String) : Option JsValue :=
  (properties.find? fun p => p.1 == JsString.ofText key.toList).map Prod.snd

/-- An item is a filter if its path is a string and its operator a known one. Its
value is empty unless it is a string. -/
def validFilter : JsValue → Option JSONFilter
  | .obj properties =>
      match ownProperty properties "path", readJSONOperator (ownProperty properties "operator") with
      | some (.str path), some operator =>
          some
            { path, operator
              value := match ownProperty properties "value" with | some (.str s) => s | _ => [] }
      | _, _ => none
  | _ => none

def JSONFilter.blank (filter : JSONFilter) : Bool := (trimString filter.path).isEmpty

def JSONFilter.trimmed (filter : JSONFilter) : JSONFilter :=
  { filter with path := trimString filter.path }

/-- The valid ones of the first five that are not blank, trimmed. -/
def keptFilters (params : SearchParams) : List JSONFilter :=
  ((((givenFilters params).take 5).filterMap validFilter).filter fun f => !f.blank).map
    JSONFilter.trimmed

/-! ## Reading -/

theorem filterEntry_eq (index : Nat) (item : JsValue) :
    ∃ entry, filterEntry index item = .ok entry ∧
      entry.map JSONFilterCondition.toJSONFilter = (validFilter item).toList := by
  cases item with
  | null | arr items => exact ⟨[], rfl, rfl⟩
  | bool b => cases b <;> exact ⟨[], rfl, rfl⟩
  | num n => exact ⟨[], by simp [filterEntry, isObject]; rfl, rfl⟩
  | str s => exact ⟨[], by simp [filterEntry, isObject]; rfl, rfl⟩
  | obj properties =>
      have hproperty : ∀ key, property (.obj properties) key = .ok (ownProperty properties key) :=
        fun _ => rfl
      rw [filterEntry, if_neg (by simp [truthy, isObject]), validFilter]
      simp only [hproperty, bind, Except.bind]
      cases ownProperty properties "path" with
      | none => exact ⟨[], rfl, rfl⟩
      | some path =>
          cases path with
          | str path =>
              cases readJSONOperator (ownProperty properties "operator") with
              | none => exact ⟨[], rfl, rfl⟩
              | some operator => exact ⟨_, rfl, rfl⟩
          | null | bool | num | arr | obj => exact ⟨[], rfl, rfl⟩

theorem filterEntries_eq (index : Nat) (items : List JsValue) :
    ∃ entries, filterEntries index items = .ok entries ∧
      entries.map JSONFilterCondition.toJSONFilter = items.filterMap validFilter := by
  induction items generalizing index with
  | nil => exact ⟨[], rfl, rfl⟩
  | cons item items ih =>
      obtain ⟨entry, hentry, hvalid⟩ := filterEntry_eq index item
      obtain ⟨entries, hentries, hrest⟩ := ih (index + 1)
      refine ⟨entry ++ entries, ?_, ?_⟩
      · rw [filterEntries, hentry, hentries]
        rfl
      · rw [List.map_append, hvalid, hrest, List.filterMap_cons]
        cases validFilter item with
        | none => rfl
        | some filter => rfl

theorem parseScanLimit_range (scanLimit : JsNumber) :
    1 ≤ parseScanLimit scanLimit ∧ parseScanLimit scanLimit ≤ 50000 := by
  have hdefault : defaultFilters.scanLimit = 5000 := rfl
  unfold parseScanLimit
  split
  · split
    · omega
    · omega
  · omega
  · omega

/-- Reading does not throw. -/
theorem parseMessageFilters_ok (params : SearchParams) :
    ∃ entries, parseMessageFilters params = .ok { plainFilters params with jsonFilters := entries } ∧
      entries.map JSONFilterCondition.toJSONFilter =
        ((givenFilters params).take 5).filterMap validFilter := by
  simp only [parseMessageFilters, parseJSONFilters, parseJSON, givenFilters]
  cases JsValue.parse (getOr params "jsonFilters" "[]").toList with
  | none => exact ⟨[], rfl, rfl⟩
  | some parsed =>
      cases parsed with
      | arr items =>
          obtain ⟨entries, hentries, hvalid⟩ := filterEntries_eq 0 (items.take 5)
          refine ⟨entries, ?_, hvalid⟩
          simp only [pure, Except.pure, bind, Except.bind, hentries]
          rfl
      | null | bool | num | str | obj => exact ⟨[], rfl, rfl⟩

/-! ## Writing -/

theorem trimText_trimText (s : String) : trimText (trimText s) = trimText s := by
  rw [trimText, trimText, String.toList_ofList, trim_trim]

theorem trimmed_trimmed (filter : JSONFilter) : filter.trimmed.trimmed = filter.trimmed := by
  rw [JSONFilter.trimmed, JSONFilter.trimmed, trimString, trimString, trim_trim]

theorem blank_trimmed (filter : JSONFilter) : filter.trimmed.blank = filter.blank := by
  rw [JSONFilter.blank, JSONFilter.blank, JSONFilter.trimmed, trimString, trimString, trim_trim]

/-- What is written of the JSON filters depends on nothing but what they say. -/
theorem serializableJSONFilters_eq (filters : MessageFilters) :
    serializableJSONFilters filters =
      ((filters.jsonFilters.map JSONFilterCondition.toJSONFilter).filter fun f => !f.blank).map
        JSONFilter.trimmed := by
  rw [List.filter_map, List.map_map]
  rfl

/-- Filters that were written are written again as they are. -/
theorem trimmed_kept (filters : List JSONFilter) :
    (((filters.filter fun f => !f.blank).map JSONFilter.trimmed).filter fun f => !f.blank).map
        JSONFilter.trimmed =
      (filters.filter fun f => !f.blank).map JSONFilter.trimmed := by
  rw [List.filter_eq_self.2, List.map_map]
  · exact List.map_congr_left fun f _ => trimmed_trimmed f
  · intro f hf
    obtain ⟨g, hg, rfl⟩ := List.mem_map.1 hf
    rw [blank_trimmed]
    exact (List.mem_filter.1 hg).2

section

variable (T : NumberText) (filters : MessageFilters)

/-- The parameters stand in one order. -/
theorem filterQueryParams_names :
    ((filterQueryParams T filters).map Prod.fst).Sublist
      ["keyFilter", "keyOperator", "valueFilter", "valueOperator", "jsonFilters", "scanLimit"] := by
  have hoptional : ∀ (c : Prop) [Decidable c] (entries : List (String × String)),
      ((if c then entries else []).map Prod.fst).Sublist (entries.map Prod.fst) := by
    intro c _ entries
    split
    · exact List.Sublist.refl _
    · exact List.nil_sublist _
  simp only [filterQueryParams, List.map_append]
  exact (((hoptional _ _).append (hoptional _ _)).append (hoptional _ _)).append (hoptional _ _)

/-- The filters are behind everything else. -/
theorem replaceMessageFilterParams_eq (params : SearchParams) :
    replaceMessageFilterParams T params filters =
      (params.filter fun p => p.1 ∉ filterParamNames) ++ filterQueryParams T filters := by
  have hnames := filterQueryParams_names T filters
  rw [replaceMessageFilterParams, SearchParams.deleteAll_eq, SearchParams.setAll_new]
  · intro p hp hmem
    have hother := of_decide_eq_true (List.mem_filter.1 hp).2
    have hfilter : ∀ name ∈ ["keyFilter", "keyOperator", "valueFilter", "valueOperator",
        "jsonFilters", "scanLimit"], name ∈ filterParamNames := by decide
    exact hother (hfilter _ (hnames.subset hmem))
  · exact hnames.nodup (by decide)

/-- The parameters of the page beside its filters. -/
theorem otherParams_replace (params : SearchParams) :
    (replaceMessageFilterParams T params filters).filter (fun p => p.1 ∉ filterParamNames) =
      params.filter fun p => p.1 ∉ filterParamNames := by
  have hfilter : ∀ name ∈ ["keyFilter", "keyOperator", "valueFilter", "valueOperator",
      "jsonFilters", "scanLimit"], name ∈ filterParamNames := by decide
  have hnone : (filterQueryParams T filters).filter (fun p => p.1 ∉ filterParamNames) = [] := by
    rw [List.filter_eq_nil_iff]
    intro p hp
    have hmem := (filterQueryParams_names T filters).subset (List.mem_map_of_mem hp)
    simpa using hfilter _ hmem
  rw [replaceMessageFilterParams_eq, List.filter_append, hnone, List.append_nil,
    List.filter_filter]
  simp only [Bool.and_self]

theorem get_replace (params : SearchParams) {name : String} (h : name ∈ filterParamNames) :
    (replaceMessageFilterParams T params filters).get name =
      SearchParams.get (filterQueryParams T filters) name := by
  rw [replaceMessageFilterParams_eq, SearchParams.get_append]
  rintro p hp rfl
  exact of_decide_eq_true (List.mem_filter.1 hp).2 h

/-- Something is filtered. -/
def Active : Prop :=
  trimText filters.keyFilter ≠ "" ∨ trimText filters.valueFilter ≠ "" ∨
    serializableJSONFilters filters ≠ []

instance : Decidable (Active filters) := by
  unfold Active
  infer_instance

/-- What is found in the parameters that are written. -/
theorem get_filterQueryParams :
    SearchParams.get (filterQueryParams T filters) "keyFilter" =
        (if trimText filters.keyFilter ≠ "" then some (trimText filters.keyFilter) else none) ∧
      SearchParams.get (filterQueryParams T filters) "keyOperator" =
        (if trimText filters.keyFilter ≠ "" then some filters.keyOperator.name else none) ∧
      SearchParams.get (filterQueryParams T filters) "valueFilter" =
        (if trimText filters.valueFilter ≠ "" then some (trimText filters.valueFilter) else none) ∧
      SearchParams.get (filterQueryParams T filters) "valueOperator" =
        (if trimText filters.valueFilter ≠ "" then some filters.valueOperator.name else none) ∧
      SearchParams.get (filterQueryParams T filters) "jsonFilters" =
        (if serializableJSONFilters filters ≠ [] then
          some (String.ofList (JsValue.stringify T .compact
            (.arr ((serializableJSONFilters filters).map JSONFilter.toValue)))) else none) ∧
      SearchParams.get (filterQueryParams T filters) "scanLimit" =
        (if Active filters then some (String.ofList (Nat.toDigits 10 filters.scanLimit)) else none) := by
  simp only [filterQueryParams, SearchParams.get_or, SearchParams.get_ite, SearchParams.get_cons,
    Active]
  refine ⟨?_, ?_, ?_, ?_, ?_, ?_⟩
  · simp [SearchParams.get]
  · simp [SearchParams.get]
  · simp [SearchParams.get]
  · simp [SearchParams.get]
  · simp [SearchParams.get]
  · simp [SearchParams.get]

end

/-! ## Reading what was written -/

theorem readJSONOperator_name (operator : JSONOperator) :
    readJSONOperator (some (.str (JsString.ofText operator.name.toList))) = some operator := by
  cases operator <;> rfl

theorem validFilter_toValue (filter : JSONFilter) : validFilter filter.toValue = some filter := by
  have hread := readJSONOperator_name filter.operator
  simp only [JSONFilter.toValue, validFilter]
  generalize hproperties : [(JsString.ofText "path".toList, JsValue.str filter.path),
    (JsString.ofText "operator".toList, .str (JsString.ofText filter.operator.name.toList)),
    (JsString.ofText "value".toList, .str filter.value)] = properties
  have hpath : ownProperty properties "path" = some (.str filter.path) := hproperties ▸ rfl
  have hoperator : ownProperty properties "operator" =
      some (.str (JsString.ofText filter.operator.name.toList)) := hproperties ▸ rfl
  have hvalue : ownProperty properties "value" = some (.str filter.value) := hproperties ▸ rfl
  simp only [hpath, hoperator, hread, hvalue]

theorem regular_toValue (filter : JSONFilter) : filter.toValue.Regular := by
  have hkeys : (["path", "operator", "value"].map fun k => JsString.ofText k.toList).Nodup := by
    decide
  have hplain : ∀ key ∈ ["path", "operator", "value"].map fun k => JsString.ofText k.toList,
      JsValue.arrayIndex key = none := by decide
  exact ⟨hkeys, hplain, trivial, trivial, trivial, trivial⟩

theorem regularItems_toValue (filters : List JSONFilter) :
    JsValue.RegularItems (filters.map JSONFilter.toValue) := by
  induction filters with
  | nil => trivial
  | cons filter filters ih => exact ⟨regular_toValue filter, ih⟩

theorem parse_empty : JsValue.parse [] = none := rfl

theorem parse_emptyArray : JsValue.parse "[]".toList = some (.arr []) := rfl

section

variable (T : NumberText) (filters : MessageFilters) (params : SearchParams)

/-- The items in the URL are the filters that were written. -/
theorem givenFilters_replace :
    givenFilters (replaceMessageFilterParams T params filters) =
      (serializableJSONFilters filters).map JSONFilter.toValue := by
  have hget := (get_filterQueryParams T filters).2.2.2.2.1
  rw [← get_replace T filters params (by decide)] at hget
  have hparse := JsValue.parse_stringify T .compact
    (v := .arr ((serializableJSONFilters filters).map JSONFilter.toValue))
    (regularItems_toValue _)
  rw [givenFilters, getOr, hget]
  by_cases hjson : serializableJSONFilters filters = []
  · rw [hjson, if_neg (by simp), parse_emptyArray]
    rfl
  · rw [if_pos hjson]
    dsimp only
    rw [if_neg, String.toList_ofList, hparse]
    intro hempty
    rw [String.ofList_eq_empty_iff.1 hempty, parse_empty] at hparse
    cases hparse

theorem jsSpace_digit {c : Char} (h : c.isDigit = true) : jsSpace c = false := by
  have hrange : 48 ≤ c.toNat ∧ c.toNat ≤ 57 := by
    simpa [Char.isDigit, UInt32.le_iff_toNat_le] using h
  rw [Bool.eq_false_iff]
  intro hspace
  simp [jsSpace] at hspace
  omega

/-- The scan limit that was written is read. -/
theorem parseScanLimit_toDigits {n : Nat} (hlow : 1 ≤ n) (hhigh : n ≤ 50000) :
    parseScanLimit (numberOf (some (String.ofList (Nat.toDigits 10 n)))) = n := by
  have hdigit : ∀ c ∈ Nat.toDigits 10 n, jsSpace c = false := fun c hc =>
    jsSpace_digit (List.all_eq_true.1 (toDigits_digit n) c hc)
  have htrim : trim jsSpace (Nat.toDigits 10 n) = Nat.toDigits 10 n := by
    refine trim_eq_self ⟨fun h => ?_, fun h => ?_⟩
    · simp [hdigit _ (List.head_mem h)]
    · simp [hdigit _ (List.getLast_mem h)]
  obtain ⟨x, hx, hfinite⟩ := JsNumber.ofRat_natCast (show n < 2 ^ 53 by omega)
  have hpos : (0 : ℚ) < n := by exact_mod_cast hlow
  rw [numberOf, String.toList_ofList, htrim, JsNumber.numericLiteral_toDigits, hfinite,
    parseScanLimit, hx, if_pos hpos, Int.floor_natCast]
  omega

theorem find_keyOperator (operator : KeyOperator) :
    (keyOperators.find? fun o => some operator.name = some o.name) = some operator := by
  cases operator <;> decide

theorem find_valueOperator (operator : ValueOperator) :
    (valueOperators.find? fun o => some operator.name = some o.name) = some operator := by
  cases operator <;> decide

/-- Two filters of which the same is written. -/
structure SameUrl (f g : MessageFilters) : Prop where
  key : trimText f.keyFilter = trimText g.keyFilter
  value : trimText f.valueFilter = trimText g.valueFilter
  json : serializableJSONFilters f = serializableJSONFilters g
  keyOperator : trimText g.keyFilter ≠ "" → f.keyOperator = g.keyOperator
  valueOperator : trimText g.valueFilter ≠ "" → f.valueOperator = g.valueOperator
  scanLimit : Active g → f.scanLimit = g.scanLimit

theorem SameUrl.filterQueryParams {f g : MessageFilters} (h : SameUrl f g) :
    filterQueryParams T f = filterQueryParams T g := by
  have hite : ∀ {c : Prop} [Decidable c] {l l' : List (String × String)}, (c → l = l') →
      (if c then l else []) = if c then l' else [] := by
    intro c _ l l' hl
    split
    · next hc => exact hl hc
    · rfl
  simp only [Web.filterQueryParams, h.key, h.value, h.json]
  refine congrArg₂ (· ++ ·) (congrArg₂ (· ++ ·) (congrArg₂ (· ++ ·) (hite ?_) (hite ?_)) rfl)
    (hite ?_)
  · intro hc
    rw [h.keyOperator hc]
  · intro hc
    rw [h.valueOperator hc]
  · intro hc
    rw [h.scanLimit hc]

theorem SameUrl.count {f g : MessageFilters} (h : SameUrl f g) :
    activeFilterCount f = activeFilterCount g := by
  simp only [activeFilterCount, h.key, h.value, h.json]

/-- A text that is there if it is not blank is read as it was trimmed. -/
theorem trimText_getOr {name text : String} {next : SearchParams}
    (h : next.get name = if trimText text ≠ "" then some (trimText text) else none) :
    trimText (getOr next name "") = trimText text := by
  rw [getOr, h]
  by_cases htext : trimText text = ""
  · rw [if_neg (by simp [htext]), htext]
    rfl
  · rw [if_pos htext]
    dsimp only
    rw [if_neg htext, trimText_trimText]

/-- What is read of a URL that was written is written the same. -/
theorem sameUrl_replace (hlow : 1 ≤ filters.scanLimit) (hhigh : filters.scanLimit ≤ 50000)
    {entries : List JSONFilterCondition}
    (hentries : entries.map JSONFilterCondition.toJSONFilter =
      serializableJSONFilters filters) :
    SameUrl { plainFilters (replaceMessageFilterParams T params filters) with jsonFilters := entries }
      filters := by
  obtain ⟨hkey, hkeyOperator, hvalue, hvalueOperator, -, hlimit⟩ := get_filterQueryParams T filters
  have hget := @get_replace T filters params
  rw [← hget (by decide)] at hkey hkeyOperator hvalue hvalueOperator hlimit
  generalize replaceMessageFilterParams T params filters = next at *
  constructor
  · exact trimText_getOr hkey
  · exact trimText_getOr hvalue
  · rw [serializableJSONFilters_eq, hentries, serializableJSONFilters_eq, trimmed_kept]
  · intro hc
    rw [if_pos hc] at hkeyOperator
    simp only [plainFilters, hkeyOperator, find_keyOperator, Option.getD_some]
  · intro hc
    rw [if_pos hc] at hvalueOperator
    simp only [plainFilters, hvalueOperator, find_valueOperator, Option.getD_some]
  · intro hc
    rw [if_pos hc] at hlimit
    simp only [plainFilters, hlimit]
    exact parseScanLimit_toDigits hlow hhigh

theorem filterMap_toValue (kept : List JSONFilter) :
    (kept.map JSONFilter.toValue).filterMap validFilter = kept := by
  have hvalid : validFilter ∘ JSONFilter.toValue = some := funext validFilter_toValue
  rw [List.filterMap_map, hvalid, List.filterMap_some]

theorem keptFilters_length : (keptFilters params).length ≤ 5 := by
  rw [keptFilters, List.length_map]
  refine (List.length_filter_le _ _).trans ((List.length_filterMap_le _ _).trans ?_)
  rw [List.length_take]
  omega

theorem mem_scanLimit {text : String}
    (h : ("scanLimit", text) ∈ replaceMessageFilterParams T params filters) :
    text = String.ofList (Nat.toDigits 10 filters.scanLimit) := by
  rw [replaceMessageFilterParams_eq] at h
  rcases List.mem_append.1 h with h | h
  · have hname : "scanLimit" ∈ filterParamNames := by decide
    exact absurd hname (of_decide_eq_true (List.mem_filter.1 h).2)
  · have hoptional : ∀ {c : Prop} [Decidable c] {l : List (String × String)} {p : String × String},
        p ∈ (if c then l else []) → p ∈ l := by
      intro c _ l p hp
      split at hp
      · exact hp
      · cases hp
    simp only [filterQueryParams, List.mem_append] at h
    rcases h with ((h | h) | h) | h
    · simpa using hoptional h
    · simpa using hoptional h
    · simpa using hoptional h
    · simpa using hoptional h

end

/-- Writing the filters of a URL back does not throw and gives it a form that
does not change any more. Everything else in the URL stays, of the JSON filters
the valid ones of the first five that are not blank, the scan limit is in its
range, and as much is filtered as before. -/
theorem canon_stable (T : NumberText) (params : SearchParams) :
    ∃ next filters filters',
      parseMessageFilters params = .ok filters ∧ parseMessageFilters next = .ok filters' ∧
      canon T params = .ok next ∧ canon T next = .ok next ∧
      next.filter (fun p => p.1 ∉ filterParamNames) =
        params.filter (fun p => p.1 ∉ filterParamNames) ∧
      givenFilters next = (keptFilters params).map JSONFilter.toValue ∧
      (∀ text, ("scanLimit", text) ∈ next →
        ∃ n : Nat, 1 ≤ n ∧ n ≤ 50000 ∧ text = String.ofList (Nat.toDigits 10 n)) ∧
      activeFilterCount filters' = activeFilterCount filters := by
  obtain ⟨entries, hparse, hentries⟩ := parseMessageFilters_ok params
  generalize hfilters : ({ plainFilters params with jsonFilters := entries } : MessageFilters) =
    filters at hparse
  have hkept : serializableJSONFilters filters = keptFilters params := by
    rw [serializableJSONFilters_eq, ← hfilters, hentries, keptFilters]
  obtain ⟨hlow, hhigh⟩ : 1 ≤ filters.scanLimit ∧ filters.scanLimit ≤ 50000 := by
    rw [← hfilters]
    exact parseScanLimit_range _
  obtain ⟨entries', hparse', hentries'⟩ :=
    parseMessageFilters_ok (replaceMessageFilterParams T params filters)
  have hgiven := givenFilters_replace T filters params
  have hback : entries'.map JSONFilterCondition.toJSONFilter = serializableJSONFilters filters := by
    rw [hentries', hgiven, hkept, ← List.map_take, List.take_of_length_le (keptFilters_length params),
      filterMap_toValue]
  have hsame := sameUrl_replace T filters params hlow hhigh hback
  refine ⟨replaceMessageFilterParams T params filters, filters, _, hparse, hparse', ?_, ?_,
    otherParams_replace T filters params, by rw [hgiven, hkept], ?_, hsame.count⟩
  · rw [canon, hparse]
    rfl
  · have hnext := replaceMessageFilterParams_eq T
      { plainFilters (replaceMessageFilterParams T params filters) with jsonFilters := entries' }
      (replaceMessageFilterParams T params filters)
    rw [hsame.filterQueryParams, otherParams_replace, ← replaceMessageFilterParams_eq] at hnext
    rw [canon, hparse']
    exact congrArg Except.ok hnext
  · intro text htext
    exact ⟨_, hlow, hhigh, mem_scanLimit T filters params htext⟩

end KafkaManager.Web
