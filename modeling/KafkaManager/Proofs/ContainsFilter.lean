import KafkaManager.Lib.JsonText
import KafkaManager.Proofs.Collector

/-!
# Filters that look for a text inside a value

A string is looked through as it is. An object or an array is looked through as
it is written, and there `<`, `>` and `&` do not occur: what is looked for is
found inside it if and only if it has none of them.
-/

namespace KafkaManager.Message

open Lib Kafka

/-- The filter `contains` at a path. -/
def containsFilter (path text : String) : JSONFilter :=
  { path, operator := "contains", value := text }

/-- The value at the path is a string. -/
def isText : Json → Bool
  | .str _ => true
  | _ => false

theorem matchJSON_contains (F : Floats) (v : Json) (path text : String) :
    matchJSON F (some v) (containsFilter path text) = true ↔ text.toList <:+: jsonText v := by
  have hoperator : matchJSON F (some v) (containsFilter path text) =
      (cut text.toList (jsonText v)).isSome := by
    simp [matchJSON, containsFilter]
  rw [hoperator]
  refine ⟨fun h => ?_, fun h => cut_of_infix h⟩
  obtain ⟨⟨x, y⟩, hcut⟩ := Option.isSome_iff_exists.1 h
  exact ⟨x, y, by rw [eq_of_cut hcut, List.append_assoc]⟩

theorem jsonText_of_not_text {v : Json} (h : isText v = false) :
    jsonText v = v.canonical.write := by
  cases v with
  | str s => cases h
  | null => rfl
  | bool b => rfl
  | num n => rfl
  | arr items => rfl
  | obj fields => rfl

/-- A text that occurs inside a value is found by `contains` if and only if the
value is a string or the text has none of the characters that `Marshal`
escapes. -/
theorem contains_found (F : Floats) (v : Json) (path text : String)
    (hplain : text.toList.all plainPrinted = true)
    (hinside : ∃ t ∈ v.canonical.texts, text.toList <:+: t) :
    matchJSON F (some v) (containsFilter path text) = true ↔
      isText v = true ∨ text.toList.all (fun c => !htmlSpecial c) = true := by
  rw [matchJSON_contains]
  obtain ⟨t, ht, hinfix⟩ := hinside
  cases htext : isText v with
  | true =>
      cases v with
      | str s =>
          rw [List.mem_singleton.1 ht] at hinfix
          exact iff_of_true hinfix (.inl rfl)
      | null => cases htext
      | bool b => cases htext
      | num n => cases htext
      | arr items => cases htext
      | obj fields => cases htext
  | false =>
      rw [jsonText_of_not_text htext]
      constructor
      · intro hfound
        refine .inr (List.all_eq_true.2 fun c hc => ?_)
        rw [Json.write_safe v.canonical c (hfound.subset hc)]
        rfl
      · rintro (hcase | hspecial)
        · cases hcase
        · obtain ⟨front, back, rfl⟩ := hinfix
          have hwritten := Json.texts_written v.canonical _ ht
          rw [List.flatMap_append, List.flatMap_append, Json.escape_plain hplain hspecial] at hwritten
          exact List.IsInfix.trans ⟨_, _, rfl⟩ hwritten

/-- A list with an address in it. -/
def addressList : Json := .arr [.str "/?a=1&b=2".toList]

theorem addressList_texts : addressList.canonical.texts = ["/?a=1&b=2".toList] := rfl

theorem contains_found_part :
    matchJSON noFloats (some addressList) (containsFilter "urls" "b=2") = true := by
  refine (contains_found noFloats addressList "urls" "b=2" (by decide) ?_).2 (.inr (by decide))
  have hmem : "/?a=1&b=2".toList ∈ addressList.canonical.texts := by
    rw [addressList_texts]
    exact List.mem_singleton_self _
  exact ⟨_, hmem, ⟨"/?a=1&".toList, [], by decide⟩⟩

/-- The address is there, and is not found by a text with its `&`. -/
theorem contains_missed :
    ¬ ∀ (F : Floats) (v : Json) (path text : String), text.toList.all plainPrinted = true →
      (∃ t ∈ v.canonical.texts, text.toList <:+: t) →
      matchJSON F (some v) (containsFilter path text) = true := by
  intro hall
  have hfound := hall noFloats addressList "urls" "a=1&b=2" (by decide)
    ⟨_, by rw [addressList_texts]; exact List.mem_singleton_self _, ⟨"/?".toList, [], by decide⟩⟩
  revert hfound
  decide +kernel

end KafkaManager.Message
