import KafkaManager.Lib.Url

/-!
# Routing (`http.ServeMux`)

A pattern is a method and segments. The path of a request is taken as it was
sent, segment by segment, and each is unescaped. A wildcard matches one that is
not empty, and the value it gets is what the handler reads. A path with a broken
escape is refused, and one that is not clean is redirected.

A mux tries the most specific pattern first. Where no request matches two, any
order will do.
-/

namespace Lib

inductive PatternSegment
  | lit (s : String)
  | wild (name : String)
  | multi (name : String)
deriving DecidableEq

structure Pattern where
  method : String
  segments : List PatternSegment

/-- The names of the wildcards with their values. -/
abbrev PathValues : Type := List (String × List UInt8)

/-- What a segment stands for. -/
def segmentValue (segment : List Char) : List UInt8 := (unescape segment).getD []

/-- `cleanPath` leaves it as it is: there is no empty segment but the last, and
none of dots. -/
def isClean (segments : List (List Char)) : Bool :=
  segments.dropLast.all (fun s => !s.isEmpty) &&
    segments.all fun s => !(s == ['.'] || s == ['.', '.'])

def matchSegments : List PatternSegment → List (List UInt8) → Option PathValues
  | [], [] => some []
  | .lit s :: pattern, value :: values =>
      if value = utf8 s.toList then matchSegments pattern values else none
  | .wild name :: pattern, value :: values =>
      if value = [] then none else (matchSegments pattern values).map ((name, value) :: ·)
  | .multi name :: _, values => some [(name, [47].intercalate values)]
  | [], _ :: _ => none
  | .lit _ :: _, [] => none
  | .wild _ :: _, [] => none

/-- `GET` is also for `HEAD`. -/
def Pattern.allows (p : Pattern) (method : String) : Bool :=
  p.method == method || p.method == "GET" && method == "HEAD"

section

variable {H : Type}

/-- The handler of a request, with the values of its path. -/
def route (routes : List (Pattern × H)) (method : String) (segments : List (List Char)) :
    Option (H × PathValues) :=
  if segments.all (fun s => (unescape s).isSome) && isClean segments then
    routes.findSome? fun (p, handler) =>
      if p.allows method then
        (matchSegments p.segments (segments.map segmentValue)).map ((handler, ·))
      else none
  else none

variable {routes : List (Pattern × H)} {method : String} {segments : List (List Char)}
  {handler : H} {values : PathValues}

theorem route_some (h : route routes method segments = some (handler, values)) :
    (∀ s ∈ segments, unescape s = some (segmentValue s)) ∧ ∃ p, (p, handler) ∈ routes ∧
      matchSegments p.segments (segments.map segmentValue) = some values := by
  unfold route at h
  split at h
  · next hpath =>
      rw [Bool.and_eq_true] at hpath
      refine ⟨fun s hs => ?_, ?_⟩
      · obtain ⟨value, hvalue⟩ := Option.isSome_iff_exists.1 (List.all_eq_true.1 hpath.1 s hs)
        rw [segmentValue, hvalue, Option.getD_some]
      · obtain ⟨⟨p, handler'⟩, hmem, hmatch⟩ := List.exists_of_findSome?_eq_some h
        dsimp only at hmatch
        split at hmatch
        · obtain ⟨values', hvalues, heq⟩ := Option.map_eq_some_iff.1 hmatch
          obtain ⟨rfl, rfl⟩ := Prod.mk.inj heq
          exact ⟨p, hmem, hvalues⟩
        · cases hmatch
  · cases h

end

/-- A pattern that ends where its segments do. -/
def single : PatternSegment → Bool
  | .lit _ | .wild _ => true
  | .multi _ => false

theorem matchSegments_lit {s : String} {pattern : List PatternSegment} {given : List (List UInt8)}
    {values : PathValues} (h : matchSegments (.lit s :: pattern) given = some values) :
    ∃ rest, given = utf8 s.toList :: rest ∧ matchSegments pattern rest = some values := by
  cases given with
  | nil => cases h
  | cons value given =>
      rw [matchSegments] at h
      split at h
      · next hvalue => exact ⟨given, by rw [hvalue], h⟩
      · cases h

end Lib
