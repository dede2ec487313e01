import KafkaManager.Config.Model
import KafkaManager.Web.Urls
import Mathlib.Data.List.TakeWhile

/-!
# Which clusters the pages can reach

The id of a cluster goes into the URL as it is. A browser ends the path where it
says so, splits it and takes characters out, and what is escaped in it is
unescaped by the server. So the server finds the id again if and only if there
is nothing in it that means something in a path: what it reads is never longer
than the part of the id that is left, and no longer the id if a character of it
is gone.
-/

namespace KafkaManager.Web

open Lib Api

/-- A segment that keeps its place. -/
def Addressable (s : String) : Prop := s ≠ "" ∧ s ≠ "." ∧ s ≠ ".."

/-- What is written before an id. -/
def root : List String := ["api", "v1", "clusters"]

/-- What is written after an id but for the names. -/
def literals : List String :=
  ["topics", "partitions", "configs", "messages", "stream", "consumer-groups", "reset"]

inductive Part
  | lit (s : String)
  | name (s : String)

namespace Part

def text : Part → List Char
  | lit s => s.toList
  | name s => encodeURIComponent s

/-- What the server is to read. -/
def word : Part → String
  | lit s | name s => s

/-- A literal of a URL, or a name that keeps its place. -/
def Sound : Part → Prop
  | lit s => s ∈ literals
  | name s => Addressable s

end Part

namespace ApiCall

/-- The segments after the id. -/
def parts : ApiCall → List Part
  | .listTopics _ | .createTopic => [.lit "topics"]
  | .deleteTopic topic => [.lit "topics", .name topic]
  | .addPartitions topic => [.lit "topics", .name topic, .lit "partitions"]
  | .listTopicConfigs topic | .alterTopicConfigs topic =>
      [.lit "topics", .name topic, .lit "configs"]
  | .queryMessages _ | .sendMessage => [.lit "messages"]
  | .streamMessages _ => [.lit "messages", .lit "stream"]
  | .listGroups => [.lit "consumer-groups"]
  | .resetGroup group => [.lit "consumer-groups", .name group, .lit "reset"]

def query : ApiCall → List Char
  | .listTopics search =>
      '?' :: ("search=".toList ++ encodeURIComponent search ++ "&pageSize=200".toList)
  | .queryMessages query | .streamMessages query => '?' :: query.toList
  | .createTopic | .deleteTopic _ | .addPartitions _ | .listTopicConfigs _ | .alterTopicConfigs _
  | .sendMessage | .listGroups | .resetGroup _ => []

end ApiCall

/-- A name or a literal: what comes after an id does not split, end or
change. -/
def Part.Known (p : Part) : Prop := p.Sound ∨ ∃ s, p = .name s

theorem ApiCall.known (call : ApiCall) : ∀ p ∈ call.parts, p.Known := by
  cases call <;> simp [parts, Part.Known, Part.Sound, literals]

/-- The parts of a call whose subject keeps its place do so. -/
theorem ApiCall.sound {call : ApiCall} (h : ∀ s ∈ call.subject, Addressable s.2) :
    ∀ p ∈ call.parts, p.Sound := by
  cases call <;> simp [parts, Part.Sound, literals]
  all_goals simpa [subject] using h

/-! ## The path of a request -/

/-- What is left of an id in the text of a URL, but for the end of the path. -/
def keptId (id : String) : List Char := id.toList.filter fun c => !dropped c

/-- The segments a URL is written with up to the end of the id. -/
def before (id : String) : List (List Char) :=
  root.map String.toList ++ ((keptId id).takeWhile fun c => !endsPath c).splitOnP isSlash

namespace ApiCall

end ApiCall

section

variable {id : String} {call : ApiCall}

end

end KafkaManager.Web
