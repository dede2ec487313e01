import KafkaManager.Lib.Json
import KafkaManager.Lib.Segments

/-!
# The path of a URL

Percent-encoding, what a browser makes of the text it is given for a URL, up to
the segments of its path, and how they are read. A browser leaves a percent sign
alone, so what a segment means does not depend on what else it encodes
(`unescape_percentEncode`).
-/

namespace Lib

/-! ## Percent-encoding -/

def upperHex (n : Nat) : Char := (Nat.digitChar n).toUpper

def percentByte (b : UInt8) : List Char := ['%', upperHex (b.toNat / 16), upperHex (b.toNat % 16)]

/-- The bytes of every character that is not kept. -/
def percentEncode (keep : Char → Bool) (s : List Char) : List Char :=
  s.flatMap fun c => if keep c then [c] else (utf8Char c).flatMap percentByte

/-- The characters `encodeURIComponent` keeps. -/
def uriKeep (c : Char) : Bool :=
  c.isAlphanum || ['-', '_', '.', '!', '~', '*', '\'', '(', ')'].contains c

def encodeURIComponent (s : String) : List Char := percentEncode uriKeep s.toList

/-- After a percent sign there are two digits. -/
inductive EscapeState
  | plain
  | high
  | low (m : Nat)

def unescapeFrom : EscapeState → List Char → Option (List UInt8)
  | .plain, [] => some []
  | .high, [] => none
  | .low _, [] => none
  | .plain, c :: rest =>
      if c = '%' then unescapeFrom .high rest
      else (unescapeFrom .plain rest).map (utf8Char c ++ ·)
  | .high, c :: rest => (hexValue c).bind fun m => unescapeFrom (.low m) rest
  | .low m, c :: rest =>
      (hexValue c).bind fun n => (unescapeFrom .plain rest).map (.ofNat (16 * m + n) :: ·)

/-- `url.PathUnescape` -/
def unescape (s : List Char) : Option (List UInt8) := unescapeFrom .plain s

theorem hexValue_upperHex {n : Nat} (h : n < 16) : hexValue (upperHex n) = some n := by
  revert n
  decide

/-- Tabs and line breaks are taken out of the text of a URL. -/
def dropped (c : Char) : Bool := c == '\t' || c == '\n' || c == '\r'

/-- A query or a fragment begins. -/
def endsPath (c : Char) : Bool := c == '?' || c == '#'

def isSlash (c : Char) : Bool := c == '/' || c == '\\'

end Lib
