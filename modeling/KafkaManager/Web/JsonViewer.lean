import KafkaManager.Lib.JsValue

/-!
# The viewer of a message's value (`components/JsonViewer.tsx`)

A value that is JSON is shown and copied formatted, any other as it is. The
text comes from the server and is well-formed.
-/

namespace KafkaManager.Web

open Lib

inductive ParsedValue
  | json (value : JsValue)
  | text (value : List Char)

def parseMessageValue (raw : List Char) : ParsedValue :=
  match JsValue.parse raw with
  | some value => .json value
  | none => .text raw

/-- `JSON.stringify(value, null, 2)` -/
def formatJson (T : NumberText) (value : JsValue) : List Char :=
  JsValue.stringify T (.indented 2) value

/-- What the button copies. -/
def copy (T : NumberText) (raw : List Char) : List Char :=
  match parseMessageValue raw with
  | .json value => formatJson T value
  | .text _ => raw

end KafkaManager.Web
