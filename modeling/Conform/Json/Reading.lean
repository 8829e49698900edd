import Conform.Json.Basic
import Conform.Json.Token
/-!
# Reading a JSON text

Tokens are taken one by one by a machine that keeps the containers still open, the innermost
first. What it expects next is its state, so reading is one fold over the tokens, however deep the
value is.
-/

namespace Conform.Json

/-- A container that is still open, what it holds so far in reverse. -/
inductive Frame where
  /-- An array and its elements. -/
  | array (elements : List Json)
  /-- An object, its members, and the key whose value comes next. -/
  | object (members : List (String × Json)) (key : String)

/-- What has been read of a text, and what may come next. -/
inductive Progress where
  /-- A value comes next. -/
  | beforeValue (frames : List Frame)
  /-- The first element of an array comes next, or its end. -/
  | inNewArray (frames : List Frame)
  /-- The first key of an object comes next, or its end. -/
  | inNewObject (frames : List Frame)
  /-- A key comes next. -/
  | beforeKey (members : List (String × Json)) (frames : List Frame)
  /-- A colon comes next. -/
  | afterKey (members : List (String × Json)) (key : String) (frames : List Frame)
  /-- A value is complete; a comma or the end of its container comes next. -/
  | afterValue (value : Json) (frames : List Frame)

namespace Progress

/-- Take a token where a value may start. -/
def startValue (frames : List Frame) : Token → Option Progress
  | .openArray => some (.inNewArray frames)
  | .openObject => some (.inNewObject frames)
  | .null => some (.afterValue .null frames)
  | .bool value => some (.afterValue (.bool value) frames)
  | .number value => some (.afterValue (.number value) frames)
  | .string value => some (.afterValue (.string value) frames)
  | _ => none

/-- Take a token after a complete value. -/
def continueAfter (value : Json) : List Frame → Token → Option Progress
  | .array elements :: frames, .comma => some (.beforeValue (.array (value :: elements) :: frames))
  | .array elements :: frames, .closeArray =>
    some (.afterValue (.array (value :: elements).reverse) frames)
  | .object members key :: frames, .comma => some (.beforeKey ((key, value) :: members) frames)
  | .object members key :: frames, .closeObject =>
    some (.afterValue (ofMembers ((key, value) :: members).reverse) frames)
  | _, _ => none

/-- Take one token. -/
def step : Progress → Token → Option Progress
  | .beforeValue frames, token => startValue frames token
  | .inNewArray frames, .closeArray => some (.afterValue (.array []) frames)
  | .inNewArray frames, token => startValue (.array [] :: frames) token
  | .inNewObject frames, .closeObject => some (.afterValue (.object []) frames)
  | .inNewObject frames, .string key => some (.afterKey [] key frames)
  | .beforeKey members frames, .string key => some (.afterKey members key frames)
  | .afterKey members key frames, .colon => some (.beforeValue (.object members key :: frames))
  | .afterValue value frames, token => continueAfter value frames token
  | _, _ => none

end Progress

/-- The value of a list of tokens, or nothing when they are not those of exactly one value. -/
def ofTokens? (tokens : List Token) : Option Json :=
  match tokens.foldlM Progress.step (.beforeValue []) with
  | some (.afterValue value []) => some value
  | _ => none

/-- The value of a text, or nothing when it is not the text of exactly one value. -/
def read? (text : String) : Option Json :=
  (Token.ofText? text.toList).bind ofTokens?

end Conform.Json
