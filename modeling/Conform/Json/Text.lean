import Conform.Json.Basic
/-!
# The text of a JSON value

Values are written without spaces, members in key order. A string is written in double quotes;
only the quote, the backslash and the control characters below U+0020 are escaped.
-/

namespace Conform.Json

/-- The lower case hexadecimal digits of a code point, four of them at least. -/
def hexDigits (code : Nat) : List Char :=
  let digits := Nat.toDigits 16 code
  List.replicate (4 - digits.length) '0' ++ digits

/-- A character inside a quoted string. -/
def escapedCharacter (character : Char) : List Char :=
  match character with
  | '"' => ['\\', '"']
  | '\\' => ['\\', '\\']
  | '\x08' => ['\\', 'b']
  | '\x0c' => ['\\', 'f']
  | '\n' => ['\\', 'n']
  | '\r' => ['\\', 'r']
  | '\t' => ['\\', 't']
  | other => if other.toNat < 0x20 then '\\' :: 'u' :: hexDigits other.toNat else [other]

/-- A string in double quotes. -/
def quoted (value : String) : String :=
  String.ofList ('"' :: (value.toList.flatMap escapedCharacter ++ ['"']))

mutual

/-- The text of a value. -/
def text : Json → String
  | .null => "null"
  | .bool true => "true"
  | .bool false => "false"
  | .number value => value.text
  | .string value => quoted value
  | .array elements => "[" ++ ",".intercalate (elementTexts elements) ++ "]"
  | .object members => "\x7b" ++ ",".intercalate (memberTexts members) ++ "\x7d"

/-- The texts of elements. -/
def elementTexts : List Json → List String
  | [] => []
  | element :: rest => text element :: elementTexts rest

/-- The texts of members, a colon between key and value. -/
def memberTexts : List (String × Json) → List String
  | [] => []
  | (key, value) :: rest => (quoted key ++ ":" ++ text value) :: memberTexts rest

end

end Conform.Json
