import Conform.Text.Hidden
/-!
# Quoted text

A text in double quotes, for messages. The quote, the backslash and four controls have escapes of
two characters; every other hidden character is written by its code point in braces. A list of
texts stands in square brackets.
-/

namespace Conform.Text

/-- A character inside a quoted text. -/
def quotedCharacter (character : Char) : List Char :=
  match character with
  | '"' => ['\\', '"']
  | '\\' => ['\\', '\\']
  | '\x00' => ['\\', '0']
  | '\t' => ['\\', 't']
  | '\n' => ['\\', 'n']
  | '\r' => ['\\', 'r']
  | other =>
    if isHidden other then
      ['\\', 'u', '\x7b'] ++ Nat.toDigits 16 other.toNat ++ ['\x7d']
    else [other]

/-- A text in double quotes. -/
def quoted (text : String) : String :=
  String.ofList ('"' :: (text.toList.flatMap quotedCharacter ++ ['"']))

/-- A list of texts, each in double quotes. -/
def quotedList (texts : List String) : String :=
  "[" ++ ", ".intercalate (texts.map quoted) ++ "]"

end Conform.Text
