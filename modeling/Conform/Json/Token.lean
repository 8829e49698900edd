import Conform.Number
/-!
# The tokens of a JSON text

A JSON text is cut into brackets, marks, scalars and strings. Each scanning step leaves a shorter
rest, which is what ends the recursion of `Token.ofText?`. A number without point and exponent is
an integer if a 64-bit word holds it; every other number is the nearest binary64 number.
-/

namespace Conform.Json

/-- A token of a JSON text. -/
inductive Token where
  /-- An opening square bracket. -/
  | openArray
  /-- A closing square bracket. -/
  | closeArray
  /-- An opening curly bracket. -/
  | openObject
  /-- A closing curly bracket. -/
  | closeObject
  /-- The mark between elements and between members. -/
  | comma
  /-- The mark between a key and its value. -/
  | colon
  /-- The word `null`. -/
  | null
  /-- One of the words `true` and `false`. -/
  | bool (value : Bool)
  /-- A number. -/
  | number (value : Number)
  /-- A string without its quotes and escapes. -/
  | string (value : String)

namespace Token

/-- The characters up to the quote that ends a string, escapes kept, and the rest after it. -/
def untilQuote : List Char → Option (List Char × List Char)
  | [] => none
  | '"' :: rest => some ([], rest)
  | '\\' :: escaped :: rest =>
    (untilQuote rest).map fun (body, rest) => ('\\' :: escaped :: body, rest)
  | character :: rest => (untilQuote rest).map fun (body, rest) => (character :: body, rest)

/-- A string leaves no more text than there was. -/
theorem untilQuote_length {text body rest : List Char}
    (found : untilQuote text = some (body, rest)) : rest.length < text.length := by
  fun_induction untilQuote text generalizing body with
  | case1 => simp at found
  | case2 after => simp_all
  | case3 escaped after ih =>
    simp only [Option.map_eq_some_iff, Prod.exists, Prod.mk.injEq] at found
    obtain ⟨inner, _, scanned, _, rfl⟩ := found
    have := ih scanned
    simp only [List.length_cons]
    omega
  | case4 character after _ _ ih =>
    simp only [Option.map_eq_some_iff, Prod.exists, Prod.mk.injEq] at found
    obtain ⟨inner, _, scanned, _, rfl⟩ := found
    have := ih scanned
    simp only [List.length_cons]
    omega

/-- The value of a hexadecimal digit of either case. -/
def hexValue? (digit : Char) : Option Nat :=
  if '0' ≤ digit ∧ digit ≤ '9' then some (digit.toNat - '0'.toNat)
  else if 'a' ≤ digit ∧ digit ≤ 'f' then some (digit.toNat - 'a'.toNat + 10)
  else if 'A' ≤ digit ∧ digit ≤ 'F' then some (digit.toNat - 'A'.toNat + 10)
  else none

/-- The number that hexadecimal digits denote. -/
def hexNumber? (digits : List Char) : Option Nat :=
  digits.foldlM (fun value digit => (hexValue? digit).map (16 * value + ·)) 0

/-- The character of a one-letter escape. -/
def simpleEscape? : Char → Option Char
  | '"' => some '"'
  | '\\' => some '\\'
  | '/' => some '/'
  | 'b' => some '\x08'
  | 'f' => some '\x0c'
  | 'n' => some '\n'
  | 'r' => some '\r'
  | 't' => some '\t'
  | _ => none

/-- The code units of a string body: those of its escapes, and the code points of its other
characters. -/
def codeUnits? : List Char → Option (List Nat)
  | [] => some []
  | '\\' :: 'u' :: a :: b :: c :: d :: rest => do
    let unit ← hexNumber? [a, b, c, d]
    let units ← codeUnits? rest
    return unit :: units
  | '\\' :: escape :: rest => do
    let character ← simpleEscape? escape
    let units ← codeUnits? rest
    return character.toNat :: units
  | character :: rest =>
    if character.toNat < 0x20 ∨ character = '\\' then none
    else (codeUnits? rest).map (character.toNat :: ·)

/-- The characters of code units, a high and a low surrogate together being one. -/
def characters? : List Nat → Option (List Char)
  | [] => some []
  | high :: low :: rest =>
    if 0xD800 ≤ high ∧ high < 0xDC00 ∧ 0xDC00 ≤ low ∧ low < 0xE000 then
      (characters? rest).map (Char.ofNat (0x10000 + (high - 0xD800) * 0x400 + (low - 0xDC00)) :: ·)
    else if high.isValidChar then (characters? (low :: rest)).map (Char.ofNat high :: ·)
    else none
  | [unit] => if unit.isValidChar then some [Char.ofNat unit] else none

/-- The string that a string body denotes. -/
def unescape? (body : List Char) : Option String := do
  let units ← codeUnits? body
  let characters ← characters? units
  return String.ofList characters

/-- Characters that occur in numbers. -/
def isNumeric (character : Char) : Bool :=
  character.isDigit || character == '-' || character == '+' || character == '.' ||
    character == 'e' || character == 'E'

/-- A run of digits that is not empty, and what follows it. -/
def digits? (text : List Char) : Option (List Char × List Char) :=
  match text.takeWhile Char.isDigit with
  | [] => none
  | digits => some (digits, text.dropWhile Char.isDigit)

/-- The digits after a point, if there is one, and what follows them. -/
def fraction? : List Char → Option (Option (List Char) × List Char)
  | '.' :: rest => (digits? rest).map fun (digits, rest) => (some digits, rest)
  | rest => some (none, rest)

/-- The signed digits after an exponent mark, if there is one; nothing may follow them. -/
def exponent? : List Char → Option (Option Int)
  | [] => some none
  | mark :: rest =>
    if mark = 'e' ∨ mark = 'E' then
      let (negative, unsigned) := match rest with
        | '-' :: digits => (true, digits)
        | '+' :: digits => (false, digits)
        | digits => (false, digits)
      match digits? unsigned with
      | some (digits, []) =>
        let magnitude : Int := Decimal.ofDigits digits
        some (some (if negative then -magnitude else magnitude))
      | _ => none
    else none

/-- The number that a run of numeric characters denotes. -/
def number? (text : List Char) : Option Number := do
  let (negative, unsigned) := match text with
    | '-' :: rest => (true, rest)
    | rest => (false, rest)
  let (whole, rest) ← digits? unsigned
  if whole.length > 1 ∧ whole.head? = some '0' then none
  let (fraction, rest) ← fraction? rest
  let exponent ← exponent? rest
  let places := fraction.getD []
  let written : Decimal := ⟨Decimal.ofDigits (whole ++ places), exponent.getD 0 - places.length⟩
  Number.ofWritten? negative written (fraction.isNone && exponent.isNone)

/-- Blanks between tokens. -/
def isBlank (character : Char) : Bool :=
  character == ' ' || character == '\n' || character == '\r' || character == '\t'

/-- The token of a word. -/
def word? (word : List Char) : Option Token :=
  if word = ['n', 'u', 'l', 'l'] then some .null
  else if word = ['t', 'r', 'u', 'e'] then some (.bool true)
  else if word = ['f', 'a', 'l', 's', 'e'] then some (.bool false)
  else none

/-- The token of a bracket or mark. -/
def mark? : Char → Option Token
  | '[' => some .openArray
  | ']' => some .closeArray
  | '{' => some .openObject
  | '}' => some .closeObject
  | ',' => some .comma
  | ':' => some .colon
  | _ => none

/-- What is left after a run of characters is no longer than before. -/
theorem dropWhile_length_le (keep : Char → Bool) (text : List Char) :
    (text.dropWhile keep).length ≤ text.length :=
  (List.dropWhile_sublist keep).length_le

/-- The first token of a text and the rest after it. -/
def first? (character : Char) (text : List Char) : Option (Token × List Char) :=
  match mark? character with
  | some token => some (token, text)
  | none =>
    if character = '"' then do
      let (body, rest) ← untilQuote text
      let value ← unescape? body
      return (.string value, rest)
    else if isNumeric character then
      (number? (character :: text.takeWhile isNumeric)).map fun value =>
        (.number value, text.dropWhile isNumeric)
    else
      (word? (character :: text.takeWhile Char.isAlpha)).map fun token =>
        (token, text.dropWhile Char.isAlpha)

/-- A token takes at least its first character. -/
theorem first?_length {character : Char} {text rest : List Char} {token : Token}
    (found : first? character text = some (token, rest)) : rest.length ≤ text.length := by
  unfold first? at found
  split at found
  · simp_all
  · split at found
    · simp only [Option.bind_eq_bind, Option.bind_eq_some_iff, Prod.exists] at found
      obtain ⟨body, after, scanned, value, _, same⟩ := found
      simp only [pure, Option.some.injEq, Prod.mk.injEq] at same
      rw [← same.2]
      exact Nat.le_of_lt (untilQuote_length scanned)
    · split at found <;>
      · simp only [Option.map_eq_some_iff, Prod.mk.injEq] at found
        obtain ⟨_, _, _, rfl⟩ := found
        exact dropWhile_length_le _ _

/-- The tokens of a text, or nothing where the text has none. -/
def ofText? : List Char → Option (List Token)
  | [] => some []
  | character :: text =>
    if isBlank character then ofText? text
    else
      match _found : first? character text with
      | none => none
      | some (token, rest) => (ofText? rest).map (token :: ·)
termination_by text => text.length
decreasing_by
  · simp
  · have := first?_length ‹_›
    simp only [List.length_cons]
    omega

end Token

end Conform.Json
