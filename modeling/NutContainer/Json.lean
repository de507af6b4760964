/-!
JSON as it is written, in the small form that settings need. Numbers keep their
spelling and strings keep apart which of their characters were spelled as code
units, because a lone half of a surrogate pair can be written but is no
character. Whether that matters is left to whoever looks at the string.

The printer leaves out every blank and escapes no more than it must.
-/
namespace NutContainer

/-- One element of a string. -/
inductive JsonPiece where
  | char (letter : Char)
  /-- A 16-bit code unit written with four hexadecimal digits. -/
  | unit (code : Nat)
  deriving DecidableEq, Repr

/-- A JSON text without its blanks. -/
inductive Json where
  | null
  | bool (value : Bool)
  /-- A number in its own spelling. -/
  | number (text : String)
  | string (pieces : List JsonPiece)
  | array (items : List Json)
  | object (members : List (List JsonPiece × Json))

namespace JsonPiece

/-- A unit that opens a surrogate pair. -/
def IsHigh (code : Nat) : Prop := 0xD800 ≤ code ∧ code < 0xDC00

/-- A unit that closes a surrogate pair. -/
def IsLow (code : Nat) : Prop := 0xDC00 ≤ code ∧ code < 0xE000

instance (code : Nat) : Decidable (IsHigh code) := inferInstanceAs (Decidable (_ ∧ _))

instance (code : Nat) : Decidable (IsLow code) := inferInstanceAs (Decidable (_ ∧ _))

/-- The characters of a string, unless it has half a surrogate pair. -/
def chars? : List JsonPiece → Option (List Char)
  | [] => some []
  | char letter :: rest => (chars? rest).map (letter :: ·)
  | unit high :: unit low :: rest =>
    if IsHigh high then
      if IsLow low then
        (chars? rest).map (.ofNat (0x10000 + (high - 0xD800) * 0x400 + (low - 0xDC00)) :: ·)
      else none
    else if IsLow high then none
    else (chars? (unit low :: rest)).map (.ofNat high :: ·)
  | unit code :: rest =>
    if IsHigh code ∨ IsLow code then none else (chars? rest).map (.ofNat code :: ·)

/-- The text of a string, unless it has half a surrogate pair. -/
def text? (pieces : List JsonPiece) : Option String := (chars? pieces).map .ofList

/-- A string in which every character stands for itself. -/
def ofText (text : String) : List JsonPiece := text.toList.map .char

/-- A code unit in four hexadecimal digits. -/
def hex (code : Nat) : String :=
  .ofList ([code / 4096, code / 256, code / 16, code].map fun n => Nat.digitChar (n % 16))

/-- An element as it is printed: quote, backslash and control characters are
escaped, with a letter where there is one. -/
def render : JsonPiece → String
  | unit code => "\\u" ++ hex code
  | char '"' => "\\\""
  | char '\\' => "\\\\"
  | char '\n' => "\\n"
  | char '\r' => "\\r"
  | char '\t' => "\\t"
  | char '\x08' => "\\b"
  | char '\x0c' => "\\f"
  | char other => if other.toNat < 0x20 then "\\u" ++ hex other.toNat else other.toString

/-- A string in quotes. -/
def renderString (pieces : List JsonPiece) : String :=
  "\"" ++ String.join (pieces.map render) ++ "\""

end JsonPiece

namespace Json

/-- A string value of plain text. -/
def ofText (text : String) : Json := .string (JsonPiece.ofText text)

/-- An integer in its shortest spelling. -/
def ofNat (n : Nat) : Json := .number (toString n)

/-- An object with plain names. -/
def record (members : List (String × Json)) : Json :=
  .object (members.map fun (name, value) => (JsonPiece.ofText name, value))

mutual

/-- Prints a value without blanks. -/
def render : Json → String
  | null => "null"
  | bool value => if value then "true" else "false"
  | number text => text
  | string pieces => JsonPiece.renderString pieces
  | array items => "[" ++ renderItems items ++ "]"
  | object members => "\x7b" ++ renderMembers members ++ "\x7d"

/-- Prints values with commas between them. -/
def renderItems : List Json → String
  | [] => ""
  | [item] => render item
  | item :: others => render item ++ "," ++ renderItems others

/-- Prints members with commas between them. -/
def renderMembers : List (List JsonPiece × Json) → String
  | [] => ""
  | [(name, value)] => JsonPiece.renderString name ++ ":" ++ render value
  | (name, value) :: others =>
    JsonPiece.renderString name ++ ":" ++ render value ++ "," ++ renderMembers others

end

end Json

end NutContainer
