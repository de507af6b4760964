import NutContainer.Json

/-!
Reading JSON. Between tokens there may be blanks, line ends and tabs. Numbers have
no leading zeros and digits on both sides of a point; strings have no bare control
characters; lists do not end in a comma. Anything else is refused as a whole.
-/
namespace NutContainer.Json

/-- A character that may stand between tokens. -/
def isBlank (char : Char) : Bool := char == ' ' || char == '\t' || char == '\n' || char == '\r'

def skipBlanks (text : List Char) : List Char := text.dropWhile isBlank

/-- The value of a hexadecimal digit. -/
def hexDigit? (char : Char) : Option Nat :=
  if '0' ≤ char ∧ char ≤ '9' then some (char.toNat - 48)
  else if 'a' ≤ char ∧ char ≤ 'f' then some (char.toNat - 87)
  else if 'A' ≤ char ∧ char ≤ 'F' then some (char.toNat - 55)
  else none

/-- The code unit that four hexadecimal digits spell. -/
def codeUnit? (a b c d : Char) : Option Nat := do
  return (((← hexDigit? a) * 16 + (← hexDigit? b)) * 16 + (← hexDigit? c)) * 16 + (← hexDigit? d)

/-- The character that a letter after a backslash stands for. -/
def escaped? : Char → Option Char
  | '"' => some '"'
  | '\\' => some '\\'
  | '/' => some '/'
  | 'b' => some '\x08'
  | 'f' => some '\x0c'
  | 'n' => some '\n'
  | 'r' => some '\r'
  | 't' => some '\t'
  | _ => none

/-- Reads a string after its opening quote. -/
def pieces? : List Char → Option (List JsonPiece × List Char)
  | [] => none
  | '"' :: rest => some ([], rest)
  | '\\' :: 'u' :: a :: b :: c :: d :: rest => do
    let code ← codeUnit? a b c d
    let (others, rest) ← pieces? rest
    return (.unit code :: others, rest)
  | '\\' :: letter :: rest => do
    let char ← escaped? letter
    let (others, rest) ← pieces? rest
    return (.char char :: others, rest)
  | char :: rest =>
    if char.toNat < 0x20 ∨ char = '\\' then none
    else (pieces? rest).map fun (others, rest) => (.char char :: others, rest)

/-- Reads at least one digit. -/
def digits? (text : List Char) : Option (List Char × List Char) :=
  match text.span Char.isDigit with
  | ([], _) => none
  | (digits, rest) => some (digits, rest)

/-- Reads the part of a number before the point: one zero, or digits that do not
begin with one. -/
def whole? : List Char → Option (List Char × List Char)
  | '0' :: rest => some (['0'], rest)
  | text => digits? text

/-- Reads a point and the digits after it, if there is a point. -/
def fraction? : List Char → Option (List Char × List Char)
  | '.' :: text => (digits? text).map fun (digits, rest) => ('.' :: digits, rest)
  | text => some ([], text)

/-- Reads an exponent, if there is one. -/
def exponent? : List Char → Option (List Char × List Char)
  | mark :: text =>
    if mark = 'e' ∨ mark = 'E' then
      match text with
      | '+' :: text => (digits? text).map fun (digits, rest) => (mark :: '+' :: digits, rest)
      | '-' :: text => (digits? text).map fun (digits, rest) => (mark :: '-' :: digits, rest)
      | text => (digits? text).map fun (digits, rest) => (mark :: digits, rest)
    else some ([], mark :: text)
  | [] => some ([], [])

/-- Reads a number without its sign. -/
def magnitude? (text : List Char) : Option (List Char × List Char) := do
  let (whole, text) ← whole? text
  let (fraction, text) ← fraction? text
  let (exponent, text) ← exponent? text
  return (whole ++ fraction ++ exponent, text)

/-- Reads a word or a number. -/
def scalar? : List Char → Option (Json × List Char)
  | 'n' :: 'u' :: 'l' :: 'l' :: rest => some (null, rest)
  | 't' :: 'r' :: 'u' :: 'e' :: rest => some (bool true, rest)
  | 'f' :: 'a' :: 'l' :: 's' :: 'e' :: rest => some (bool false, rest)
  | '-' :: rest => (magnitude? rest).map fun (text, rest) => (number (.ofList ('-' :: text)), rest)
  | text => (magnitude? text).map fun (text, rest) => (number (.ofList text), rest)

/-- Reads a member's name and the colon after it. -/
def member? (text : List Char) : Option (List JsonPiece × List Char) :=
  match skipBlanks text with
  | '"' :: text => do
    let (name, text) ← pieces? text
    match skipBlanks text with
    | ':' :: text => return (name, text)
    | _ => none
  | _ => none

mutual

/-- Reads one value. The number bounds how deep the reader may go. -/
def value? : Nat → List Char → Option (Json × List Char)
  | 0, _ => none
  | depth + 1, text =>
    match skipBlanks text with
    | '"' :: text => (pieces? text).map fun (pieces, text) => (string pieces, text)
    | '[' :: text =>
      match skipBlanks text with
      | ']' :: text => some (array [], text)
      | text => (items? depth text).map fun (items, text) => (array items, text)
    | '{' :: text =>
      match skipBlanks text with
      | '}' :: text => some (object [], text)
      | text => (members? depth text).map fun (members, text) => (object members, text)
    | text => scalar? text

/-- Reads the items of an array up to its end. -/
def items? : Nat → List Char → Option (List Json × List Char)
  | 0, _ => none
  | depth + 1, text => do
    let (first, text) ← value? depth text
    match skipBlanks text with
    | ',' :: text =>
      let (others, text) ← items? depth text
      return (first :: others, text)
    | ']' :: text => return ([first], text)
    | _ => none

/-- Reads the members of an object up to its end. -/
def members? : Nat → List Char → Option (List (List JsonPiece × Json) × List Char)
  | 0, _ => none
  | depth + 1, text => do
    let (name, text) ← member? text
    let (first, text) ← value? depth text
    match skipBlanks text with
    | ',' :: text =>
      let (others, text) ← members? depth text
      return ((name, first) :: others, text)
    | '}' :: text => return ([(name, first)], text)
    | _ => none

end

/-- The value of a text that holds nothing else. Every level of depth takes a
character for each of its two steps, which bounds the depth by the length. -/
def parse? (text : String) : Option Json := do
  let (value, rest) ← value? (2 * text.length + 2) text.toList
  if (skipBlanks rest).isEmpty then some value else none

end NutContainer.Json
