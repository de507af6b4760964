import NutContainer.Json.Reader

/-!
Settings out of JSON. A group of settings is written as an object, in which names
that mean nothing are passed over and no name that means something may come
twice, or as an array of values in the order of the names. Whatever is left out
has a default.
-/
namespace NutContainer.Json

/-- The values of the given names. -/
def fields? (names : List String) : Json → Option (List (String × Json))
  | array items => if items.length ≤ names.length then some (names.zip items) else none
  | object members => do
    let named ← members.mapM fun (name, value) => (JsonPiece.text? name).map (·, value)
    let known := named.filter fun (name, _) => names.contains name
    if (known.map (·.1)).Pairwise (· ≠ ·) then some known else none
  | _ => none

/-- The value of one name, or the default when it is left out. -/
def field? (fields : List (String × Json)) (name : String) (read : Json → Option α) (default : α) :
    Option α :=
  match fields.lookup name with
  | some value => read value
  | none => some default

/-- An integer below a bound, spelled with digits alone. -/
def natBelow? (bound : Nat) : Json → Option Nat
  | number text =>
    let digits := text.toList
    if digits.all Char.isDigit then
      let value := digits.foldl (fun n digit => 10 * n + (digit.toNat - 48)) 0
      if value < bound then some value else none
    else none
  | _ => none

/-- A 32-bit number. -/
def word32? (json : Json) : Option UInt32 := (natBelow? UInt32.size json).map .ofNat

def bool? : Json → Option Bool
  | bool value => some value
  | _ => none

/-- The text of a string. -/
def text? : Json → Option String
  | string pieces => JsonPiece.text? pieces
  | _ => none

/-- A value that may be null. -/
def orNull? (read : Json → Option α) : Json → Option (Option α)
  | null => some none
  | json => (read json).map some

end NutContainer.Json
