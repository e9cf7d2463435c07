import AnnotationCheck.Text.Hex

/-!
JSON values and their text.

`Json.pretty` writes a value with one item or field on a line, each level two blanks further in, and
empty lists and records on one line. A string is quoted by `Json.quote`: quotes, backslashes and
control characters are escaped, every other character stands for itself.
-/

namespace AnnotationCheck

/-- A JSON value without fractions, booleans and null. -/
inductive Json where
  | string (text : Text)
  | number (value : Nat)
  | list (items : List Json)
  | record (fields : List (Text × Json))

namespace Json

/-- A character inside a quoted string. -/
def escape (c : Char) : Text :=
  if c = '"' then ['\\', '"']
  else if c = '\\' then ['\\', '\\']
  else if c = '\n' then ['\\', 'n']
  else if c = '\r' then ['\\', 'r']
  else if c = '\t' then ['\\', 't']
  else if c = '\x08' then ['\\', 'b']
  else if c = '\x0c' then ['\\', 'f']
  else if c.toNat < 32 then "\\u00".toList ++ Text.hexDigits c.toNat
  else [c]

/-- A text between quotes. -/
def quote (text : Text) : Text := '"' :: text.flatMap escape ++ ['"']

/-- A line break, and the blanks before what stands at the given depth. -/
def newLine (depth : Nat) : Text := '\n' :: List.replicate (2 * depth) ' '

/-- The written parts of a list or record between its brackets. -/
def enclose (opening closing : Char) (depth : Nat) (parts : List Text) : Text :=
  match parts with
  | [] => [opening, closing]
  | _ => opening :: newLine (depth + 1) ++ (',' :: newLine (depth + 1)).intercalate parts
      ++ newLine depth ++ [closing]

mutual

/-- The text of a value that stands at the given depth. -/
def prettyAt (depth : Nat) : Json → Text
  | string text => quote text
  | number value => Nat.toDigits 10 value
  | list items => enclose '[' ']' depth (prettyItems depth items)
  | record fields => enclose '{' '}' depth (prettyFields depth fields)

/-- The texts of the items of a list. -/
def prettyItems (depth : Nat) : List Json → List Text
  | [] => []
  | item :: rest => prettyAt (depth + 1) item :: prettyItems depth rest

/-- The texts of the fields of a record, each with its name. -/
def prettyFields (depth : Nat) : List (Text × Json) → List Text
  | [] => []
  | (name, value) :: rest => (quote name ++ ": ".toList ++ prettyAt (depth + 1) value) :: prettyFields depth rest

end

/-- The text of a value. -/
def pretty (value : Json) : Text := prettyAt 0 value

end Json

end AnnotationCheck
