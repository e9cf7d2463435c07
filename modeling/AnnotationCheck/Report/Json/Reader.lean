import AnnotationCheck.Report.Json

/-!
Reading JSON values.

`Json.parse?` reads a text that is one value, with blanks between its parts. It knows the values that
reports are made of: strings, whole numbers without a sign, lists and records.
-/

namespace AnnotationCheck.Json

/-- The blanks between the parts of a value. -/
def isBlank (c : Char) : Bool := c == ' ' || c == '\t' || c == '\n' || c == '\r'

/-- What follows the blanks at the beginning of a text. -/
def skipBlanks (text : Text) : Text := text.dropWhile isBlank

/-! ### Strings -/

/-- The characters that one character behind a backslash stands for. -/
def escapes : List (Char × Char) :=
  [('"', '"'), ('\\', '\\'), ('/', '/'), ('n', '\n'), ('r', '\r'), ('t', '\t'), ('b', '\x08'), ('f', '\x0c')]

/-- The string behind an opening quote, and what follows its closing one. -/
def unquote? : Text → Option (Text × Text)
  | [] => none
  | c :: rest =>
    if c = '"' then some ([], rest)
    else if c = '\\' then
      match rest with
      | 'u' :: first :: second :: third :: fourth :: more => do
        let meaning ← Text.charOf? (← Text.hexNumber? [first, second, third, fourth])
        let (text, behind) ← unquote? more
        return (meaning :: text, behind)
      | mark :: more => do
        let meaning ← escapes.lookup mark
        let (text, behind) ← unquote? more
        return (meaning :: text, behind)
      | [] => none
    else if c.toNat < 32 then none
    else (unquote? rest).map fun (text, behind) => (c :: text, behind)

/-! ### Numbers -/

/-- The number that decimal digits spell behind those of `high`. -/
def numberOf (high : Nat) : Text → Nat
  | [] => high
  | c :: rest => numberOf (10 * high + (c.toNat - '0'.toNat)) rest

/-- The number at the beginning of a text, and what follows it; no number but zero begins with one. -/
def number? (text : Text) : Option (Nat × Text) :=
  let digits := text.takeWhile Char.isDigit
  if digits = [] ∨ (digits.head? = some '0' ∧ digits ≠ ['0']) then none
  else some (numberOf 0 digits, text.dropWhile Char.isDigit)

/-! ### Values -/

mutual

/-- The value at the beginning of a text, at most `limit` steps deep, and what follows it. -/
def valueAt? : Nat → Text → Option (Json × Text)
  | 0, _ => none
  | limit + 1, text =>
    match skipBlanks text with
    | '"' :: rest => (unquote? rest).map fun (value, behind) => (.string value, behind)
    | '[' :: rest =>
      match skipBlanks rest with
      | ']' :: behind => some (.list [], behind)
      | start => (itemsAt? limit start).map fun (items, behind) => (.list items, behind)
    | '{' :: rest =>
      match skipBlanks rest with
      | '}' :: behind => some (.record [], behind)
      | start => (fieldsAt? limit start).map fun (fields, behind) => (.record fields, behind)
    | start => (number? start).map fun (value, behind) => (.number value, behind)

/-- The items of a list up to its closing bracket, at least one, and what follows that. -/
def itemsAt? : Nat → Text → Option (List Json × Text)
  | 0, _ => none
  | limit + 1, text =>
    match valueAt? limit text with
    | none => none
    | some (item, rest) =>
      match skipBlanks rest with
      | ',' :: more => (itemsAt? limit more).map fun (items, behind) => (item :: items, behind)
      | ']' :: behind => some ([item], behind)
      | _ => none

/-- The fields of a record up to its closing brace, at least one, and what follows that. -/
def fieldsAt? : Nat → Text → Option (List (Text × Json) × Text)
  | 0, _ => none
  | limit + 1, text =>
    match skipBlanks text with
    | '"' :: quoted =>
      match unquote? quoted with
      | none => none
      | some (name, behindName) =>
        match skipBlanks behindName with
        | ':' :: start =>
          match valueAt? limit start with
          | none => none
          | some (value, rest) =>
            match skipBlanks rest with
            | ',' :: more =>
              (fieldsAt? limit more).map fun (fields, behind) => ((name, value) :: fields, behind)
            | '}' :: behind => some ([(name, value)], behind)
            | _ => none
        | _ => none
    | _ => none

end

/-- The value that a text spells, if it spells one. -/
def parse? (text : Text) : Option Json :=
  match valueAt? (2 * text.length + 2) text with
  | some (value, rest) => if skipBlanks rest = [] then some value else none
  | none => none

end AnnotationCheck.Json
