import AnnotationCheck.Text.Hex

/-!
Strings of a TOML document.

A string stands between two marks, or between two times three of them if it may go over several
lines. Between `'` everything stands for itself; between `"` a backslash begins an escape. The lines
of the document are taken to end in a line feed.
-/

namespace AnnotationCheck.Toml

/-- How a string is quoted. -/
structure Quoting where
  mark : Char
  /-- Whether three marks stand on each side. -/
  long : Bool
  deriving DecidableEq, Repr

/-- Whether a backslash begins an escape between marks of this kind. -/
def Quoting.escapes (quoting : Quoting) : Bool := quoting.mark == '"'

/-- A space or a tab. -/
def isBlank (c : Char) : Bool := c == ' ' || c == '\t'

/-- A space, a tab or a line feed. -/
def isBlankOrLine (c : Char) : Bool := isBlank c || c == '\n'

/-- A tab or a character that is no control character of ASCII. -/
def isPlain (c : Char) : Bool := c == '\t' || (c.toNat ≥ 0x20 && c.toNat != 0x7f)

/-! ### Escapes -/

/-- The character whose code point the first `count` characters spell. -/
def pointAt? (count : Nat) (text : Text) : Option Char :=
  if (text.take count).length = count then (Text.hexNumber? (text.take count)).bind Text.charOf? else none

/-- The characters that one character behind a backslash stands for. -/
def simpleEscapes : List (Char × Char) :=
  [('b', '\x08'), ('t', '\t'), ('n', '\n'), ('f', '\x0c'), ('r', '\r'), ('e', '\x1b'), ('"', '"'),
    ('\\', '\\')]

/-- The number of hexadecimal digits behind a backslash and one of these characters. -/
def pointEscapes : List (Char × Nat) := [('x', 2), ('u', 4), ('U', 8)]

/-- The number of characters that a backslash at the end of a line takes with it, if it is one. -/
def lineJoin? (text : Text) : Option Nat :=
  if (text.dropWhile isBlank).head? = some '\n' then some (text.takeWhile isBlankOrLine).length else none

/-- What an escape stands for, and the number of its characters behind the backslash. -/
def escape? (long : Bool) : Text → Option (Text × Nat)
  | [] => none
  | c :: rest =>
    match simpleEscapes.lookup c, pointEscapes.lookup c with
    | some meaning, _ => some ([meaning], 1)
    | none, some count => (pointAt? count rest).map fun meaning => ([meaning], count + 1)
    | none, none => if long then (lineJoin? (c :: rest)).map ([], ·) else none

/-- The text that the inside of a string stands for; its first `skipped` characters are done with. -/
def meaningFrom (quoting : Quoting) : Nat → Text → Option Text
  | _, [] => some []
  | skipped + 1, _ :: rest => meaningFrom quoting skipped rest
  | 0, c :: rest =>
    if quoting.escapes ∧ c = '\\' then
      match escape? quoting.long rest with
      | some (meaning, length) => (meaningFrom quoting length rest).map (meaning ++ ·)
      | none => none
    else if isPlain c ∨ (quoting.long ∧ c = '\n') then (meaningFrom quoting 0 rest).map (c :: ·)
    else none

/-- The text that the inside of a string stands for; a line feed right behind its marks does not count. -/
def meaning? (quoting : Quoting) (inside : Text) : Option Text :=
  meaningFrom quoting 0 (if quoting.long then Text.dropPrefix ['\n'] inside else inside)

/-! ### Ends -/

/-- The number of marks more than three that end a string, at most two. -/
def extraMarks (mark : Char) (text : Text) : Nat := (((text.drop 3).take 2).takeWhile (· == mark)).length

/-- The inside of a string behind its opening marks, and what follows its closing ones. -/
def inside? (quoting : Quoting) : Text → Option (Text × Text)
  | [] => none
  | c :: rest =>
    let further := (inside? quoting rest).map fun (inside, behind) => (c :: inside, behind)
    if c = quoting.mark then
      if !quoting.long then some ([], rest)
      else if [c, c].isPrefixOf rest then
        some (List.replicate (extraMarks c (c :: rest)) c, (c :: rest).drop (3 + extraMarks c (c :: rest)))
      else further
    else
      match rest with
      | d :: more =>
        if quoting.escapes ∧ c = '\\' then
          (inside? quoting more).map fun (inside, behind) => (c :: d :: inside, behind)
        else further
      | [] => none

/-- The quoting at the beginning of a text. -/
def quotingAt? (text : Text) : Option Quoting :=
  match text with
  | c :: rest => if c = '"' ∨ c = '\'' then some ⟨c, [c, c].isPrefixOf rest⟩ else none
  | [] => none

/-- The string at the beginning of a text, and what follows it. -/
def stringAt? (text : Text) : Option (Text × Text) := do
  let quoting ← quotingAt? text
  let (inside, behind) ← inside? quoting (text.drop (if quoting.long then 3 else 1))
  let meaning ← meaning? quoting inside
  return (meaning, behind)

end AnnotationCheck.Toml
