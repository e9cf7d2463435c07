import AnnotationCheck.Toml.Quoted
import AnnotationCheck.Toml.Value

/-!
Reading a TOML document that holds settings.

A document is a list of lines: keys with values, headers, comments and blank lines; lists and tables
between braces may go over several of them. `entries?` is the table that a document stands for. Settings
are made of strings, lists and tables, so a number, a truth value, a date or a list of headed tables is
refused like a mistake.
-/

namespace AnnotationCheck.Toml

/-- The text with line feeds alone at the ends of its lines. -/
def unixLines : Text → Text
  | [] => []
  | '\r' :: '\n' :: rest => '\n' :: unixLines rest
  | c :: rest => c :: unixLines rest

/-- What follows the blanks at the beginning of a text. -/
def skipBlanks (text : Text) : Text := text.dropWhile isBlank

/-- What follows a comment, which lasts to the end of its line; the text itself where none begins. -/
def behindComment? : Text → Option Text
  | '#' :: rest =>
    if (rest.takeWhile (· != '\n')).all isPlain then some (rest.dropWhile (· != '\n')) else none
  | text => some text

/-- What follows the end of a line, before which blanks and a comment may stand. -/
def behindLine? (text : Text) : Option Text :=
  match behindComment? (skipBlanks text) with
  | some ('\n' :: rest) => some rest
  | some [] => some []
  | _ => none

/-- What follows blanks, comments and ends of lines, at most `limit` lines of them. -/
def behindGap? : Nat → Text → Option Text
  | 0, _ => none
  | limit + 1, text =>
    match behindComment? (skipBlanks text) with
    | some ('\n' :: rest) => behindGap? limit rest
    | other => other

/-! ### Keys -/

/-- A character of a key without quotes. -/
def isKeyChar (c : Char) : Bool := c.isAlphanum || c == '_' || c == '-'

/-- The key at the beginning of a text, and what follows it. -/
def keyAt? (text : Text) : Option (Text × Text) :=
  match quotingAt? text with
  | some quoting => if quoting.long then none else stringAt? text
  | none =>
    if text.takeWhile isKeyChar = [] then none
    else some (text.takeWhile isKeyChar, text.dropWhile isKeyChar)

/-- The keys between dots at the beginning of a text, at most `limit` of them, and what follows them
and the blanks behind them. -/
def keysAt? : Nat → Text → Option (List Text × Text)
  | 0, _ => none
  | limit + 1, text =>
    match keyAt? (skipBlanks text) with
    | none => none
    | some (key, rest) =>
      match skipBlanks rest with
      | '.' :: more => (keysAt? limit more).map fun (keys, behind) => (key :: keys, behind)
      | behind => some ([key], behind)

/-! ### Values -/

mutual

/-- The value at the beginning of a text, at most `limit` steps deep, and what follows it. -/
def valueAt? : Nat → Text → Option (Value × Text)
  | 0, _ => none
  | limit + 1, text =>
    match text with
    | '[' :: rest => (itemsAt? limit rest).map fun (items, behind) => (.list items, behind)
    | '{' :: rest => (pairsAt? limit [] rest).map fun (entries, behind) => (.table .braces entries, behind)
    | _ => (stringAt? text).map fun (meaning, behind) => (.string meaning, behind)

/-- The items of a list up to its closing bracket, and what follows that. -/
def itemsAt? : Nat → Text → Option (List Value × Text)
  | 0, _ => none
  | limit + 1, text =>
    match behindGap? (text.length + 1) text with
    | none => none
    | some (']' :: behind) => some ([], behind)
    | some start =>
      match valueAt? limit start with
      | none => none
      | some (item, rest) =>
        match behindGap? (rest.length + 1) rest with
        | some (',' :: more) => (itemsAt? limit more).map fun (items, behind) => (item :: items, behind)
        | some (']' :: behind) => some ([item], behind)
        | _ => none

/-- The entries of a table with those up to its closing brace, and what follows that. -/
def pairsAt? : Nat → Entries → Text → Option (Entries × Text)
  | 0, _, _ => none
  | limit + 1, entries, text =>
    match behindGap? (text.length + 1) text with
    | none => none
    | some ('}' :: behind) => some (entries, behind)
    | some start =>
      match keysAt? (start.length + 1) start with
      | some (keys, '=' :: rest) =>
        match valueAt? limit (skipBlanks rest) with
        | none => none
        | some (value, behind) =>
          match assign? keys value entries, behindGap? (behind.length + 1) behind with
          | some new, some (',' :: more) => pairsAt? limit new more
          | some new, some ('}' :: behind) => some (new, behind)
          | _, _ => none
      | _ => none

end

/-! ### Lines -/

/-- What one line of a document says. -/
inductive Line where
  /-- Nothing. -/
  | empty
  /-- That the following keys belong to a table. -/
  | header (keys : List Text)
  /-- That a key has a value. -/
  | entry (keys : List Text) (value : Value)
  deriving Repr

/-- The line at the beginning of a text, and what follows it up to the end of its last line. -/
def lineAt? (text : Text) : Option (Line × Text) :=
  match skipBlanks text with
  | [] => some (.empty, [])
  | '\n' :: rest => some (.empty, '\n' :: rest)
  | '#' :: rest => some (.empty, '#' :: rest)
  | '[' :: rest =>
    match keysAt? (rest.length + 1) rest with
    | some (keys, ']' :: behind) => some (.header keys, behind)
    | _ => none
  | start =>
    match keysAt? (start.length + 1) start with
    | some (keys, '=' :: rest) =>
      (valueAt? (2 * text.length + 2) (skipBlanks rest)).map fun (value, behind) => (.entry keys value, behind)
    | _ => none

/-- The lines of a document, at most `limit` of them. -/
def linesOf? : Nat → Text → Option (List Line)
  | 0, _ => none
  | limit + 1, text =>
    if text = [] then some []
    else
      match lineAt? text with
      | none => none
      | some (line, behind) =>
        match behindLine? behind with
        | none => none
        | some rest => (linesOf? limit rest).map (line :: ·)

/-- The entries of a document with those of more lines, which stand below the given header. -/
def addLines? : List Text → List Line → Entries → Option Entries
  | _, [], entries => some entries
  | header, .empty :: rest, entries => addLines? header rest entries
  | _, .header keys :: rest, entries => (openAt? keys entries).bind (addLines? keys rest)
  | header, .entry keys value :: rest, entries =>
    (assignBelow? header keys value entries).bind (addLines? header rest)

/-- The mark of the byte order that may stand before a document. -/
def byteOrderMark : Text := ['\uFEFF']

/-- The table that a document stands for, if it is one. -/
def entries? (document : Text) : Option Entries :=
  let text := unixLines (Text.dropPrefix byteOrderMark document)
  (linesOf? (text.length + 1) text).bind fun lines => addLines? [] lines []

end AnnotationCheck.Toml
