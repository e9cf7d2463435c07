import AnnotationCheck.Php.Token

/-!
Cutting a PHP script into tokens.

Outside the tags everything is text; inside, the longest mark wins, a comment lasts to the end of its
line, to `?>` or to `*/`, and a string that holds variables is cut into fragments and stretches of
code. Reading stops at a string or comment without an end and behind `__halt_compiler`. The tokens
stand one behind the other (`tokens_adjoining`) and are cut from the beginning of the script without
gaps (`flatMap_tokens_isPrefix`).
-/

namespace AnnotationCheck.Php

/-! ### Character classes -/

/-- A character that may begin a name: an ASCII letter, `_` or any character outside ASCII. -/
def isNameStart (c : Char) : Bool := c.isAlpha || c == '_' || c.toNat ≥ 128

/-- A character of a name. -/
def isNamePart (c : Char) : Bool := isNameStart c || c.isDigit

/-- A space or a tab. -/
def isInlineBlank (c : Char) : Bool := c == ' ' || c == '\t'

/-! ### Lengths -/

/-- The number of characters before the first place where `found` holds of the rest. -/
def lengthBefore (found : Text → Bool) : Text → Nat
  | [] => 0
  | c :: rest => if found (c :: rest) then 0 else lengthBefore found rest + 1

/-- The number of characters up to the end of `mark`, if it occurs. -/
def lengthThrough? (mark : Text) (text : Text) : Option Nat :=
  let before := lengthBefore mark.isPrefixOf text
  if mark.isPrefixOf (text.drop before) then some (before + mark.length) else none

/-- The number of characters at the beginning of a text that are in a class. -/
def lengthWhile (inClass : Char → Bool) (text : Text) : Nat := (text.takeWhile inClass).length

/-- A place where a comment that began with `//` or `#` ends. -/
def endsLineComment : Text → Bool
  | '\n' :: _ => true
  | '\r' :: _ => true
  | '?' :: '>' :: _ => true
  | c :: '?' :: '>' :: _ => Text.isBlank c
  | _ => false

/-- The number of characters behind the quote up to the end of a string in single quotes. -/
def singleQuoted? : Text → Option Nat
  | [] => none
  | '\\' :: _ :: rest => (singleQuoted? rest).map (· + 2)
  | c :: rest => if c = '\'' then some 1 else (singleQuoted? rest).map (· + 1)

/-- A place where code begins inside a string: a variable, `{$` or `$` before `{`. -/
def beginsCode : Text → Bool
  | '$' :: c :: _ => isNameStart c || c == '{'
  | '{' :: '$' :: _ => true
  | _ => false

/-- The number of characters behind the quote up to the end of a string in double quotes; none when
code begins inside it or it has no end. -/
def doubleQuoted? : Text → Option Nat
  | [] => none
  | '\\' :: _ :: rest => (doubleQuoted? rest).map (· + 2)
  | c :: rest =>
    if c = '"' then some 1
    else if beginsCode (c :: rest) then none
    else (doubleQuoted? rest).map (· + 1)

/-- Whether code begins inside a string in double quotes before it ends. -/
def holdsCode : Text → Bool
  | [] => false
  | '\\' :: _ :: rest => holdsCode rest
  | c :: rest => if c = '"' then false else if beginsCode (c :: rest) then true else holdsCode rest

/-- The number of characters of a name, with its separators. -/
def nameLength : Text → Nat
  | '\\' :: c :: rest => if isNameStart c then nameLength rest + 2 else 0
  | c :: rest => if isNamePart c then nameLength rest + 1 else 0
  | [] => 0

/-- A digit of a number, or the mark that may stand between digits. -/
def isDigitOrMark (c : Char) : Bool := c.isDigit || c == '_'

/-- The number of characters of an exponent, zero if there is none. -/
def exponentLength : Text → Nat
  | e :: c :: rest =>
    if e = 'e' ∨ e = 'E' then
      if c.isDigit then lengthWhile isDigitOrMark (c :: rest) + 1
      else if (c = '+' ∨ c = '-') ∧ rest.head?.any Char.isDigit then lengthWhile isDigitOrMark rest + 2
      else 0
    else 0
  | _ => 0

/-- The number of characters of a number. -/
def numberLength (text : Text) : Nat :=
  match text with
  | '0' :: base :: rest =>
    if ['x', 'X', 'b', 'B', 'o', 'O'].contains base ∧ rest.head?.any Char.isAlphanum then
      lengthWhile Text.isWord rest + 2
    else decimal text
  | _ => decimal text
where
  /-- The number of characters of a number in decimal digits. -/
  decimal (text : Text) : Nat :=
    let whole := lengthWhile isDigitOrMark text
    let fraction :=
      match text.drop whole with
      | '.' :: rest => if rest.head? = some '.' then 0 else lengthWhile isDigitOrMark rest + 1
      | _ => 0
    whole + fraction + exponentLength (text.drop (whole + fraction))

/-- The types that convert a value when they stand in parentheses. -/
def conversions : List Text :=
  ["string", "binary", "int", "integer", "double", "real", "float", "bool", "boolean", "array",
    "object", "unset", "void"].map String.toList

/-- The number of characters of a conversion behind its `(`, if it is one. -/
def conversionLength? (text : Text) : Option Nat :=
  let lead := lengthWhile isInlineBlank text
  let name := (text.drop lead).takeWhile Char.isAlpha
  let trail := lengthWhile isInlineBlank (text.drop (lead + name.length))
  if conversions.contains (Text.lower name) ∧
      (text.drop (lead + name.length + trail)).head? = some ')' then
    some (lead + name.length + trail + 1)
  else none

/-- The marks and operators of more than one character, the longer ones first. -/
def longSymbols : List Text :=
  ["===", "!==", "<=>", "**=", "...", "<<=", ">>=", "??=", "?->", "==", "!=", "<>", "<=", ">=", "&&",
    "||", "??", "++", "--", "+=", "-=", "*=", "/=", ".=", "%=", "&=", "|=", "^=", "->", "=>", "::",
    "<<", ">>", "**", "|>"].map String.toList

/-- The marks and operators of one character. -/
def shortSymbols : Text := "+-*/%.&|^~!<>=?:;,()[]\x7b\x7d@$\\".toList

/-- The number of characters of the mark or operator at the beginning of a text. -/
def symbolLength? (text : Text) : Option Nat :=
  match longSymbols.find? (·.isPrefixOf text) with
  | some spelling => some spelling.length
  | none => if text.head?.any shortSymbols.contains then some 1 else none

/-! ### Documents -/

/-- The beginning of a document: the number of characters up to its first line, its label, and whether
its text is taken verbatim. -/
structure Opening where
  length : Nat
  label : Text
  verbatim : Bool

/-- A line break at the beginning of a text. -/
def breakLength : Text → Nat
  | '\r' :: '\n' :: _ => 2
  | '\n' :: _ => 1
  | _ => 0

/-- The beginning of a document behind its `<<<`. -/
def opening? (text : Text) : Option Opening :=
  let lead := lengthWhile Text.isBlank text
  let (mark, labelled) :=
    match text.drop lead with
    | '"' :: rest => (some '"', rest)
    | '\'' :: rest => (some '\'', rest)
    | rest => (none, rest)
  let label := if labelled.head?.any isNameStart then labelled.takeWhile isNamePart else []
  let behind := labelled.drop label.length
  let closing := if mark.isSome ∧ behind.head? = mark then 1 else 0
  let lineBreak := breakLength (behind.drop closing)
  if label = [] ∨ lineBreak = 0 ∨ (mark = some '\'' ∧ closing = 0) then none
  else
    some ⟨lead + (if mark.isSome then 1 else 0) + label.length + closing + lineBreak, label,
      mark = some '\''⟩

/-- A piece of a document. -/
inductive Stretch where
  /-- So many characters of text. -/
  | piece (length : Nat)
  /-- The label that ends the document, with the blanks before it. -/
  | ending (length : Nat)

/-- One more character. -/
def Stretch.more (count : Nat) : Stretch → Stretch
  | piece length => piece (length + count)
  | ending length => ending (length + count)

/-- The next piece of a document, at most to the end of its line and to where code begins. A label
counts only where `fresh` holds, with nothing but blanks before it; code does not begin where a
backslash stands before it (`escaped`). -/
def stretch (label : Text) (verbatim : Bool) : Bool → Bool → Text → Stretch
  | _, _, [] => .piece 0
  | escaped, fresh, c :: rest =>
    if c = '\r' ∧ rest.head? = some '\n' then .piece 2
    else if c = '\n' ∨ c = '\r' then .piece 1
    else if Text.isBlank c then (stretch label verbatim escaped fresh rest).more 1
    else if !verbatim && !escaped && beginsCode (c :: rest) then .piece 0
    else if c = '\\' ∧ !verbatim then (stretch label verbatim (!escaped) false rest).more 1
    else if fresh && label.isPrefixOf (c :: rest)
        && !((c :: rest).drop label.length).head?.any isNamePart then
      .ending label.length
    else (stretch label verbatim false false rest).more 1

/-! ### Code inside strings -/

/-- The number of characters up to the brace that closes `depth` open ones, or of the whole text. -/
def braceLength : Nat → Text → Nat
  | _, [] => 0
  | depth, '{' :: rest => braceLength (depth + 1) rest + 1
  | 0, '}' :: _ => 1
  | depth + 1, '}' :: rest => braceLength depth rest + 1
  | depth, _ :: rest => braceLength depth rest + 1

/-- The number of characters up to the bracket that closes `depth` open ones, or of the whole text. -/
def bracketLength : Nat → Text → Nat
  | _, [] => 0
  | depth, '[' :: rest => bracketLength (depth + 1) rest + 1
  | 0, ']' :: _ => 1
  | depth + 1, ']' :: rest => bracketLength depth rest + 1
  | depth, _ :: rest => bracketLength depth rest + 1

/-- The number of characters of an index or a property behind a variable in a string. -/
def accessLength : Text → Nat
  | '[' :: ']' :: _ => 0
  | '[' :: rest => bracketLength 0 rest + 1
  | '-' :: '>' :: c :: rest => if isNameStart c then lengthWhile isNamePart rest + 3 else 0
  | '?' :: '-' :: '>' :: c :: rest => if isNameStart c then lengthWhile isNamePart rest + 4 else 0
  | _ => 0

/-- The number of characters of the code that begins here inside a string. -/
def codeLength (text : Text) : Nat :=
  match text with
  | '$' :: '{' :: rest => braceLength 0 rest + 2
  | '{' :: '$' :: rest => braceLength 0 rest + 2
  | _ :: _ :: rest =>
    let name := lengthWhile isNamePart rest
    name + 2 + accessLength (rest.drop name)
  | _ => text.length

/-- The number of characters of a string up to its closing mark or to where code begins. -/
def quotedLength (mark : Char) : Bool → Text → Nat
  | _, [] => 0
  | escaped, c :: rest =>
    if !escaped && beginsCode (c :: rest) then 0
    else if c = '\\' then quotedLength mark (!escaped) rest + 1
    else if c = mark ∧ !escaped then 0
    else quotedLength mark false rest + 1

/-! ### The lexer -/

/-- A string that is being read, or a stretch of code inside it. -/
inductive Frame where
  /-- A string that ends with `mark`. -/
  | quoted (mark : Char)
  /-- A document with the given label. -/
  | document (label : Text) (verbatim : Bool)
  /-- Code inside a string, up to the given byte offset. -/
  | code (stop : Nat)
  deriving DecidableEq, Repr

/-- Where in a script the lexer is. -/
inductive Mode where
  /-- Outside the tags. -/
  | outside
  /-- Inside the tags, within the given strings, the innermost first. -/
  | inside (frames : List Frame)
  /-- Behind the word that ends the script. -/
  | halted
  deriving DecidableEq, Repr

/-- The frames without the stretches of code that end at or before `position`, and all within them. -/
def settle (position : Nat) : List Frame → List Frame
  | [] => []
  | frame :: rest =>
    let outer := settle position rest
    if outer.length < rest.length then outer
    else
      match frame with
      | .code stop => if stop ≤ position then rest else frame :: rest
      | _ => frame :: rest

/-- The next token: its kind, the number of its characters, and the mode behind it. -/
abbrev Step := Kind × Nat × Mode

/-- The next token outside the tags. -/
def stepOutside (text : Text) : Step :=
  if "<?".toList.isPrefixOf text then
    if Text.lower (text.take 5) = "<?php".toList then (.openTag, 5, .inside [])
    else if "<?=".toList.isPrefixOf text then (.echoTag, 3, .inside [])
    else (.openTag, 2, .inside [])
  else if "#!".toList.isPrefixOf text then
    (.outside, (lengthThrough? ['\n'] text).getD text.length, .outside)
  else (.outside, lengthBefore ("<?".toList.isPrefixOf) text, .outside)

/-- The word behind which a script ends. -/
def haltWord : Text := "__halt_compiler".toList

/-- The next token inside the tags, where code is read. -/
def stepCode (frames : List Frame) (text : Text) : Option Step :=
  let here := Mode.inside frames
  match text with
  | [] => none
  | '?' :: '>' :: _ => some (.closeTag, 2, .outside)
  | '#' :: '[' :: _ => some (.symbol, 2, here)
  | '#' :: rest => some (.lineComment, lengthBefore endsLineComment rest + 1, here)
  | '/' :: '/' :: rest => some (.lineComment, lengthBefore endsLineComment rest + 2, here)
  | '/' :: '*' :: rest =>
    (lengthThrough? "*/".toList rest).map fun length =>
      (if rest.head? = some '*' ∧ length ≠ 2 then .docblock else .blockComment, length + 2, here)
  | '\'' :: rest => (singleQuoted? rest).map fun length => (.literal, length + 1, here)
  | '"' :: rest =>
    if holdsCode rest then some (.openQuote, 1, .inside (.quoted '"' :: frames))
    else (doubleQuoted? rest).map fun length => (.literal, length + 1, here)
  | '`' :: _ => some (.openQuote, 1, .inside (.quoted '`' :: frames))
  | c :: rest =>
    if Text.isGap c then some (.blank, lengthWhile Text.isGap text, here)
    else if c = '$' ∧ rest.head?.any isNameStart then
      some (.variableName, lengthWhile isNamePart rest + 1, here)
    else if isNameStart c then
      if Text.lower (text.take (nameLength text)) = haltWord then some (.word, nameLength text, .halted)
      else if (text.take (nameLength text)).contains '\\' then some (.qualified, nameLength text, here)
      else if (c = 'b' ∨ c = 'B') ∧ rest.head? = some '\'' then
        (singleQuoted? rest.tail).map fun length => (.literal, length + 2, here)
      else if (c = 'b' ∨ c = 'B') ∧ rest.head? = some '"' then
        if holdsCode rest.tail then some (.openQuote, 2, .inside (.quoted '"' :: frames))
        else (doubleQuoted? rest.tail).map fun length => (.literal, length + 2, here)
      else some (.word, nameLength text, here)
    else if c = '\\' ∧ rest.head?.any isNameStart then some (.qualified, nameLength rest + 1, here)
    else if c.isDigit ∨ (c = '.' ∧ rest.head?.any Char.isDigit) then
      some (.number, numberLength text, here)
    else
      match if "<<<".toList.isPrefixOf text then opening? (text.drop 3) else none with
      | some opening =>
        some (.openQuote, opening.length + 3,
          .inside (.document opening.label opening.verbatim :: frames))
      | none =>
        match if c = '(' then conversionLength? rest else none with
        | some length => some (.conversion, length + 1, here)
        | none => (symbolLength? text).map fun length => (.symbol, length, here)

/-- The next token where code begins inside a string, at the byte offset `position`. -/
def stepIntoCode (position : Nat) (frames : List Frame) (text : Text) : Option Step :=
  stepCode (.code (position + Text.size (text.take (codeLength text))) :: frames) text

/-- The next token inside the tags. -/
def stepInside (position : Nat) (frames : List Frame) (text : Text) : Option Step :=
  match frames with
  | .quoted mark :: outer =>
    match quotedLength mark false text with
    | 0 =>
      if text.head? = some mark then some (.closeQuote, 1, .inside outer)
      else stepIntoCode position frames text
    | length => some (.fragment, length, .inside frames)
  | .document label verbatim :: outer =>
    match stretch label verbatim false true text with
    | .ending length => some (.closeQuote, length, .inside outer)
    | .piece 0 => stepIntoCode position frames text
    | .piece length => some (.fragment, length, .inside frames)
  | _ => stepCode frames text

/-- The next token of a script. -/
def step (mode : Mode) (position : Nat) (text : Text) : Option Step :=
  match mode with
  | .outside => some (stepOutside text)
  | .inside frames => stepInside position (settle position frames) text
  | .halted => some (.outside, text.length, .halted)

/-- The tokens of `text`, which stands at the byte offset `position`; at most `fuel` of them. -/
def lex : Nat → Mode → Nat → Text → List Token
  | 0, _, _, _ => []
  | fuel + 1, mode, position, text =>
    if text = [] then []
    else
      match step mode position text with
      | none => []
      | some (_, 0, _) => []
      | some (kind, length, behind) =>
        let token : Token := ⟨kind, text.take length, position⟩
        token :: lex fuel behind token.stop (text.drop length)

/-- The tokens of a script. -/
def tokens (script : Text) : List Token := lex script.length .outside 0 script

/-- The tokens stand one behind the other, the first one at the byte offset `position`. -/
def Adjoining : Nat → List Token → Prop
  | _, [] => True
  | position, token :: rest => token.start = position ∧ Adjoining token.stop rest

theorem lex_adjoining (fuel : Nat) (mode : Mode) (position : Nat) (text : Text) :
    Adjoining position (lex fuel mode position text) := by
  induction fuel generalizing mode position text with
  | zero => trivial
  | succ fuel ih =>
    simp only [lex]
    split
    · trivial
    · split
      · trivial
      · trivial
      · exact ⟨rfl, ih _ _ _⟩

theorem flatMap_lex_isPrefix (fuel : Nat) (mode : Mode) (position : Nat) (text : Text) :
    (lex fuel mode position text).flatMap Token.text <+: text := by
  induction fuel generalizing mode position text with
  | zero => exact List.nil_prefix
  | succ fuel ih =>
    simp only [lex]
    split
    · exact List.nil_prefix
    · split
      · exact List.nil_prefix
      · exact List.nil_prefix
      · rename_i kind length behind _ _
        obtain ⟨left, all⟩ := ih behind (Token.stop ⟨kind, text.take length, position⟩) (text.drop length)
        exact ⟨left, by simp only [List.flatMap_cons, List.append_assoc, all, List.take_append_drop]⟩

/-- The tokens of a script stand one behind the other. -/
theorem tokens_adjoining (script : Text) : Adjoining 0 (tokens script) := lex_adjoining _ _ _ _

/-- The tokens of a script are cut from its beginning, without gaps. -/
theorem flatMap_tokens_isPrefix (script : Text) : (tokens script).flatMap Token.text <+: script :=
  flatMap_lex_isPrefix _ _ _ _

/-- The tokens of a script apart from its blanks and comments. -/
def code (script : Text) : List Token := (tokens script).filter (!·.kind.isTrivia)

end AnnotationCheck.Php
