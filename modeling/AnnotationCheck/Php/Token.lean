import AnnotationCheck.Text.Offset

/-!
The tokens of a PHP script.

A token is a piece of the script together with the byte offset at which it begins. Blanks and comments
are tokens too; together they are the *trivia* of a script, and the other tokens are its *code*.
-/

namespace AnnotationCheck.Php

/-- The kinds of tokens. -/
inductive Kind where
  /-- Text outside the code. -/
  | outside
  /-- `<?php` or `<?`. -/
  | openTag
  /-- `<?=`. -/
  | echoTag
  /-- `?>`. -/
  | closeTag
  /-- White space between tokens of the code. -/
  | blank
  /-- A comment that ends with its line. -/
  | lineComment
  /-- A comment between `/*` and `*/`. -/
  | blockComment
  /-- A comment between `/**` and `*/`. -/
  | docblock
  /-- A variable with its `$`. -/
  | variableName
  /-- A keyword or a name of one segment. -/
  | word
  /-- A name of several segments, or one with a separator before it. -/
  | qualified
  /-- A number. -/
  | number
  /-- A string without parts that are code. -/
  | literal
  /-- The beginning of a string that may hold parts that are code. -/
  | openQuote
  /-- A part of such a string. -/
  | fragment
  /-- The end of such a string. -/
  | closeQuote
  /-- A type in parentheses that converts what follows. -/
  | conversion
  /-- An operator or a mark. -/
  | symbol
  deriving DecidableEq, Repr

/-- The comments among the kinds. -/
def Kind.isComment : Kind → Bool
  | lineComment | blockComment | docblock => true
  | _ => false

/-- Blanks and comments. -/
def Kind.isTrivia (kind : Kind) : Bool := kind == blank || kind.isComment

/-- A piece of a script. -/
structure Token where
  kind : Kind
  text : Text
  /-- The byte offset at which the token begins. -/
  start : Nat
  deriving DecidableEq, Repr

namespace Token

/-- The byte offset at which the token ends. -/
def stop (token : Token) : Nat := token.start + Text.size token.text

/-- A mark or an operator of the given spelling. -/
def isSymbol (spelling : String) (token : Token) : Bool :=
  token.kind == .symbol && token.text == spelling.toList

/-- The given word, in any case. -/
def isWord (word : String) (token : Token) : Bool :=
  token.kind == .word && Text.lower token.text == word.toList

/-- One of the given words, in any case. -/
def isOneOf (words : List Text) (token : Token) : Bool :=
  token.kind == .word && words.contains (Text.lower token.text)

end Token

end AnnotationCheck.Php
