import AnnotationCheck.Text.Basic

/-!
What a parser makes of a script: what stands between the tokens of its code, and its statements as far as names
and declarations need them.

A statement is a namespace with its body, a `use`, the declaration of a class-like, or another one. Which programs
a parser makes of which scripts is left to the parser; it may give up a script altogether.
-/

namespace AnnotationCheck.Php

/-- The kinds of what stands between the tokens of the code. -/
inductive TriviaKind where
  /-- White space. -/
  | blank
  /-- A comment behind `//`, which ends with its line. -/
  | lineComment
  /-- A comment behind `#`, which ends with its line. -/
  | hashComment
  /-- A comment between `/*` and `*/`. -/
  | blockComment
  /-- A comment between `/**` and `*/`. -/
  | docblock
  deriving DecidableEq, Repr

/-- The comments among the kinds. -/
def TriviaKind.isComment : TriviaKind → Bool
  | blank => false
  | lineComment | hashComment | blockComment | docblock => true

/-- A piece of a script between the tokens of its code. -/
structure Trivia where
  kind : TriviaKind
  text : Text
  /-- The byte offset at which it begins. -/
  start : Nat
  /-- The byte offset behind its end. -/
  stop : Nat
  deriving DecidableEq, Repr

/-- An imported name, and the name it is used under if that is given. -/
structure ImportItem where
  name : Text
  shortName : Option Text
  deriving DecidableEq, Repr

/-- The imports of one `use`. -/
inductive ImportList where
  /-- Class-likes by their full names. -/
  | names (items : List ImportItem)
  /-- Names below a common one, each with the mark of a function or constant. -/
  | group (base : Text) (items : List (Bool × ImportItem))
  /-- Functions or constants alone. -/
  | others
  deriving DecidableEq, Repr

/-- The declaration of a class, interface, trait or enumeration. -/
structure ClassLike where
  /-- The name that it declares, without a namespace. -/
  name : Text
  /-- The byte offset of its first token, attributes and modifiers included. -/
  start : Nat
  deriving DecidableEq, Repr

/-- A statement of a script. -/
inductive Statement where
  /-- A namespace with its name as written, if it has one, and its statements. -/
  | space (name : Option Text) (body : List Statement)
  /-- A `use`. -/
  | imports (list : ImportList)
  /-- The declaration of a class-like. -/
  | declares (classLike : ClassLike)
  /-- Any other statement. -/
  | other
  deriving Repr

/-- What a parser makes of a script. -/
structure Program where
  /-- What stands between the tokens of the code, in the order of the parser. -/
  trivia : List Trivia
  statements : List Statement
  deriving Repr

/-- A parser of scripts. -/
class Parser where
  /-- What the parser makes of a script; nothing where it gives up. -/
  parse? : Text → Option Program

export Parser (parse?)

end AnnotationCheck.Php
