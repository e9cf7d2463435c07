import AnnotationCheck.Php.Grammar
import AnnotationCheck.Php.Lexer
import AnnotationCheck.Php.Program

/-!
A parser of scripts.

`Php.statements` reads the statements off the tokens of a script; a statement with a mistake in it is left out,
and reading goes on where it stopped. So the parser never gives up.
-/

namespace AnnotationCheck.Php

/-! ### Imports -/

/-- The tokens between commas. -/
def betweenCommas : List Token → List (List Token)
  | [] => [[]]
  | token :: rest =>
    match betweenCommas rest with
    | [] => [[token]]
    | item :: more => if token.isSymbol "," then [] :: item :: more else (token :: item) :: more

/-- The import that the tokens between two commas spell. -/
def importItem? : List Token → Option ImportItem
  | [name] => some ⟨name.text, none⟩
  | [name, _, shortName] => some ⟨name.text, some shortName.text⟩
  | _ => none

/-- The import that the tokens between two commas of a group spell, with the mark of a function or
constant. -/
def groupItem? (tokens : List Token) : Option (Bool × ImportItem) :=
  match tokens with
  | kind :: rest =>
    if Grammar.isImportKind kind then (importItem? rest).map (true, ·)
    else (importItem? tokens).map (false, ·)
  | [] => none

/-- The imports of a `use` that the given tokens spell, from behind the word on. -/
def importList : List Token → ImportList
  | first :: behind :: rest =>
    if Grammar.isImportKind first then .others
    else if behind.isSymbol "\\" then
      .group first.text
        ((betweenCommas (rest.tail.takeWhile fun token => !token.isSymbol "\x7d")).filterMap groupItem?)
    else
      .names ((betweenCommas ((first :: behind :: rest).takeWhile
        fun token => !Grammar.endsStatement token)).filterMap importItem?)
  | [first] => .names [⟨first.text, none⟩]
  | [] => .others

/-! ### Reading -/

/-- The words that a declaration of a class-like begins with behind its attributes and modifiers. -/
def classLikeWords : List Text := ["class", "interface", "trait", "enum"].map String.toList

/-- The name that a declaration of a class-like behind its attributes gives. -/
def declaredName? (tokens : List Token) : Option Text :=
  match tokens.dropWhile Grammar.isClassModifier with
  | first :: name :: _ =>
    if first.isOneOf classLikeWords && Grammar.isAnyWord name then some name.text else none
  | _ => none

/-- The statement that the given tokens spell, at most `limit` steps deep. -/
def statementOf (limit : Nat) (tokens : List Token) : Statement :=
  match tokens with
  | [] => .other
  | first :: rest =>
    if first.isWord "use" then .imports (importList rest)
    else
      match declaredName? (read grammar limit (.part .attributes) tokens).2 with
      | some name => .declares ⟨name, first.start⟩
      | none => .other

/-- The name behind the word of a namespace, if there is one, and what follows it; nothing where no
namespace can follow. -/
def spaceName? : List Token → Option (Option Text × List Token)
  | [] => none
  | first :: rest =>
    if Grammar.endsStatement first || first.isSymbol "\x7b" then some (none, first :: rest)
    else if Grammar.isName first then some (some first.text, rest)
    else none

/-- The statements up to a token of a kind, and what is left behind them. -/
def statementsUntil (limit : Nat) : Nat → (Token → Bool) → List Token → List Statement × List Token
  | 0, _, tokens => ([], tokens)
  | _ + 1, _, [] => ([], [])
  | fuel + 1, stop, first :: rest =>
    if stop first then ([], first :: rest)
    else if first.isWord "namespace" then
      match spaceName? rest with
      | none => statementsUntil limit fuel stop rest
      | some (name, behind) =>
        match behind with
        | opening :: inner =>
          if opening.isSymbol "\x7b" then
            match statementsUntil limit fuel (Token.isSymbol "\x7d") inner with
            | (body, _ :: left) =>
              let (more, last) := statementsUntil limit fuel stop left
              (.space name body :: more, last)
            | (_, []) => ([], [])
          else
            let start := if Grammar.endsStatement opening then inner else behind
            let (body, left) := statementsUntil limit fuel (Token.isWord "namespace") start
            let (more, last) := statementsUntil limit fuel stop left
            (.space name body :: more, last)
        | [] => ([.space name []], [])
    else
      match read grammar limit (.part .statement) (first :: rest) with
      | (true, left) =>
        let (more, last) := statementsUntil limit fuel stop (goOn (first :: rest) left)
        (statementOf limit ((first :: rest).take ((first :: rest).length - left.length)) :: more, last)
      | (false, left) => statementsUntil limit fuel stop (goOn (first :: rest) left)

/-- The number of steps that reading so many tokens may take. -/
def depthLimit (count : Nat) : Nat := 256 * (count + 1)

/-- The statements of a script. -/
def statements (script : Text) : List Statement :=
  let tokens := code script
  (statementsUntil (depthLimit tokens.length) (tokens.length + 1) (fun _ => false) tokens).1

/-- The kind of trivia that a token is of, if it is trivia. -/
def Token.trivia? (token : Token) : Option TriviaKind :=
  match token.kind with
  | .blank => some .blank
  | .lineComment => some (if token.text.head? = some '#' then .hashComment else .lineComment)
  | .blockComment => some .blockComment
  | .docblock => some .docblock
  | _ => none

/-- The trivia of a script. -/
def trivia (script : Text) : List Trivia :=
  (tokens script).filterMap fun token => token.trivia?.map (⟨·, token.text, token.start, token.stop⟩)

/-- What a script spells. -/
def program (script : Text) : Program := ⟨trivia script, statements script⟩

/-- The parser of this library. -/
instance : Parser := ⟨fun script => some (program script)⟩

end AnnotationCheck.Php
