import AnnotationCheck.Php.Token

/-!
Rules that read tokens by looking ahead, without going back.

A rule is read from left to right and never tries a second way: a choice is made by looking at the
tokens ahead. Where a required token is missing, reading stops at that place; `Rule.recover` goes on
from there, so that one mistake does not spoil what follows it. `read` leaves an end part of the tokens
it is given (`read_suffix`).
-/

namespace AnnotationCheck.Php

/-- A question about the tokens ahead. -/
abbrev Ahead := List Token → Bool

/-- A rule over the named parts of a grammar. -/
inductive Rule (name : Type) where
  /-- Reads nothing. -/
  | nothing
  /-- Stops. -/
  | fail
  /-- Reads one token of a kind, or stops. -/
  | token (test : Token → Bool)
  /-- Reads one rule after the other. -/
  | both (first second : Rule name)
  /-- Reads one of two rules. -/
  | choose (ahead : Ahead) (yes no : Rule name)
  /-- Reads a rule as often as the tokens ahead ask for it. -/
  | many (ahead : Ahead) (body : Rule name)
  /-- Reads a rule until a token of a kind or the end is ahead. Where the rule stops, it is read again
  from there, and one token is left out where nothing was read. -/
  | recover (stop : Token → Bool) (body : Rule name)
  /-- Reads a named part. -/
  | part (name : name)

namespace Rule

variable {name : Type}

/-- Whether the next token is of a kind. -/
def next (test : Token → Bool) : Ahead := fun tokens => tokens.head?.any test

/-- Whether the token behind the next one is of a kind. -/
def second (test : Token → Bool) : Ahead := fun tokens => tokens.tail.head?.any test

/-- Reads one rule after the other. -/
def all (rules : List (Rule name)) : Rule name := rules.foldr both nothing

/-- Reads the rule of the first question that holds, or the last one. -/
def cases (choices : List (Ahead × Rule name)) (otherwise : Rule name) : Rule name :=
  choices.foldr (fun choice rest => choose choice.1 choice.2 rest) otherwise

/-- Reads a rule if a token of a kind is ahead. -/
def optional (test : Token → Bool) (rule : Rule name) : Rule name := choose (next test) rule nothing

/-- Reads a token if it is of a kind. -/
def optionalToken (test : Token → Bool) : Rule name := optional test (token test)

end Rule

/-- What is left of the tokens where a rule stopped, less one if it read nothing. -/
def goOn (tokens rest : List Token) : List Token :=
  if rest.length < tokens.length then rest else tokens.tail

/-- Reads a rule: whether it was read to its end, and the tokens that are left. -/
def read {name : Type} (rules : name → Rule name) : Nat → Rule name → List Token → Bool × List Token
  | 0, _, tokens => (false, tokens)
  | _ + 1, .nothing, tokens => (true, tokens)
  | _ + 1, .fail, tokens => (false, tokens)
  | _ + 1, .token test, tokens =>
    match tokens with
    | [] => (false, [])
    | first :: rest => if test first then (true, rest) else (false, tokens)
  | fuel + 1, .both first second, tokens =>
    match read rules fuel first tokens with
    | (true, rest) => read rules fuel second rest
    | (false, rest) => (false, rest)
  | fuel + 1, .choose ahead yes no, tokens => read rules fuel (if ahead tokens then yes else no) tokens
  | fuel + 1, .many ahead body, tokens =>
    if ahead tokens then
      match read rules fuel body tokens with
      | (true, rest) => read rules fuel (.many ahead body) rest
      | (false, rest) => (false, rest)
    else (true, tokens)
  | fuel + 1, .recover stop body, tokens =>
    match tokens with
    | [] => (true, [])
    | first :: _ =>
      if stop first then (true, tokens)
      else
        match read rules fuel body tokens with
        | (_, rest) => read rules fuel (.recover stop body) (goOn tokens rest)
  | fuel + 1, .part name, tokens => read rules fuel (rules name) tokens

theorem goOn_suffix {tokens rest : List Token} (left : rest <:+ tokens) : goOn tokens rest <:+ tokens := by
  unfold goOn
  split
  · exact left
  · exact List.tail_suffix tokens

/-- What a rule leaves is an end part of the tokens. -/
theorem read_suffix {name : Type} (rules : name → Rule name) (fuel : Nat) (rule : Rule name)
    (tokens : List Token) : (read rules fuel rule tokens).2 <:+ tokens := by
  induction fuel generalizing rule tokens with
  | zero => exact List.suffix_refl _
  | succ fuel ih =>
    cases rule with
    | nothing => exact List.suffix_refl _
    | fail => exact List.suffix_refl _
    | token test =>
      simp only [read]
      split
      · exact List.suffix_refl _
      · split
        · exact List.suffix_cons _ _
        · exact List.suffix_refl _
    | both first second =>
      have one := ih first tokens
      simp only [read]
      split
      · rename_i rest found
        rw [found] at one
        exact (ih second rest).trans one
      · rename_i rest found
        rw [found] at one
        exact one
    | choose ahead yes no => exact ih _ tokens
    | many ahead body =>
      have one := ih body tokens
      simp only [read]
      split
      · split
        · rename_i rest found
          rw [found] at one
          exact (ih _ rest).trans one
        · rename_i rest found
          rw [found] at one
          exact one
      · exact List.suffix_refl _
    | recover stop body =>
      simp only [read]
      split
      · exact List.suffix_refl _
      · split
        · exact List.suffix_refl _
        · exact (ih _ _).trans (goOn_suffix (ih body _))
    | part part => exact ih _ tokens

end AnnotationCheck.Php
