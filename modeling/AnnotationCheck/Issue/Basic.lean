import AnnotationCheck.Path.Order

/-!
What the check reports: a class-like that an annotation names and that is not declared.
-/

namespace AnnotationCheck

/-- A finding of the check. -/
structure Issue where
  /-- The kind of finding. -/
  kind : Text := "UndeclaredTypeInInlineVar".toList
  /-- The message, with a mark where the class name goes. -/
  template : Text := "The classlike \x7bCLASS\x7d in this \"var\" statement is undeclared".toList
  /-- What the message speaks of: the full name of the class-like. -/
  arguments : List Text
  /-- The file with the annotation. -/
  file : Path
  /-- The line of the comment with the annotation. -/
  line : Nat
  /-- The full name of the class at hand. -/
  owner : Text
  deriving DecidableEq, Repr

namespace Issue

/-- The mark in a message's template that the class name replaces. -/
def mark : Text := "\x7bCLASS\x7d".toList

/-- The full name of the class-like that is not declared. -/
def className (issue : Issue) : Text := issue.arguments.headD []

/-- The message of an issue. -/
def message (issue : Issue) : Text := Text.replace mark issue.className issue.template

/-- A line of a report: the path, the line number, the kind and the message. -/
def lineFor (path : Text) (issue : Issue) : Text :=
  path ++ ":".toList ++ Nat.toDigits 10 issue.line ++ ": ".toList ++ issue.kind ++ " ".toList ++ issue.message

/-- The issue on one line, with its path as written. -/
def display (issue : Issue) : Text := issue.lineFor issue.file.text

/-- Whether an issue may stand before another one: files by path, then lines. -/
def le (left right : Issue) : Bool :=
  ((left.file.compare right.file).then (compare left.line right.line)).isLE

/-- Issues by file and line; those of one line keep their order. -/
def sort (issues : List Issue) : List Issue := issues.mergeSort le

end Issue

end AnnotationCheck
