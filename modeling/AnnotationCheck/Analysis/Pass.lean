import AnnotationCheck.Comment
import AnnotationCheck.Issue.Basic
import AnnotationCheck.Symbols
import AnnotationCheck.VarTag

/-!
Going through the comments of a file.

A pass holds the scope of the class at hand and the sink that takes the issues. While a comment is gone
through, the line of the scope is that of the comment. A sink that is full breaks at the next issue, and the way
through the file ends there: what goes on is the pass as an `Except.ok`, and what breaks off is the pass as it
stood then, as an `Except.error`. `Pass.guarded` puts the line back on either way.
-/

namespace AnnotationCheck

/-- The issue that a full name in a scope is not declared. -/
def Issue.undeclared (scope : Scope) (name : Text) : Issue :=
  { arguments := [name], file := scope.file, line := scope.line, owner := scope.owner }

/-- What takes the issues. -/
structure Sink where
  /-- The issues taken so far. -/
  taken : List Issue := []
  /-- How many more it can take; without a number there is no limit. -/
  room : Option Nat := none
  deriving DecidableEq, Repr

namespace Sink

/-- The sink that was given an issue; nothing where it breaks. -/
def put? (sink : Sink) (issue : Issue) : Option Sink :=
  match sink.room with
  | none => some { sink with taken := sink.taken ++ [issue] }
  | some 0 => none
  | some (room + 1) => some { taken := sink.taken ++ [issue], room := some room }

end Sink

/-- The scope of the class at hand and the sink, in the middle of a file. -/
structure Pass where
  scope : Scope
  sink : Sink
  deriving DecidableEq, Repr

namespace Pass

/-- The pass with the scope at another line. -/
def atLine (pass : Pass) (line : Nat) : Pass := { pass with scope := { pass.scope with line := line } }

/-- The pass after a name was found that is not declared; it breaks off with the sink. -/
def report (pass : Pass) (name : Text) : Except Pass Pass :=
  match pass.sink.put? (Issue.undeclared pass.scope name) with
  | some sink => .ok { pass with sink := sink }
  | none => .error pass

/-- The pass after an annotation. -/
def tag (known : Text → Bool) (pass : Pass) (tag : VarTag) : Except Pass Pass :=
  (pass.scope.missing known tag.type).foldlM report pass

/-- The pass after a comment. -/
def comment (known : Text → Bool) (pass : Pass) (comment : Comment) : Except Pass Pass :=
  (VarTag.ofText comment.line comment.text).foldlM (tag known) (pass.atLine comment.line)

/-- A way through a file with the scope put back to a line, whether it came to its end or broke off. -/
def guarded (line : Nat) : Except Pass Pass → Except Pass Pass
  | .ok pass => .ok (pass.atLine line)
  | .error pass => .error (pass.atLine line)

/-- The pass after the comments of a file, with its scope at the line where it was. -/
def run (known : Text → Bool) (comments : List Comment) (pass : Pass) : Except Pass Pass :=
  guarded pass.scope.line (comments.foldlM (comment known) pass)

end Pass

end AnnotationCheck
