import AnnotationCheck.Analysis.Pass
import AnnotationCheck.Path.Set

/-!
The analysis of the file that declares a class.

`Analysis.run` goes through the file's comments, unless the class has no file, the file is excluded or it
was analyzed before. A file counts as analyzed from before it is read, so a file that cannot be read is
not tried again.
-/

namespace AnnotationCheck

/-- What the analysis asks of the code base. -/
structure Host where
  /-- Whether a class-like of this full name is known. -/
  has : Text → Bool
  isExcluded : Path → Bool
  /-- The text of a file, or the reason why it cannot be read. -/
  read : Path → Except Text Text

/-- The answer of the code base to the question for the text of a file, and the files that were asked for. -/
def Host.fetch (host : Host) (file : Path) : Except Text Text × List Path := (host.read file, [file])

/-- What keeps an analysis from its end. -/
inductive AnalysisError where
  | unreadable (file : Path) (reason : Text)
  /-- The sink could not take an issue. -/
  | brokenSink
  deriving DecidableEq, Repr

namespace AnalysisError

/-- The message for an error; a broken sink has none. -/
def message : AnalysisError → Text
  | unreadable file reason => "failed to read ".toList ++ file.text ++ ": ".toList ++ reason
  | brokenSink => []

end AnalysisError

/-- What an analysis leaves. -/
structure Analysis where
  /-- The issues that were taken. -/
  issues : List Issue := []
  error : Option AnalysisError := none
  /-- The scope of the class as its owner finds it again. -/
  scope : Scope
  /-- The files analyzed so far. -/
  analyzed : PathSet
  /-- The files that were asked for their text, in order. -/
  asked : List Path := []
  deriving DecidableEq, Repr

namespace Analysis

variable [Php.Parser]

/-- The analysis of a file with the given text, for which the given files were asked. -/
def ofText (host : Host) (strategy : Strategy) (scope : Scope) (room : Option Nat) (analyzed : PathSet)
    (asked : List Path) (content : Text) : Analysis :=
  match Pass.run host.has (Comment.ofScript content strategy scope.line) ⟨scope, { room := room }⟩ with
  | .ok pass => { issues := pass.sink.taken, scope := pass.scope, analyzed := analyzed, asked := asked }
  | .error pass =>
    { issues := pass.sink.taken, error := some .brokenSink, scope := pass.scope, analyzed := analyzed,
      asked := asked }

/-- The analysis for a class in the given scope, which the given file declares; a built-in class has no
file. -/
def run (host : Host) (strategy : Strategy) (file : Option Path) (scope : Scope) (room : Option Nat)
    (analyzed : PathSet) : Analysis :=
  match file with
  | none => { scope := scope, analyzed := analyzed }
  | some file =>
    if host.isExcluded file || analyzed.contains file then { scope := scope, analyzed := analyzed }
    else
      match host.fetch file with
      | (.error reason, asked) =>
        { error := some (.unreadable file reason), scope := scope, analyzed := analyzed.insert file,
          asked := asked }
      | (.ok content, asked) => ofText host strategy scope room (analyzed.insert file) asked content

end Analysis

end AnnotationCheck
