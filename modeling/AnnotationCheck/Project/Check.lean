import AnnotationCheck.Project.Basic

/-!
Checking a project: every class-like of it is handed to the analysis, in order, and the issues and
errors are collected.

`Project.analyses` are the single analyses, each one with the files that count as analyzed after the one
before; `Project.check` is what they come to.
-/

namespace AnnotationCheck

/-- What a check found. -/
structure CheckResult where
  issues : List Issue
  errors : List AnalysisError
  /-- The files that count as analyzed after the check. -/
  analyzed : PathSet
  deriving DecidableEq, Repr

namespace CheckResult

/-- What analyses come to, where `before` are the files that counted as analyzed. -/
def ofAnalyses (before : PathSet) (analyses : List Analysis) : CheckResult where
  issues := analyses.flatMap (·.issues)
  errors := analyses.filterMap (·.error)
  analyzed := (analyses.getLast?.map (·.analyzed)).getD before

/-- The number of files that count as analyzed since `before`. -/
def filesAnalyzed (result : CheckResult) (before : PathSet) : Nat := result.analyzed.size - before.size

end CheckResult

namespace Project

variable [Php.Parser]

/-- The analyses for the class-likes of some scopes, one after the other. -/
def analyses (host : Host) (strategy : Strategy) : PathSet → List Scope → List Analysis
  | _, [] => []
  | analyzed, scope :: rest =>
    let analysis := Analysis.run host strategy (some scope.file) scope none analyzed
    analysis :: analyses host strategy analysis.analyzed rest

/-- What a check of a project finds, where the given files count as analyzed already. -/
def check (project : Project) (disk : Disk) (strategy : Strategy) (analyzed : PathSet) : CheckResult :=
  .ofAnalyses analyzed (analyses (project.host disk) strategy analyzed project.declarations)

end Project

end AnnotationCheck
