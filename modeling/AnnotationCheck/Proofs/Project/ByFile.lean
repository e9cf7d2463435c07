import AnnotationCheck.Proofs.Issue.Sort
import AnnotationCheck.Proofs.Project.Check

/-!
What a check finds, file by file.

* `filter_issues`, `filter_errors` — what is found in some of the files is what going through these alone
  finds.
* **`ofFile_check`** — the issues of a file are those of one analysis, for the class-like that was indexed
  first for it.
-/

namespace AnnotationCheck

/-- The file that an error is about. -/
def AnalysisError.file? : AnalysisError → Option Path
  | unreadable file _ => some file
  | brokenSink => none

namespace Project

variable {host : Host} {strategy : Strategy}

theorem file?_of_errorOfFile {scope : Scope} {error : AnalysisError}
    (failed : errorOfFile host scope = some error) : error.file? = some scope.file := by
  unfold errorOfFile at failed
  split at failed
  · cases failed
  · cases failed
    rfl

theorem errorOfFile_congr {other : Host} {scope : Scope} (read : host.read scope.file = other.read scope.file) :
    errorOfFile host scope = errorOfFile other scope := by
  unfold errorOfFile
  rw [read]

theorem filter_errors (keeps : Path → Bool) (scopes : List Scope) :
    (scopes.filterMap (errorOfFile host)).filter (fun error => error.file?.all keeps)
      = (scopes.filter fun scope => keeps scope.file).filterMap (errorOfFile host) := by
  rw [List.filter_filterMap, List.filterMap_filter]
  congr 1
  funext scope
  cases failed : errorOfFile host scope with
  | none => simp
  | some error => simp [Option.filter, file?_of_errorOfFile failed]

variable [Php.Parser]

/-- An issue of a file is about a name that a type misses there. -/
theorem exists_missing_of_mem_issuesOfFile {scope : Scope} {issue : Issue}
    (found : issue ∈ issuesOfFile host strategy scope) :
    ∃ line type, ∃ name ∈ scope.missing host.has type, issue = Issue.undeclared { scope with line := line } name := by
  rw [issuesOfFile] at found
  split at found
  · rw [Analysis.ofText_unlimited] at found
    obtain ⟨comment, _, found⟩ := List.mem_flatMap.mp found
    obtain ⟨tag, _, found⟩ := List.mem_flatMap.mp found
    obtain ⟨name, missed, rfl⟩ := List.mem_map.mp found
    exact ⟨comment.line, tag.type, name, missed, rfl⟩
  · cases found

theorem file_of_mem_issuesOfFile {scope : Scope} {issue : Issue}
    (found : issue ∈ issuesOfFile host strategy scope) : issue.file = scope.file := by
  obtain ⟨line, type, name, _, rfl⟩ := exists_missing_of_mem_issuesOfFile found
  rfl

/-- An issue of a check is about a name that a type misses in one of the scopes. -/
theorem exists_missing_of_issue {project : Project} {disk : Disk} {analyzed : PathSet} {issue : Issue}
    (found : issue ∈ (project.check disk strategy analyzed).issues) :
    ∃ scope ∈ project.declarations, ∃ line type, ∃ name ∈ scope.missing project.hasClass type,
      issue = Issue.undeclared { scope with line := line } name := by
  rw [(goesThrough_check project disk strategy analyzed).issues] at found
  obtain ⟨scope, isDue, found⟩ := List.mem_flatMap.mp found
  exact ⟨scope, (due_sublist _).subset isDue, exists_missing_of_mem_issuesOfFile found⟩

/-- What is found in a file depends on its text and on the class-likes that are known. -/
theorem issuesOfFile_congr {other : Host} {scope : Scope} (has : host.has = other.has)
    (read : host.read scope.file = other.read scope.file) :
    issuesOfFile host strategy scope = issuesOfFile other strategy scope := by
  unfold issuesOfFile
  rw [read]
  cases other.read scope.file with
  | error reason => rfl
  | ok content => simp only [Analysis.ofText_unlimited, has]

theorem filter_issues (keeps : Path → Bool) (scopes : List Scope) :
    (scopes.flatMap (issuesOfFile host strategy)).filter (fun issue => keeps issue.file)
      = (scopes.filter fun scope => keeps scope.file).flatMap (issuesOfFile host strategy) := by
  induction scopes with
  | nil => rfl
  | cons scope rest ih =>
    rw [List.flatMap_cons, List.filter_append, ih, List.filter_cons]
    cases kept : keeps scope.file with
    | true =>
      have all : (issuesOfFile host strategy scope).filter (fun issue => keeps issue.file)
          = issuesOfFile host strategy scope := by
        refine List.filter_eq_self.mpr fun issue found => ?_
        rw [file_of_mem_issuesOfFile found, kept]
      rw [all, if_pos rfl, List.flatMap_cons]
    | false =>
      have none : (issuesOfFile host strategy scope).filter (fun issue => keeps issue.file) = [] := by
        refine List.filter_eq_nil_iff.mpr fun issue found => ?_
        rw [file_of_mem_issuesOfFile found, kept]
        exact Bool.false_ne_true
      rw [none, if_neg Bool.false_ne_true, List.nil_append]

/-- **The issues of a file** are those of one analysis, for the class-like that was indexed first for it. -/
theorem ofFile_check {project : Project} {file : Path} {first : Scope}
    (isFirst : project.declarations.find? (fun scope => decide (scope.file.Same file)) = some first)
    (disk : Disk) (strategy : Strategy) (analyzed : PathSet) :
    Issue.ofFile file (project.check disk strategy analyzed).issues
      = (Analysis.run (project.host disk) strategy (some first.file) first none analyzed).issues := by
  have ofPath : (fun scope : Scope => decide (file.Same scope.file))
      = fun scope => decide (scope.file.Same file) := by
    funext scope
    exact decide_eq_decide.mpr ⟨Eq.symm, Eq.symm⟩
  rw [(goesThrough_check project disk strategy analyzed).issues, Issue.ofFile,
    filter_issues fun path => decide (file.Same path), ofPath, filter_due, isFirst, Option.toList_some]
  by_cases skipped : project.isExcluded first.file = true ∨ analyzed.contains first.file = true
  · rw [Analysis.run_of_skipped skipped]
    rcases skipped with skipped | skipped <;> simp [skipped]
  · simp only [not_or, Bool.not_eq_true] at skipped
    obtain ⟨included, fresh⟩ := skipped
    have included' : (project.host disk).isExcluded first.file = false := included
    obtain ⟨issues, -⟩ := run_of_due strategy first included' fresh
    rw [issues]
    simp [included, fresh]

end Project

end AnnotationCheck
