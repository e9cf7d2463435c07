import AnnotationCheck.Php.Statement
import AnnotationCheck.Proofs.Project.ByFile

/-!
The number of files that a check counts as analyzed.

* `Analysis.scanned` — the file whose text an analysis obtained and searched for comments, if there is one.
* `scanned_eq` — it is the file that was asked for, if that can be read.
* **`filesAnalyzed_eq_scanned_iff`** — a check counts the files that it scanned and those that it could not
  read, so it counts the former alone exactly if there are no errors.
* `unread_file_counterexample` — a file that is gone is counted, although nothing of it was scanned.
-/

namespace AnnotationCheck

/-- The file whose text an analysis obtained and searched for comments, if there is one. -/
def Analysis.scanned (analysis : Analysis) : List Path :=
  match analysis.error with
  | some (.unreadable _ _) => []
  | _ => analysis.asked

namespace Project

theorem file?_errorOfFile (host : Host) (scope : Scope) :
    (errorOfFile host scope).bind (·.file?)
      = (some scope.file).filter fun file => !(host.read file).isOk := by
  rw [Option.filter_some, errorOfFile]
  cases host.read scope.file <;> rfl

section Parser

variable [Php.Parser]

/-- An analysis scans the file that it asks for, if that can be read. -/
theorem scanned_eq (host : Host) (strategy : Strategy) (file : Option Path) (scope : Scope) (analyzed : PathSet) :
    let analysis := Analysis.run host strategy file scope none analyzed
    analysis.scanned = analysis.asked.filter fun file => (host.read file).isOk := by
  intro analysis
  unfold analysis
  cases Analysis.course host analyzed file with
  | builtIn => rfl
  | skipped skips =>
    rw [Analysis.run_of_skipped skips]
    rfl
  | unreadable included fresh failed =>
    rw [Analysis.run_of_unreadable included fresh failed, List.filter_singleton, failed]
    rfl
  | readable included fresh read =>
    rw [Analysis.run_of_readable included fresh read, Analysis.ofText_unlimited, List.filter_singleton, read]
    rfl

/-- The analyses scan the files that they ask for and that can be read. -/
theorem flatMap_scanned (host : Host) (strategy : Strategy) (analyzed : PathSet) (scopes : List Scope) :
    (analyses host strategy analyzed scopes).flatMap (·.scanned)
      = ((analyses host strategy analyzed scopes).flatMap (·.asked)).filter fun file => (host.read file).isOk := by
  induction scopes generalizing analyzed with
  | nil => rfl
  | cons scope rest ih =>
    rw [analyses, List.flatMap_cons, List.flatMap_cons, List.filter_append, ih, scanned_eq]

/-- **The count of a check** is the number of files that were scanned, and of those that could not be read. The
scanned ones are different files, those that can be read among the ones that were asked for, and there is one
error for each of the others. So the count is the number of scanned files exactly if there are no errors. -/
theorem filesAnalyzed_eq_scanned_iff (project : Project) (disk : Disk) (strategy : Strategy) (analyzed : PathSet) :
    let analyses := analyses (project.host disk) strategy analyzed project.declarations
    let asked := analyses.flatMap (·.asked)
    let scanned := analyses.flatMap (·.scanned)
    let result := project.check disk strategy analyzed
    scanned = asked.filter (fun file => (readFrom disk file).isOk)
      ∧ result.errors.filterMap (·.file?) = asked.filter (fun file => !(readFrom disk file).isOk)
      ∧ scanned.Pairwise (fun first second => ¬ first.Same second)
      ∧ result.filesAnalyzed analyzed = scanned.length + result.errors.length
      ∧ (result.filesAnalyzed analyzed = scanned.length ↔ result.errors = []) := by
  intro analyses asked scanned result
  have through := goesThrough_check project disk strategy analyzed
  have asks : asked = (due project.isExcluded analyzed project.declarations).map (·.file) :=
    asked_check project disk strategy analyzed
  have scans : scanned = asked.filter fun file => (readFrom disk file).isOk :=
    flatMap_scanned (project.host disk) strategy analyzed project.declarations
  have fails : result.errors.filterMap (·.file?) = asked.filter fun file => !(readFrom disk file).isOk := by
    rw [through.errors, List.filterMap_filterMap, asks, ← List.filterMap_eq_map, List.filter_filterMap]
    exact List.filterMap_congr fun scope _ => file?_errorOfFile (project.host disk) scope
  have ofFiles : (result.errors.filterMap (·.file?)).length = result.errors.length := by
    rw [List.filterMap_length_eq_length, through.errors]
    intro error isError
    obtain ⟨scope, -, failed⟩ := List.mem_filterMap.mp isError
    rw [file?_of_errorOfFile failed]
    rfl
  have total : result.filesAnalyzed analyzed = asked.length := by
    rw [CheckResult.filesAnalyzed, through.size, Nat.add_sub_cancel_left, asks, List.length_map]
  have counts : result.filesAnalyzed analyzed = scanned.length + result.errors.length := by
    rw [total, scans, ← ofFiles, fails]
    exact List.length_eq_length_filter_add _
  refine ⟨scans, fails, ?apart, counts, ?exact⟩
  case apart =>
    rw [scans, asks]
    exact (List.pairwise_map.mpr (pairwise_due project.declarations)).filter _
  case exact =>
    rw [counts, ← List.length_eq_zero_iff]
    omega

end Parser

/-- **A file that is gone is counted**, although nothing of it was scanned. -/
theorem unread_file_counterexample :
    let file := Path.ofString "a.php"
    let project := ofSources (.ofString "/") {} [⟨file, "<?php class A \x7b\x7d".toList, .inserted⟩]
    let result := project.check {} .tokens {}
    (readFrom {} file).isOk = false
      ∧ (analyses (project.host {}) .tokens {} project.declarations).flatMap (·.scanned) = []
      ∧ result.errors.filterMap (·.file?) = [file]
      ∧ result.filesAnalyzed {} = 1 := by decide +kernel

end Project

end AnnotationCheck
