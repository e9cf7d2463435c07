import AnnotationCheck.Php.Statement
import AnnotationCheck.Proofs.Declarations.Spelled
import AnnotationCheck.Proofs.Report.ShownPath
import AnnotationCheck.Proofs.Scope.Spelling
import AnnotationCheck.Proofs.Text.Lines

/-!
The lines of a text report.

* `Issue.message_undeclared` — the message about a missing class-like holds its name as it is.
* `newline_not_mem_shownPath`, `newline_not_mem_lineFor` — what a report says of an issue is one line, if neither the
  path of the file nor the missing name has a line break.
* **`lines_of_check`** — the text report of a check has one line for each issue, whatever stands in the scripts.
-/

namespace AnnotationCheck

/-- **The message about a missing class-like holds its name as it is**, even if the mark of the template stands in
that. -/
theorem Issue.message_undeclared (scope : Scope) (name : Text) :
    (undeclared scope name).message
      = "The classlike ".toList ++ name ++ " in this \"var\" statement is undeclared".toList := by
  have cut : (undeclared scope name).template
      = "The classlike ".toList ++ mark ++ " in this \"var\" statement is undeclared".toList := by rfl
  rw [message, cut]
  exact Text.replace_append_append name _ (by decide) (by decide)

namespace Report

/-! ### What is said of an issue -/

/-- A path without the byte of a line break is shown without line breaks, be its bytes those of a text or not. -/
theorem newline_not_mem_shownPath {root file : Path} (unbroken : Text.newline ∉ file.bytes) :
    '\n' ∉ shownPath root file := by
  intro there
  obtain ⟨c, inPath, shown⟩ := List.mem_map.mp there
  split at shown
  · cases shown
  · subst shown
    rcases Text.eq_broken_or_exists_of_mem_ofBytes inPath with isMark | ⟨before, behind, whole⟩
    · cases isMark
    · have isByte : Text.newline ∈ (file.relativeTo root).bytes := by
        rw [whole]
        simp [Text.newline, show String.utf8EncodeChar '\n' = [10] by decide]
      exact unbroken (Path.mem_bytes_of_mem_relativeTo (by decide) (by decide) isByte)

/-- What is said of a missing class-like is one line, if its name and the path are. -/
theorem newline_not_mem_lineFor {path name : Text} (unbroken : '\n' ∉ path) (clear : '\n' ∉ name)
    (scope : Scope) : '\n' ∉ (Issue.undeclared scope name).lineFor path := by
  have digits : '\n' ∉ Nat.toDigits 10 scope.line := by
    intro there
    have isDigit := Nat.isDigit_of_mem_toDigits (by decide) (by decide) there
    revert isDigit
    decide
  have kind : '\n' ∉ (Issue.undeclared scope name).kind := by
    show '\n' ∉ "UndeclaredTypeInInlineVar".toList
    decide
  simp only [Issue.lineFor, Issue.message_undeclared, List.mem_append, not_or]
  exact ⟨⟨⟨⟨⟨⟨unbroken, by decide⟩, digits⟩, by decide⟩, kind⟩, by decide⟩, ⟨by decide, clear⟩, by decide⟩

/-! ### Reports of checks -/

/-- **The text report of a check has one line for each issue**, in the order of the report: the path that is shown,
the line, the kind, and the message with the name that is missing as it is. Nothing that stands in the scripts breaks
a line, if there are no line breaks in the paths of the files and in the names that the parser gives to namespaces
and imports. The path that is shown is the one relative to the root wherever this is a text without backslashes. -/
theorem lines_of_check [Php.Parser] (root : Path) (config : Config) {sources : List Source}
    (unbrokenPaths : ∀ source ∈ sources, Text.newline ∉ source.path.bytes)
    (unbrokenNames : ∀ source ∈ sources, Declarations.AreUnbroken source.content)
    (disk : Disk) (strategy : Strategy) (analyzed : PathSet) :
    let project := Project.ofSources root config sources
    let issues := Issue.sort (project.check disk strategy analyzed).issues
    let line (issue : Issue) : Text :=
      shownPath root issue.file ++ ":".toList ++ Nat.toDigits 10 issue.line ++ ": ".toList ++ issue.kind
        ++ " ".toList ++ issue.message
    Text.fields '\n' (render .text root issues) = issues.map line ++ [[]]
      ∧ ∀ issue ∈ issues, (∃ source ∈ sources, issue.file = source.path)
        ∧ issue.kind = "UndeclaredTypeInInlineVar".toList
        ∧ issue.message
          = "The classlike ".toList ++ issue.className ++ " in this \"var\" statement is undeclared".toList
        ∧ project.hasClass issue.className = false
        ∧ '\n' ∉ issue.className
        ∧ ∀ text, (issue.file.relativeTo root).bytes = Text.bytes text → '\\' ∉ text →
            shownPath root issue.file = text := by
  intro project issues line
  have origin : ∀ issue ∈ issues, ∃ scope name, issue = Issue.undeclared scope name
      ∧ (∃ source ∈ sources, scope.file = source.path) ∧ project.hasClass name = false ∧ '\n' ∉ name :=
    fun issue there =>
      Project.exists_unbroken_of_issue unbrokenNames ((List.mergeSort_perm _ Issue.le).mem_iff.mp there)
  refine ⟨?lines, fun issue there => ?each⟩
  case lines =>
    have clear : ∀ text ∈ issues.map line, '\n' ∉ text := by
      intro text there
      obtain ⟨issue, isIssue, rfl⟩ := List.mem_map.mp there
      obtain ⟨scope, name, rfl, ⟨source, isSource, file⟩, -, clearName⟩ := origin issue isIssue
      have unbroken : Text.newline ∉ scope.file.bytes := file ▸ unbrokenPaths source isSource
      exact newline_not_mem_lineFor (newline_not_mem_shownPath unbroken) clearName scope
    rw [← Text.fields_flatMap_ended clear, List.flatMap_map]
    rfl
  case each =>
    obtain ⟨scope, name, rfl, ofSource, unknown, clearName⟩ := origin issue there
    exact ⟨ofSource, rfl, Issue.message_undeclared scope name, unknown, clearName, fun _ => shownPath_of_spelled⟩

/-- A comment over two lines with two missing names, one of them by an import. -/
theorem lines_of_two_names :
    let root := Path.ofString "/work"
    let source : Source := ⟨.ofString "/work/a.php",
      "<?php\nnamespace App;\nuse Lib\\Mail;\nclass A \x7b /** @var Mail[]|User\n$x */ \x7d\n".toList, .inserted⟩
    let disk : Disk := { top := [("work".toList, .directory [("a.php".toList, .file (.text source.content))])] }
    let issues := Issue.sort ((Project.ofSources root {} [source]).check disk .tokens {}).issues
    (∀ given ∈ [source], Text.newline ∉ given.path.bytes)
      ∧ (∀ given ∈ [source], Declarations.AreUnbroken given.content)
      ∧ Text.fields '\n' (render .text root issues)
        = ["a.php:4: UndeclaredTypeInInlineVar The classlike \\Lib\\Mail in this \"var\" statement is undeclared",
            "a.php:4: UndeclaredTypeInInlineVar The classlike \\App\\User in this \"var\" statement is undeclared",
            ""].map String.toList := by
  intro root source disk issues
  let issue (name : String) : Issue :=
    { arguments := [name.toList], file := source.path, line := 4, owner := "\\App\\A".toList }
  have found : ((Project.ofSources root {} [source]).check disk .tokens {}).issues
      = [issue "\\Lib\\Mail", issue "\\App\\User"] := by decide +kernel
  have unbrokenPaths : ∀ given ∈ [source], Text.newline ∉ given.path.bytes := by decide
  have unbrokenNames : ∀ given ∈ [source], Declarations.AreUnbroken given.content :=
    fun given _ => Declarations.areUnbroken_of_parsed given.content
  obtain ⟨lines, -⟩ := lines_of_check root {} unbrokenPaths unbrokenNames disk .tokens {}
  refine ⟨unbrokenPaths, unbrokenNames, lines.trans ?_⟩
  rw [found, Issue.sort, List.mergeSort_of_pairwise (by decide)]
  decide +kernel

/-- **A file with a backslash in its name is not shown by its path relative to the root**: the line of its issue
begins otherwise. So does that of a file whose name is a byte that spells no character. -/
theorem shown_slash_counterexample :
    let root := Path.ofString "/work"
    let source : Source :=
      ⟨.ofString "/work/a\\b.php", "<?php class A \x7b /** @var X $x */ \x7d".toList, .inserted⟩
    let disk : Disk := { top := [("work".toList, .directory [("a\\b.php".toList, .file (.text source.content))])] }
    let issues := Issue.sort ((Project.ofSources root {} [source]).check disk .tokens {}).issues
    let issue : Issue := { arguments := ["\\X".toList], file := source.path, line := 1, owner := "\\A".toList }
    Text.newline ∉ root.bytes ∧ Text.newline ∉ source.path.bytes ∧ Declarations.AreUnbroken source.content
      ∧ issues = [issue]
      ∧ source.path.relativeTo root = .ofString "a\\b.php"
      ∧ render .text root issues
        = "a/b.php:1: UndeclaredTypeInInlineVar The classlike \\X in this \"var\" statement is undeclared\n".toList
      ∧ render .text root issues ≠ issue.lineFor (source.path.relativeTo root).text ++ ['\n']
      ∧ shownPath root (root.join ⟨[0xFF]⟩) = [Text.broken] := by
  intro root source disk issues issue
  have found : issues = [issue] := by decide +kernel
  rw [found]
  exact ⟨by decide, by decide, Declarations.areUnbroken_of_parsed source.content, rfl, by decide +kernel,
    by decide +kernel, by decide +kernel, by decide +kernel⟩

end Report

end AnnotationCheck
