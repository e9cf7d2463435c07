import AnnotationCheck.Php.Statement
import AnnotationCheck.Proofs.Project.ByFile

/-!
A file that can no longer be read.

* `Loses` — of the files of a project, one can be read on a disk and not on another one, and the others read
  the same.
* `issuesOfFile_of_loses`, `errors_of_loses` — what going through the files finds on the two disks.
* `not_due_after_check` — what a check was to go through is not due again.
* **`check_of_lost_file`** — a check comes to the same issues but for those of the lost file, and to one
  more error; a later one leaves that file alone.
-/

namespace AnnotationCheck

attribute [ext] CheckResult

namespace Project

/-- The disks read alike but for one file of the project, which can be read on the first one alone. -/
structure Loses (project : Project) (file : Path) (disk lost : Disk) : Prop where
  elsewhere : ∀ scope ∈ project.declarations, ¬ scope.file.Same file →
    readFrom disk scope.file = readFrom lost scope.file
  readable : ∀ scope ∈ project.declarations, scope.file.Same file → (readFrom disk scope.file).isOk = true
  unreadable : ∀ scope ∈ project.declarations, scope.file.Same file → (readFrom lost scope.file).isOk = false

variable {project : Project} {file : Path} {disk lost : Disk}

theorem exists_of_isOk {result : Except Text Text} (isOk : result.isOk = true) :
    ∃ content, result = .ok content := by
  cases result with
  | error reason => cases isOk
  | ok content => exact ⟨content, rfl⟩

theorem exists_of_not_isOk {result : Except Text Text} (failed : result.isOk = false) :
    ∃ reason, result = .error reason := by
  cases result with
  | error reason => exact ⟨reason, rfl⟩
  | ok content => cases failed

/-! ### One file -/

theorem errorOfFile_of_elsewhere (loses : project.Loses file disk lost) {scope : Scope}
    (declared : scope ∈ project.declarations) (elsewhere : ¬ scope.file.Same file) :
    errorOfFile (project.host lost) scope = errorOfFile (project.host disk) scope :=
  errorOfFile_congr (loses.elsewhere scope declared elsewhere).symm

theorem errorOfFile_of_lost (loses : project.Loses file disk lost) {scope : Scope}
    (declared : scope ∈ project.declarations) (same : scope.file.Same file) :
    errorOfFile (project.host disk) scope = none
      ∧ ∃ reason, readFrom lost scope.file = .error reason
        ∧ errorOfFile (project.host lost) scope = some (.unreadable scope.file reason) := by
  obtain ⟨content, read⟩ := exists_of_isOk (loses.readable scope declared same)
  obtain ⟨reason, failed⟩ := exists_of_not_isOk (loses.unreadable scope declared same)
  have onDisk : (project.host disk).read scope.file = .ok content := read
  have onLost : (project.host lost).read scope.file = .error reason := failed
  refine ⟨?_, reason, failed, ?_⟩
  · rw [errorOfFile, onDisk]
  · rw [errorOfFile, onLost]

/-- Where the lost file is due, its error is the only one that is new. -/
theorem errors_of_loses (loses : project.Loses file disk lost) {scopes : List Scope}
    (declared : scopes ⊆ project.declarations)
    (apart : scopes.Pairwise fun first second => ¬ first.file.Same second.file) {scope : Scope}
    (there : scope ∈ scopes) (same : scope.file.Same file) :
    ∃ early late reason, readFrom lost scope.file = .error reason
      ∧ scopes.filterMap (errorOfFile (project.host disk)) = early ++ late
      ∧ scopes.filterMap (errorOfFile (project.host lost)) = early ++ .unreadable scope.file reason :: late := by
  obtain ⟨before, behind, rfl⟩ := List.append_of_mem there
  obtain ⟨-, behindApart, beforeApart⟩ := List.pairwise_append.mp apart
  obtain ⟨none, reason, failed, error⟩ := errorOfFile_of_lost loses (declared there) same
  have ofBefore : before.filterMap (errorOfFile (project.host lost))
      = before.filterMap (errorOfFile (project.host disk)) := by
    refine List.filterMap_congr fun other isBefore => ?_
    refine errorOfFile_of_elsewhere loses (declared (List.mem_append_left _ isBefore)) fun ofFile => ?_
    exact beforeApart other isBefore scope List.mem_cons_self (ofFile.trans same.symm)
  have ofBehind : behind.filterMap (errorOfFile (project.host lost))
      = behind.filterMap (errorOfFile (project.host disk)) := by
    refine List.filterMap_congr fun other isBehind => ?_
    refine errorOfFile_of_elsewhere loses
      (declared (List.mem_append_right _ (List.mem_cons_of_mem _ isBehind))) fun ofFile => ?_
    exact (List.pairwise_cons.mp behindApart).1 other isBehind (same.trans ofFile.symm)
  refine ⟨before.filterMap (errorOfFile (project.host disk)), behind.filterMap (errorOfFile (project.host disk)),
    reason, failed, ?_, ?_⟩
  · rw [List.filterMap_append, List.filterMap_cons_none none]
  · rw [List.filterMap_append, List.filterMap_cons_some error, ofBefore, ofBehind]

section Parser

variable [Php.Parser]

theorem issuesOfFile_of_loses (loses : project.Loses file disk lost) (strategy : Strategy) {scope : Scope}
    (declared : scope ∈ project.declarations) :
    issuesOfFile (project.host lost) strategy scope
      = (issuesOfFile (project.host disk) strategy scope).filter fun issue => !decide (issue.file.Same file) := by
  by_cases same : scope.file.Same file
  · have dropped : (issuesOfFile (project.host disk) strategy scope).filter
        (fun issue => !decide (issue.file.Same file)) = [] := by
      refine List.filter_eq_nil_iff.mpr fun issue found => ?_
      rw [file_of_mem_issuesOfFile found]
      simpa using same
    obtain ⟨reason, failed⟩ := exists_of_not_isOk (loses.unreadable scope declared same)
    have read : (project.host lost).read scope.file = .error reason := failed
    rw [dropped, issuesOfFile, read]
  · have kept : (issuesOfFile (project.host disk) strategy scope).filter
        (fun issue => !decide (issue.file.Same file)) = issuesOfFile (project.host disk) strategy scope := by
      refine List.filter_eq_self.mpr fun issue found => ?_
      rw [file_of_mem_issuesOfFile found]
      simpa using same
    rw [kept]
    exact issuesOfFile_congr rfl (loses.elsewhere scope declared same).symm

/-! ### All files -/

/-- A file that was to be gone through counts as analyzed afterwards. -/
theorem contains_of_ready (disk : Disk) (strategy : Strategy) (analyzed : PathSet)
    (declared : ∃ scope ∈ project.declarations, scope.file.Same file) (included : project.isExcluded file = false) :
    (project.check disk strategy analyzed).analyzed.contains file = true := by
  rw [(goesThrough_check project disk strategy analyzed).analyzed]
  cases fresh : analyzed.contains file with
  | true => rfl
  | false =>
    obtain ⟨scope, isDue, same⟩ :=
      (exists_mem_due_iff fun same => project.isExcluded_congr same).mpr ⟨declared, included, fresh⟩
    rw [Bool.false_or, List.any_eq_true]
    exact ⟨scope, isDue, decide_eq_true same⟩

/-- After a check nothing more is due of its project. -/
theorem due_after_check (disk : Disk) (strategy : Strategy) (analyzed : PathSet) :
    due project.isExcluded (project.check disk strategy analyzed).analyzed project.declarations = [] := by
  refine List.eq_nil_iff_forall_not_mem.mpr fun scope isDue => ?_
  obtain ⟨isFirst, included, fresh⟩ := mem_due_iff.mp isDue
  have declared : scope ∈ project.declarations := (firstOfFiles_sublist _).subset isFirst
  rw [contains_of_ready disk strategy analyzed ⟨scope, declared, rfl⟩ included] at fresh
  cases fresh

/-- A check that has no scope of a file to go through neither asks for the file nor reports it. -/
theorem not_asked_of_not_due {analyzed : PathSet}
    (elsewhere : ∀ scope ∈ due project.isExcluded analyzed project.declarations, ¬ scope.file.Same file)
    (disk : Disk) (strategy : Strategy) :
    (∀ asked ∈ (analyses (project.host disk) strategy analyzed project.declarations).flatMap (·.asked),
        ¬ asked.Same file)
      ∧ ∀ error ∈ (project.check disk strategy analyzed).errors, ∀ path ∈ error.file?, ¬ path.Same file := by
  rw [asked_check, (goesThrough_check project disk strategy analyzed).errors]
  constructor
  · intro asked isAsked
    obtain ⟨scope, isDue, rfl⟩ := List.mem_map.mp isAsked
    exact elsewhere scope isDue
  · intro error isError path ofError
    obtain ⟨scope, isDue, failed⟩ := List.mem_filterMap.mp isError
    rw [file?_of_errorOfFile failed] at ofError
    exact Option.some.inj ofError ▸ elsewhere scope isDue

theorem issues_of_loses (loses : project.Loses file disk lost) (strategy : Strategy) (analyzed : PathSet) :
    (project.check lost strategy analyzed).issues
      = (project.check disk strategy analyzed).issues.filter fun issue => !decide (issue.file.Same file) := by
  rw [(goesThrough_check project lost strategy analyzed).issues,
    (goesThrough_check project disk strategy analyzed).issues, List.filter_flatMap]
  exact List.flatMap_congr fun scope isDue =>
    issuesOfFile_of_loses loses strategy ((due_sublist project.declarations).subset isDue)

/-- A check that has no scope of the lost file to go through does not see the loss. -/
theorem check_eq_of_elsewhere (loses : project.Loses file disk lost) (strategy : Strategy) {analyzed : PathSet}
    (elsewhere : ∀ scope ∈ due project.isExcluded analyzed project.declarations, ¬ scope.file.Same file) :
    project.check lost strategy analyzed = project.check disk strategy analyzed := by
  have through := goesThrough_check project disk strategy analyzed
  have throughLost := goesThrough_check project lost strategy analyzed
  have declared := fun scope (isDue : scope ∈ due project.isExcluded analyzed project.declarations) =>
    (due_sublist project.declarations).subset isDue
  ext1
  · rw [throughLost.issues, through.issues]
    exact List.flatMap_congr fun scope isDue =>
      issuesOfFile_congr rfl (loses.elsewhere scope (declared scope isDue) (elsewhere scope isDue)).symm
  · rw [throughLost.errors, through.errors]
    exact List.filterMap_congr fun scope isDue =>
      errorOfFile_of_elsewhere loses (declared scope isDue) (elsewhere scope isDue)
  · rw [analyzed_check, analyzed_check]

/-- After a check that was to go through a file, nothing of that file is due in any project; after any check,
nothing of its own project is. -/
theorem not_due_after_check {next : Project} (disk : Disk) (strategy : Strategy) (analyzed : PathSet)
    (after : ((∃ scope ∈ project.declarations, scope.file.Same file) ∧ project.isExcluded file = false)
      ∨ next = project) :
    ∀ scope ∈ due next.isExcluded (project.check disk strategy analyzed).analyzed next.declarations,
      ¬ scope.file.Same file := by
  intro scope isDue same
  rcases after with ⟨isDeclared, included⟩ | rfl
  · have fresh := (mem_due_iff.mp isDue).2.2
    rw [PathSet.contains_congr _ same, contains_of_ready disk strategy analyzed isDeclared included] at fresh
    cases fresh
  · rw [due_after_check] at isDue
    cases isDue

/-- **A read failure stays local.** Where a file is lost, a check comes to the issues of the other files, in
their order. If the file was to be gone through, there is one more error, which is about this file; else the
results are equal. The same files count as analyzed, so that a later check of the project, or of any project
after one that was to go through the file, neither asks for the lost file nor reports it again. -/
theorem check_of_lost_file (loses : project.Loses file disk lost) (strategy : Strategy) (analyzed : PathSet) :
    let found := project.check disk strategy analyzed
    let left := project.check lost strategy analyzed
    let isReady := (∃ scope ∈ project.declarations, scope.file.Same file)
      ∧ project.isExcluded file = false ∧ analyzed.contains file = false
    left.issues = found.issues.filter (fun issue => !decide (issue.file.Same file))
      ∧ (isReady → ∃ early late spelled reason, spelled.Same file ∧ readFrom lost spelled = .error reason
          ∧ found.errors = early ++ late ∧ left.errors = early ++ .unreadable spelled reason :: late)
      ∧ (¬ isReady → left = found)
      ∧ left.analyzed = found.analyzed
      ∧ ∀ (next : Project) (later : Disk) (again : Strategy), isReady ∨ next = project →
          (∀ asked ∈ (analyses (next.host later) again left.analyzed next.declarations).flatMap (·.asked),
            ¬ asked.Same file)
          ∧ ∀ error ∈ (next.check later again left.analyzed).errors, ∀ path ∈ error.file?, ¬ path.Same file := by
  intro found left isReady
  have readyIff : (∃ scope ∈ due project.isExcluded analyzed project.declarations, scope.file.Same file) ↔ isReady :=
    exists_mem_due_iff fun same => project.isExcluded_congr same
  refine ⟨issues_of_loses loses strategy analyzed, ?errors, ?equal, ?grown, fun next later again after => ?later⟩
  case errors =>
    intro ready
    obtain ⟨scope, isDue, same⟩ := readyIff.mpr ready
    obtain ⟨early, late, reason, failed, before, after⟩ :=
      errors_of_loses loses (due_sublist project.declarations).subset (pairwise_due _) isDue same
    exact ⟨early, late, scope.file, reason, same, failed,
      (goesThrough_check project disk strategy analyzed).errors.trans before,
      (goesThrough_check project lost strategy analyzed).errors.trans after⟩
  case equal =>
    intro notReady
    exact check_eq_of_elsewhere loses strategy fun scope isDue same => notReady (readyIff.mp ⟨scope, isDue, same⟩)
  case grown =>
    show (project.check lost strategy analyzed).analyzed = (project.check disk strategy analyzed).analyzed
    rw [analyzed_check, analyzed_check]
  case later =>
    have after' := after.imp_left fun ready => (⟨ready.1, ready.2.1⟩ : _ ∧ project.isExcluded file = false)
    exact not_asked_of_not_due (not_due_after_check lost strategy analyzed after') later again

end Parser

/-- A file with two class-likes is removed: its issue is gone, and there is one error for both. -/
theorem file_of_two_classes_lost :
    let file := Path.ofString "a.php"
    let twice := "<?php class A { /** @var Gone $x */ }\nclass B {}".toList
    let once := "<?php class C { /** @var Away $x */ }".toList
    let project := ofSources (.ofString "/") {} [⟨file, twice, .inserted⟩, ⟨.ofString "b.php", once, .inserted⟩]
    let lost : Disk := { top := [("b.php".toList, .file (.text once))] }
    let disk := lost.write file (.text twice)
    let found := project.check disk .tokens {}
    let left := project.check lost .tokens {}
    project.Loses file disk lost
      ∧ ((∃ scope ∈ project.declarations, scope.file.Same file)
        ∧ project.isExcluded file = false ∧ PathSet.contains {} file = false)
      ∧ found.issues.map Issue.className = ["\\Gone".toList, "\\Away".toList]
      ∧ left.issues = found.issues.filter (fun issue => !decide (issue.file.Same file))
      ∧ (∃ early late spelled reason, spelled.Same file ∧ readFrom lost spelled = .error reason
          ∧ found.errors = early ++ late ∧ left.errors = early ++ .unreadable spelled reason :: late)
      ∧ left.analyzed = found.analyzed := by
  intro file twice once project lost disk found left
  have reads : ∀ scope ∈ project.declarations,
      (¬ scope.file.Same file → readFrom disk scope.file = readFrom lost scope.file)
        ∧ (scope.file.Same file → (readFrom disk scope.file).isOk = true)
        ∧ (scope.file.Same file → (readFrom lost scope.file).isOk = false) := by decide +kernel
  have loses : project.Loses file disk lost :=
    ⟨fun scope there => (reads scope there).1, fun scope there => (reads scope there).2.1,
      fun scope there => (reads scope there).2.2⟩
  have ready : (∃ scope ∈ project.declarations, scope.file.Same file)
      ∧ project.isExcluded file = false ∧ PathSet.contains {} file = false := by decide +kernel
  have names : found.issues.map Issue.className = ["\\Gone".toList, "\\Away".toList] := by decide +kernel
  obtain ⟨issues, errors, -, grown, -⟩ := check_of_lost_file loses .tokens {}
  exact ⟨loses, ready, names, issues, errors ready, grown⟩

end Project

end AnnotationCheck
