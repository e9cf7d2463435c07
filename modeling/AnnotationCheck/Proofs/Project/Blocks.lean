import AnnotationCheck.Proofs.Analysis.SourceOrder
import AnnotationCheck.Proofs.Php.Comments
import AnnotationCheck.Proofs.Project.Order

/-!
The issues of a check, in blocks.

* `Issue.UpTo` — the order of a report; `Issue.pairwise_sort`: sorting puts issues in this order, and
  `Issue.sort_eq_self`: it leaves them as they are if they are in it.
* `arisesInOrder_issuesOfFile`, `pairwise_line_issuesOfFile` — the issues of a file, as they are found in its text.
* `ofFile_flatMap_isInfix` — of scopes of different files, each file has one block of issues.
* `sort_flatMap_issuesOfFile` — sorting the issues is to go through the files in order.
* **`issues_in_blocks`** — a check finds the issues of each file in one block, and sorting moves whole blocks.
-/

namespace AnnotationCheck

/-! ### Reports in order -/

namespace Issue

/-- An issue may stand before another one in a report: its file comes first or, in one file, its line is no later
one. -/
def UpTo (issue next : Issue) : Prop :=
  issue.file.compare next.file = .lt ∨ issue.file.Same next.file ∧ issue.line ≤ next.line

theorem upTo_compare_iff {issue next : Issue} : AnnotationCheck.upTo compare issue next = true ↔ issue.UpTo next := by
  rw [AnnotationCheck.upTo, compare, Ordering.isLE_then_iff_or, Path.compare_eq_iff, Nat.isLE_compare, UpTo]

theorem pairwise_sort (issues : List Issue) : (sort issues).Pairwise UpTo := by
  rw [sort_eq_mergeSort]
  exact (List.pairwise_mergeSort upTo_trans upTo_total issues).imp upTo_compare_iff.mp

theorem sort_eq_self {issues : List Issue} (inOrder : issues.Pairwise UpTo) : sort issues = issues := by
  rw [sort_eq_mergeSort]
  exact List.mergeSort_of_pairwise (inOrder.imp upTo_compare_iff.mpr)

end Issue

namespace Project

/-! ### Scopes of different files -/

section Apart

variable {scopes : List Scope} (apart : scopes.Pairwise fun scope other => ¬ scope.file.Same other.file)
include apart

/-- Of scopes of different files, one is of a given file at most. -/
theorem filter_file_cases (file : Path) :
    (scopes.filter fun scope => decide (file.Same scope.file)) = []
      ∨ ∃ before scope behind, scopes = before ++ scope :: behind ∧ scope.file.Same file
        ∧ (scopes.filter fun scope => decide (file.Same scope.file)) = [scope] := by
  cases kept : scopes.filter fun scope => decide (file.Same scope.file) with
  | nil => exact .inl rfl
  | cons scope rest =>
    obtain ⟨before, behind, rfl, -, same, more⟩ := List.filter_eq_cons_iff.mp kept
    have same : file.Same scope.file := of_decide_eq_true same
    obtain ⟨-, apart, -⟩ := List.pairwise_append.mp apart
    have alone : rest = [] := by
      rw [← more]
      refine List.filter_eq_nil_iff.mpr fun other there alsoSame => ?_
      exact (List.pairwise_cons.mp apart).1 other there (same.symm.trans (of_decide_eq_true alsoSame))
    rw [alone]
    exact .inr ⟨before, scope, behind, rfl, same.symm, rfl⟩

/-- Scopes of different files can be put in the order of the files. -/
theorem exists_reordered :
    ∃ reordered : List Scope, reordered.Perm scopes
      ∧ reordered.Pairwise fun scope next => scope.file.compare next.file = .lt := by
  let order (left right : Scope) : Ordering := left.file.compare right.file
  have : Std.TransCmp order := transCmp_of_image Scope.file (inferInstanceAs (Std.TransCmp Path.compare))
  have perm : (scopes.mergeSort (upTo order)).Perm scopes := List.mergeSort_perm scopes (upTo order)
  have sorted : (scopes.mergeSort (upTo order)).Pairwise fun scope next => upTo order scope next = true :=
    List.pairwise_mergeSort upTo_trans upTo_total scopes
  have stillApart : (scopes.mergeSort (upTo order)).Pairwise fun scope next => ¬ scope.file.Same next.file :=
    (perm.pairwise_iff fun {scope next} apart same => apart same.symm).mpr apart
  refine ⟨_, perm, sorted.imp₂ (fun scope next ordered different => ?_) stillApart⟩
  rcases Ordering.isLE_iff_eq_lt_or_eq_eq.mp ordered with first | tied
  · exact first
  · exact absurd (Path.compare_eq_iff.mp tied) different

end Apart

section Parser

variable [Php.Parser] {host : Host} {strategy : Strategy}

/-! ### The block of a file -/

/-- The issues of a file arise at places one behind the other in the text that it was read with, if the parser gives
the comments there one behind the other. -/
theorem arisesInOrder_issuesOfFile {scope : Scope} (some : issuesOfFile host strategy scope ≠ []) :
    ∃ content, host.read scope.file = .ok content
      ∧ (Comment.AreInOrderIn content → ArisesInOrder Place.Before (ArisesAt host.has scope strategy content)
          (issuesOfFile host strategy scope)) := by
  unfold issuesOfFile at some ⊢
  cases read : host.read scope.file with
  | error reason =>
    rw [read] at some
    exact absurd rfl some
  | ok content =>
    refine ⟨content, rfl, fun inOrder => ?_⟩
    simp only [Analysis.ofText_unlimited]
    exact arisesInOrder_issues host.has scope strategy inOrder

/-- The lines of the issues of a file do not decrease, whatever comments the parser gives. -/
theorem pairwise_line_issuesOfFile (host : Host) (strategy : Strategy) (scope : Scope) :
    (issuesOfFile host strategy scope).Pairwise fun issue next => issue.line ≤ next.line := by
  unfold issuesOfFile
  cases host.read scope.file with
  | error reason => exact .nil
  | ok content =>
    simp only [Analysis.ofText_unlimited]
    have lines := Comment.pairwise_line_ofScript content strategy scope.line
    refine List.pairwise_flatMap.mpr ⟨fun comment _ => ?_, lines.imp fun {comment next} inOrder => ?_⟩
    · refine List.pairwise_of_forall_mem_list fun issue there next isNext => ?_
      rw [Comment.line_of_mem_issues there, Comment.line_of_mem_issues isNext]
    · intro issue there other isOther
      rw [Comment.line_of_mem_issues there, Comment.line_of_mem_issues isOther]
      exact inOrder

section Apart

variable {scopes : List Scope} (apart : scopes.Pairwise fun scope other => ¬ scope.file.Same other.file)
include apart

/-- **Of scopes of different files, each file has one block of issues** at most, that of its scope. -/
theorem ofFile_flatMap_isInfix (file : Path) :
    let issues := scopes.flatMap (issuesOfFile host strategy)
    Issue.ofFile file issues <:+: issues
      ∧ (Issue.ofFile file issues = []
        ∨ ∃ scope ∈ scopes, scope.file.Same file ∧ Issue.ofFile file issues = issuesOfFile host strategy scope) := by
  intro issues
  have ofScopes : Issue.ofFile file issues
      = (scopes.filter fun scope => decide (file.Same scope.file)).flatMap (issuesOfFile host strategy) :=
    filter_issues (fun path => decide (file.Same path)) scopes
  rcases filter_file_cases apart file with none | ⟨before, scope, behind, cut, same, lone⟩
  · rw [none, List.flatMap_nil] at ofScopes
    rw [ofScopes]
    exact ⟨List.nil_infix, .inl rfl⟩
  · have block : Issue.ofFile file issues = issuesOfFile host strategy scope := by
      rw [ofScopes, lone, List.flatMap_singleton]
    refine ⟨?_, .inr ⟨scope, by simp [cut], same, block⟩⟩
    rw [block]
    simp only [issues, cut, List.flatMap_append, List.flatMap_cons]
    exact List.infix_append' _ _ _

/-- In the block of a file the lines do not decrease, and its issues stand in the order of their places, if the parser
gives the comments of the file one behind the other. -/
theorem ofFile_flatMap_inOrder (host : Host) (strategy : Strategy) (file : Path) :
    let found := Issue.ofFile file (scopes.flatMap (issuesOfFile host strategy))
    (found.Pairwise fun issue next => issue.line ≤ next.line)
      ∧ (found = [] ∨ ∃ scope ∈ scopes, scope.file.Same file ∧ ∃ content, host.read scope.file = .ok content
        ∧ (Comment.AreInOrderIn content →
            ArisesInOrder Place.Before (ArisesAt host.has scope strategy content) found)) := by
  intro found
  have blocks : found = [] ∨ ∃ scope ∈ scopes, scope.file.Same file ∧ found = issuesOfFile host strategy scope :=
    (ofFile_flatMap_isInfix apart file).2
  rcases blocks with none | ⟨scope, there, same, block⟩
  · exact ⟨none ▸ .nil, .inl none⟩
  · refine ⟨block ▸ pairwise_line_issuesOfFile host strategy scope, ?_⟩
    by_cases silent : issuesOfFile host strategy scope = []
    · exact .inl (block.trans silent)
    · obtain ⟨content, read, arises⟩ := arisesInOrder_issuesOfFile silent
      exact .inr ⟨scope, there, same, content, read, block ▸ arises⟩

/-- **Sorting the issues is to go through the files in order**, whatever block of issues each of them has. -/
theorem sort_flatMap_issuesOfFile {reordered : List Scope} (perm : reordered.Perm scopes)
    (inOrder : reordered.Pairwise fun scope next => scope.file.compare next.file = .lt) :
    Issue.sort (scopes.flatMap (issuesOfFile host strategy)) = reordered.flatMap (issuesOfFile host strategy) := by
  rw [Issue.sort_eq_of_files (ofFile_flatMap_of_perm perm.symm apart)]
  refine Issue.sort_eq_self (List.pairwise_flatMap.mpr ⟨fun scope _ => ?block, inOrder.imp ?blocks⟩)
  case block =>
    refine (pairwise_line_issuesOfFile host strategy scope).imp_of_mem fun {issue next} there isNext lines => ?_
    refine .inr ⟨?_, lines⟩
    rw [file_of_mem_issuesOfFile there, file_of_mem_issuesOfFile isNext]
    rfl
  case blocks =>
    intro scope next first issue there other isOther
    refine .inl ?_
    rw [file_of_mem_issuesOfFile there, file_of_mem_issuesOfFile isOther]
    exact first

end Apart

/-! ### Checks -/

/-- **A check finds the issues of each file in one block, and sorting them moves whole blocks.** However often a
file was indexed and whatever it declares, it has one block, in which the lines do not decrease. Sorting puts the
blocks in the order of the files and leaves each of them as it was. Where the parser gives the comments of a file one
behind the other, the issues in its block stand in the order of their places in the text: by comments, in a comment
from left to right, and in a type as its members are written. -/
theorem issues_in_blocks (project : Project) (disk : Disk) (strategy : Strategy) (analyzed : PathSet) :
    let issues := (project.check disk strategy analyzed).issues
    let sorted := Issue.sort issues
    let block := issuesOfFile (project.host disk) strategy
    sorted.Perm issues
      ∧ sorted.Pairwise Issue.UpTo
      ∧ (∃ scopes reordered : List Scope, issues = scopes.flatMap block ∧ sorted = reordered.flatMap block
          ∧ reordered.Perm scopes ∧ scopes.Sublist project.declarations
          ∧ (scopes.Pairwise fun scope other => ¬ scope.file.Same other.file)
          ∧ (reordered.Pairwise fun scope next => scope.file.compare next.file = .lt)
          ∧ ∀ scope ∈ scopes, ∀ issue ∈ block scope, issue.file = scope.file)
      ∧ ∀ file, Issue.ofFile file issues <:+: issues ∧ Issue.ofFile file sorted <:+: sorted
          ∧ Issue.ofFile file sorted = Issue.ofFile file issues
          ∧ ((Issue.ofFile file issues).Pairwise fun issue next => issue.line ≤ next.line)
          ∧ (Issue.ofFile file issues = []
            ∨ ∃ scope ∈ project.declarations, scope.file.Same file
              ∧ ∃ content, readFrom disk scope.file = .ok content
                ∧ (Comment.AreInOrderIn content →
                    ArisesInOrder Place.Before (ArisesAt project.hasClass scope strategy content)
                      (Issue.ofFile file issues))) := by
  intro issues sorted block
  let ready := due project.isExcluded analyzed project.declarations
  have apart : ready.Pairwise fun scope other => ¬ scope.file.Same other.file := pairwise_due project.declarations
  have ofReady : issues = ready.flatMap (issuesOfFile (project.host disk) strategy) :=
    (goesThrough_check project disk strategy analyzed).issues
  obtain ⟨reordered, perm, inOrder⟩ := exists_reordered apart
  have ofReordered : sorted = reordered.flatMap block := by
    rw [← sort_flatMap_issuesOfFile apart perm inOrder, ← ofReady]
  have reorderedApart : reordered.Pairwise fun scope other => ¬ scope.file.Same other.file :=
    (perm.pairwise_iff fun {scope next} apart same => apart same.symm).mpr apart
  refine ⟨List.mergeSort_perm issues Issue.le, Issue.pairwise_sort issues,
    ⟨ready, reordered, ofReady, ofReordered, perm, due_sublist project.declarations, apart, inOrder,
      fun scope _ issue there => file_of_mem_issuesOfFile there⟩, fun file => ?_⟩
  have sameBlock : Issue.ofFile file sorted = Issue.ofFile file issues := by
    rw [ofReordered, ofReady]
    exact ofFile_flatMap_of_perm perm reorderedApart file
  have emittedBlock : Issue.ofFile file issues <:+: issues := by
    rw [ofReady]
    exact (ofFile_flatMap_isInfix apart file).1
  have sortedBlock : Issue.ofFile file sorted <:+: sorted := by
    rw [ofReordered]
    exact (ofFile_flatMap_isInfix reorderedApart file).1
  have listed := ofFile_flatMap_inOrder apart (project.host disk) strategy file
  rw [← ofReady] at listed
  obtain ⟨lines, places⟩ := listed
  refine ⟨emittedBlock, sortedBlock, sameBlock, lines, places.imp_right ?_⟩
  rintro ⟨scope, isReady, found⟩
  exact ⟨scope, (due_sublist project.declarations).subset isReady, found⟩

end Parser

/-- The issues of a file that was indexed twice, between which another file was: they make up one block, and stand in
the order of their places, as the parser of this library gives comments one behind the other. -/
theorem issues_in_block_of_repeated_file :
    let twice : Source := ⟨.ofString "b.php", "<?php\n/** @var Q|P $x */ class A {}\n// @var R $y".toList, .inserted⟩
    let once : Source := ⟨.ofString "a.php", "<?php class C { /** @var S $x */ }".toList, .inserted⟩
    let disk : Disk :=
      { top := [("b.php".toList, .file (.text twice.content)), ("a.php".toList, .file (.text once.content))] }
    let project := ofSources (.ofString "/") {} [twice, once, twice]
    let issues := (project.check disk .tokens {}).issues
    issues.map (fun issue => (issue.className, issue.line))
        = [("\\Q".toList, 2), ("\\P".toList, 2), ("\\R".toList, 3), ("\\S".toList, 1)]
      ∧ Issue.ofFile twice.path (Issue.sort issues) <:+: Issue.sort issues
      ∧ ∃ scope ∈ project.declarations, scope.file.Same twice.path ∧ ∃ content,
          ArisesInOrder Place.Before (ArisesAt project.hasClass scope .tokens content)
            (Issue.ofFile twice.path (Issue.sort issues)) := by
  intro twice once disk project issues
  have found : issues.map (fun issue => (issue.className, issue.line))
      = [("\\Q".toList, 2), ("\\P".toList, 2), ("\\R".toList, 3), ("\\S".toList, 1)] := by decide +kernel
  obtain ⟨-, -, -, blocks⟩ := issues_in_blocks project disk .tokens {}
  obtain ⟨-, sortedBlock, same, -, places⟩ := blocks twice.path
  have some : Issue.ofFile twice.path issues ≠ [] := by decide +kernel
  obtain ⟨scope, there, ofFile, content, -, inOrder⟩ := places.resolve_left some
  refine ⟨found, sortedBlock, scope, there, ofFile, content, ?_⟩
  rw [same]
  exact inOrder (Php.areInOrderIn content)

end Project

end AnnotationCheck
