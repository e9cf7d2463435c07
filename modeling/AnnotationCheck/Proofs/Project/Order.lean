import AnnotationCheck.Php.Statement
import AnnotationCheck.Proofs.Project.ByFile
import AnnotationCheck.Proofs.Project.Orders

/-!
The order in which the sources of a project are indexed.

* `flatMap_eq_of_perm` — what items give does not depend on their order if one of them gives something at
  most.
* `firstOfFiles_ofSources` — where the sources are of different files, the first scopes of the files are
  those of the sources.
* `host_ofSources_of_perm` — an analysis sees the same project in any order.
* **`check_of_reordered`** — so a fresh check comes to the same sorted report, the same errors up to their
  order and the same number of files, also where imports are asked in other orders, as far as these are distinct.
-/

namespace AnnotationCheck

/-- What items give does not depend on their order if no two of them give anything. -/
theorem flatMap_eq_of_perm {Item Part : Type} {parts : Item → List Part} {first second : List Item}
    (perm : first.Perm second) (lone : first.Pairwise fun item other => parts item = [] ∨ parts other = []) :
    first.flatMap parts = second.flatMap parts := by
  induction perm with
  | nil => rfl
  | cons item _ ih => rw [List.flatMap_cons, List.flatMap_cons, ih (List.pairwise_cons.mp lone).2]
  | swap item other rest =>
    have either : parts other = [] ∨ parts item = [] := (List.pairwise_cons.mp lone).1 item List.mem_cons_self
    simp only [List.flatMap_cons, ← List.append_assoc]
    rcases either with none | none <;> simp [none]
  | trans early _ ihEarly ihLate =>
    exact (ihEarly lone).trans (ihLate ((early.pairwise_iff Or.symm).mp lone))

namespace Project

/-! ### First scopes -/

theorem firstOfFiles_append {first second : List Scope}
    (apart : ∀ scope ∈ first, ∀ later ∈ second, ¬ scope.file.Same later.file) :
    firstOfFiles (first ++ second) = firstOfFiles first ++ firstOfFiles second := by
  induction first with
  | nil => rfl
  | cons scope rest ih =>
    have kept : (firstOfFiles second).filter (fun later => !decide (scope.file.Same later.file))
        = firstOfFiles second := by
      refine List.filter_eq_self.mpr fun later there => ?_
      simpa using apart scope List.mem_cons_self later ((firstOfFiles_sublist second).subset there)
    rw [List.cons_append, firstOfFiles, firstOfFiles,
      ih fun other there => apart other (List.mem_cons_of_mem _ there), List.filter_append, kept, List.cons_append]

theorem firstOfFiles_of_one_file {path : Path} {scopes : List Scope}
    (ofPath : ∀ scope ∈ scopes, scope.file = path) : firstOfFiles scopes = scopes.head?.toList := by
  cases scopes with
  | nil => rfl
  | cons scope rest =>
    have none : (firstOfFiles rest).filter (fun later => !decide (scope.file.Same later.file)) = [] := by
      refine List.filter_eq_nil_iff.mpr fun later there => ?_
      have later : later.file = path :=
        ofPath _ (List.mem_cons_of_mem _ ((firstOfFiles_sublist rest).subset there))
      simp [ofPath scope List.mem_cons_self, later, Path.Same]
    rw [firstOfFiles, none]
    rfl

section Parser

variable [Php.Parser]

theorem file_of_mem_scopesOfSource {source : Source} {scope : Scope}
    (there : scope ∈ scopesOfSource source) : scope.file = source.path := by
  obtain ⟨declaration, _, rfl⟩ := List.mem_map.mp there
  rfl

theorem firstOfFiles_ofSources {sources : List Source}
    (apart : sources.Pairwise fun first second => ¬ first.path.Same second.path) :
    firstOfFiles (sources.flatMap scopesOfSource)
      = sources.filterMap fun source => (scopesOfSource source).head? := by
  induction sources with
  | nil => rfl
  | cons source rest ih =>
    obtain ⟨apartFromRest, restApart⟩ := List.pairwise_cons.mp apart
    have different : ∀ scope ∈ scopesOfSource source, ∀ later ∈ rest.flatMap scopesOfSource,
        ¬ scope.file.Same later.file := by
      intro scope there later isLater
      obtain ⟨other, isOther, ofOther⟩ := List.mem_flatMap.mp isLater
      rw [file_of_mem_scopesOfSource there, file_of_mem_scopesOfSource ofOther]
      exact apartFromRest other isOther
    rw [List.flatMap_cons, firstOfFiles_append different, ih restApart,
      firstOfFiles_of_one_file fun scope there => file_of_mem_scopesOfSource there, List.filterMap_cons]
    cases (scopesOfSource source).head? <;> rfl

/-! ### What an analysis sees of a project -/

variable {sources reordered : List Source}

theorem hasClass_ofSources_of_perm (root : Path) (config : Config) (perm : sources.Perm reordered) (name : Text) :
    (ofSources root config sources).hasClass name = (ofSources root config reordered).hasClass name := by
  rw [Bool.eq_iff_iff, hasClass, hasClass, Symbols.has_iff, Symbols.has_iff, mem_keys_ofSources,
    mem_keys_ofSources]
  simp only [perm.mem_iff]

theorem host_ofSources_of_perm (root : Path) (config : Config) (disk : Disk) (perm : sources.Perm reordered) :
    (ofSources root config sources).host disk = (ofSources root config reordered).host disk := by
  have known := funext (hasClass_ofSources_of_perm root config perm)
  have excluded : (ofSources root config sources).isExcluded = (ofSources root config reordered).isExcluded :=
    funext fun path => by rw [isExcluded_ofSources, isExcluded_ofSources]
  rw [host, host, known, excluded]

/-! ### Checks -/

/-- Going through scopes of different files finds the same issues of each file, in whichever order. -/
theorem ofFile_flatMap_of_perm {host : Host} {strategy : Strategy} {first second : List Scope}
    (perm : first.Perm second) (apart : first.Pairwise fun scope other => ¬ scope.file.Same other.file)
    (file : Path) :
    Issue.ofFile file (first.flatMap (issuesOfFile host strategy))
      = Issue.ofFile file (second.flatMap (issuesOfFile host strategy)) := by
  have none : ∀ scope : Scope, ¬ file.Same scope.file →
      Issue.ofFile file (issuesOfFile host strategy scope) = [] := by
    intro scope elsewhere
    refine List.filter_eq_nil_iff.mpr fun issue found => ?_
    rw [file_of_mem_issuesOfFile found]
    simpa using elsewhere
  simp only [Issue.ofFile, List.filter_flatMap]
  refine flatMap_eq_of_perm perm (apart.imp fun {scope other} different => ?_)
  by_cases here : file.Same scope.file
  · exact .inr (none other fun same => different (here.symm.trans same))
  · exact .inl (none scope here)

theorem check_of_perm (root : Path) (config : Config) (disk : Disk) (strategy : Strategy)
    (perm : sources.Perm reordered) (apart : sources.Pairwise fun first second => ¬ first.path.Same second.path) :
    let found := (ofSources root config sources).check disk strategy {}
    let alsoFound := (ofSources root config reordered).check disk strategy {}
    Issue.sort found.issues = Issue.sort alsoFound.issues
      ∧ found.errors.Perm alsoFound.errors
      ∧ found.filesAnalyzed {} = alsoFound.filesAnalyzed {} := by
  intro found alsoFound
  have through := goesThrough_ofSources root config sources disk strategy {}
  have throughReordered := goesThrough_ofSources root config reordered disk strategy {}
  rw [← host_ofSources_of_perm root config disk perm] at throughReordered
  -- the same scopes are due, in another order
  have stillApart : reordered.Pairwise fun first second => ¬ first.path.Same second.path :=
    (perm.pairwise_iff fun {first second} apart same => apart same.symm).mp apart
  have sameDue : (due (ofSources root config sources).isExcluded {} (sources.flatMap scopesOfSource)).Perm
      (due (ofSources root config reordered).isExcluded {} (reordered.flatMap scopesOfSource)) := by
    simp only [due, firstOfFiles_ofSources apart, firstOfFiles_ofSources stillApart, isExcluded_ofSources]
    exact (perm.filterMap _).filter _
  refine ⟨?issues, ?errors, ?size⟩
  case issues =>
    rw [through.issues, throughReordered.issues]
    exact Issue.sort_eq_of_files (ofFile_flatMap_of_perm sameDue (pairwise_due _))
  case errors =>
    rw [through.errors, throughReordered.errors]
    exact sameDue.filterMap _
  case size =>
    rw [CheckResult.filesAnalyzed, CheckResult.filesAnalyzed, through.size, throughReordered.size,
      sameDue.length_eq]

end Parser

/-- Of two imports under names that differ in case alone, the one that is asked first counts, and nothing fixes which
one that is. -/
example :
    let source (order : Imports.Order) : Source :=
      ⟨.ofString "a.php", "<?php use A\\Foo; use B\\FOO; class C { /** @var foo $x */ }".toList, order⟩
    let disk : Disk := { top := [("a.php".toList, .file (.text (source .inserted).content))] }
    let found (order : Imports.Order) := (ofSources (.ofString "/") {} [source order]).check disk .tokens {}
    (found .inserted).issues.map Issue.className = ["\\A\\Foo".toList]
      ∧ (found .reversed).issues.map Issue.className = ["\\B\\FOO".toList] := by decide +kernel

end Project

end AnnotationCheck
