import AnnotationCheck.Php.Statement
import AnnotationCheck.Proofs.Comment.Located
import AnnotationCheck.Proofs.Project.Check
import AnnotationCheck.Proofs.Scope.Excuses

/-!
Which annotations of a project are reported, and what becomes of template parameters.

* `Occurrence.ofScript` — the annotations of a script, each with the comment that holds it and the place of this.
* `findings` — the issues of a check, each with its annotation; without these they are the issues that
  `check` gives (`map_issue_findings`).
* `SparesTemplates` — in a part of a file, no annotation of a template parameter is reported.
* **`template_parameters_spared_iff`** — for the template parameters of a class-like this holds exactly if
  the file is excluded or the scope of the *first* class-like of the file excuses those that are annotated
  in that part: a file is gone through once, so the parameters of its other class-likes are not known.
* `sparesTemplates_of_first` — the parameters of the first class-like itself are spared.
* `second_class_counterexample` — those of the second one are not.
-/

namespace AnnotationCheck

/-! ### Annotations -/

/-- An annotation with the comment that holds it and the range at which this stands. -/
structure Occurrence where
  range : Range
  comment : Comment
  tag : VarTag
  deriving DecidableEq, Repr

namespace Occurrence

/-- The annotations in the comments of a script, in their order. -/
def ofScript [Php.Parser] (script : Text) (anchor : Nat) : List Occurrence :=
  (Comment.located script .tokens anchor).flatMap fun entry =>
    (VarTag.ofText entry.2.line entry.2.text).map (⟨entry.1, entry.2, ·⟩)

/-- The comment with the annotation lies in a part of the script. -/
def LiesIn (occurrence : Occurrence) (part : Range) : Prop :=
  part.start ≤ occurrence.range.start ∧ occurrence.range.stop ≤ part.stop

/-- The type of the annotation is the given one, with any number of `[]` behind it. -/
def IsOf (occurrence : Occurrence) (type : Text) : Prop :=
  ∃ count, occurrence.tag.type = type ++ Union.marks count

theorem isUnion_type [Php.Parser] {script : Text} {anchor : Nat} {occurrence : Occurrence}
    (there : occurrence ∈ ofScript script anchor) : Union.IsUnion occurrence.tag.type := by
  obtain ⟨entry, _, there⟩ := List.mem_flatMap.mp there
  obtain ⟨tag, isTag, rfl⟩ := List.mem_map.mp there
  exact (VarTag.isReading_ofText _ _).isUnion tag isTag

end Occurrence

/-! ### Findings -/

/-- An issue with the annotation that it is about and the file in which this stands. -/
structure Finding where
  file : Path
  occurrence : Occurrence
  issue : Issue
  deriving DecidableEq, Repr

namespace Project

/-- The first scope of a file is due if the file is not excluded, and no other scope of it is. -/
theorem mem_due_of_file_iff {project : Project} {file : Path} {first : Scope}
    (isFirst : project.declarations.find? (fun scope => decide (scope.file.Same file)) = some first)
    {scope : Scope} :
    scope ∈ due project.isExcluded {} project.declarations ∧ scope.file.Same file
      ↔ project.isExcluded file = false ∧ scope = first := by
  have search : ∀ {other : Path}, other.Same file →
      project.declarations.find? (fun scope => decide (scope.file.Same other)) = some first := by
    intro other same
    rw [← isFirst]
    congr 1
    funext scope
    exact same.decide_congr scope.file
  rw [mem_due_iff, mem_firstOfFiles_iff]
  constructor
  · rintro ⟨⟨found, included, _⟩, same⟩
    exact ⟨(project.isExcluded_congr same).symm.trans included,
      Option.some.inj (found.symm.trans (search same))⟩
  · rintro ⟨included, rfl⟩
    have same : scope.file.Same file := by simpa using List.find?_some isFirst
    exact ⟨⟨search same, (project.isExcluded_congr same).trans included, PathSet.contains_empty _⟩, same⟩

section Parser

variable [Php.Parser]

/-- What is found in a text. -/
def findingsOfText (known : Text → Bool) (scope : Scope) (content : Text) : List Finding :=
  (Occurrence.ofScript content scope.line).flatMap fun occurrence =>
    (Scope.issues known { scope with line := occurrence.comment.line } occurrence.tag.type).map
      (⟨scope.file, occurrence, ·⟩)

/-- What is found in the file of a scope. -/
def findingsOfFile (host : Host) (scope : Scope) : List Finding :=
  match host.read scope.file with
  | .ok content => findingsOfText host.has scope content
  | .error _ => []

/-- What a check finds that reads comments off the tokens and for which no file counts as analyzed. -/
def findings (project : Project) (disk : Disk) : List Finding :=
  (due project.isExcluded {} project.declarations).flatMap (findingsOfFile (project.host disk))

theorem map_issue_findingsOfText (known : Text → Bool) (scope : Scope) (content : Text) :
    (findingsOfText known scope content).map Finding.issue
      = (Comment.ofScript content .tokens scope.line).flatMap fun comment => comment.issues known scope := by
  rw [← (Comment.isLocated_located content .tokens scope.line).comments, List.flatMap_map, findingsOfText,
    Occurrence.ofScript, List.flatMap_assoc, List.map_flatMap]
  refine List.flatMap_congr fun entry _ => ?_
  rw [List.flatMap_map, List.map_flatMap, Comment.issues]
  refine List.flatMap_congr fun tag _ => ?_
  rw [List.map_map]
  exact List.map_id _

theorem map_issue_findingsOfFile (host : Host) (scope : Scope) :
    (findingsOfFile host scope).map Finding.issue = issuesOfFile host .tokens scope := by
  rw [findingsOfFile, issuesOfFile]
  cases host.read scope.file with
  | error reason => rfl
  | ok content =>
    simp only [Analysis.ofText_unlimited]
    exact map_issue_findingsOfText host.has scope content

/-- The findings of a check are its issues. -/
theorem map_issue_findings (project : Project) (disk : Disk) :
    (project.findings disk).map Finding.issue = (project.check disk .tokens {}).issues := by
  rw [(goesThrough_check project disk .tokens {}).issues, findings, List.map_flatMap]
  exact List.flatMap_congr fun scope _ => map_issue_findingsOfFile (project.host disk) scope

/-! ### Where a finding comes from -/

theorem file_of_mem_findingsOfFile {host : Host} {scope : Scope} {finding : Finding}
    (found : finding ∈ findingsOfFile host scope) : finding.file = scope.file := by
  rw [findingsOfFile] at found
  split at found
  · obtain ⟨occurrence, _, found⟩ := List.mem_flatMap.mp found
    obtain ⟨issue, _, rfl⟩ := List.mem_map.mp found
    rfl
  · cases found

/-- The findings of a file come from one look at it, in the scope of its first class-like. -/
theorem mem_findings_iff {project : Project} {disk : Disk} {file : Path} {first : Scope}
    (isFirst : project.declarations.find? (fun scope => decide (scope.file.Same file)) = some first)
    {finding : Finding} :
    finding ∈ project.findings disk ∧ finding.file.Same file
      ↔ project.isExcluded file = false ∧ finding ∈ findingsOfFile (project.host disk) first := by
  constructor
  · rintro ⟨found, same⟩
    obtain ⟨scope, isDue, found⟩ := List.mem_flatMap.mp found
    rw [file_of_mem_findingsOfFile found] at same
    obtain ⟨included, rfl⟩ := (mem_due_of_file_iff isFirst).mp ⟨isDue, same⟩
    exact ⟨included, found⟩
  · rintro ⟨included, found⟩
    obtain ⟨isDue, same⟩ := (mem_due_of_file_iff isFirst).mpr ⟨included, rfl⟩
    exact ⟨List.mem_flatMap.mpr ⟨first, isDue, found⟩, by rwa [file_of_mem_findingsOfFile found]⟩

/-- An annotation of a file is reported. -/
def Reports (project : Project) (disk : Disk) (file : Path) (occurrence : Occurrence) : Prop :=
  ∃ finding ∈ project.findings disk, finding.file.Same file ∧ finding.occurrence = occurrence

/-- An annotation is reported in a text exactly if the scope does not excuse all elements of its type. -/
theorem exists_finding_iff {known : Text → Bool} {scope : Scope} {content : Text}
    {occurrence : Occurrence} :
    (∃ finding ∈ findingsOfText known scope content, finding.occurrence = occurrence)
      ↔ occurrence ∈ Occurrence.ofScript content scope.line
        ∧ ∃ element ∈ Union.elements occurrence.tag.type, ¬ scope.Excuses known element := by
  -- the line of the scope makes no difference to what it excuses
  have raises : occurrence ∈ Occurrence.ofScript content scope.line →
      (Scope.issues known { scope with line := occurrence.comment.line } occurrence.tag.type ≠ []
        ↔ ∃ element ∈ Union.elements occurrence.tag.type, ¬ scope.Excuses known element) := by
    intro there
    rw [ne_eq, Scope.issues_eq_nil_iff (Occurrence.isUnion_type there)]
    simp only [not_forall, exists_prop]
    rfl
  constructor
  · rintro ⟨finding, found, rfl⟩
    obtain ⟨other, there, found⟩ := List.mem_flatMap.mp found
    obtain ⟨issue, raised, rfl⟩ := List.mem_map.mp found
    exact ⟨there, (raises there).mp (List.ne_nil_of_mem raised)⟩
  · rintro ⟨there, unexcused⟩
    obtain ⟨issue, raised⟩ := List.exists_mem_of_ne_nil _ ((raises there).mpr unexcused)
    exact ⟨⟨scope.file, occurrence, issue⟩,
      List.mem_flatMap.mpr ⟨occurrence, there, List.mem_map.mpr ⟨issue, raised, rfl⟩⟩, rfl⟩

/-- **An annotation is reported** exactly if its file is not excluded, the annotation is in the text that is
read, and the scope of the first class-like of the file does not excuse all elements of its type. -/
theorem reports_iff {project : Project} {disk : Disk} {file : Path} {first : Scope}
    (isFirst : project.declarations.find? (fun scope => decide (scope.file.Same file)) = some first)
    {occurrence : Occurrence} :
    project.Reports disk file occurrence
      ↔ project.isExcluded file = false
        ∧ ∃ content, readFrom disk first.file = .ok content ∧ occurrence ∈ Occurrence.ofScript content first.line
          ∧ ∃ element ∈ Union.elements occurrence.tag.type, ¬ first.Excuses project.hasClass element := by
  have ofFirst : project.Reports disk file occurrence
      ↔ project.isExcluded file = false
        ∧ ∃ finding ∈ findingsOfFile (project.host disk) first, finding.occurrence = occurrence := by
    constructor
    · rintro ⟨finding, found, same, isAbout⟩
      obtain ⟨included, found⟩ := (mem_findings_iff isFirst).mp ⟨found, same⟩
      exact ⟨included, finding, found, isAbout⟩
    · rintro ⟨included, finding, found, isAbout⟩
      obtain ⟨found, same⟩ := (mem_findings_iff isFirst).mpr ⟨included, found⟩
      exact ⟨finding, found, same, isAbout⟩
  rw [ofFirst, findingsOfFile]
  refine and_congr_right fun _ => ?_
  change (∃ finding ∈ match readFrom disk first.file with
      | .ok content => findingsOfText project.hasClass first content
      | .error _ => [], finding.occurrence = occurrence) ↔ _
  cases readFrom disk first.file with
  | error reason => simp
  | ok content => simp [exists_finding_iff]

/-! ### Template parameters -/

/-- In a part of a file, no annotation whose type is one of the templates, with any number of `[]`, is
reported. -/
def SparesTemplates (project : Project) (disk : Disk) (file : Path) (templates : List Text)
    (part : Range) : Prop :=
  ∀ occurrence : Occurrence, occurrence.LiesIn part → ∀ template ∈ templates, occurrence.IsOf template →
    ¬ project.Reports disk file occurrence

/-- Template parameters are spared exactly if the file is excluded or the scope of its first class-like
excuses those that are annotated in the part of the file. -/
theorem sparesTemplates_iff {project : Project} {file : Path} {first : Scope}
    (isFirst : project.declarations.find? (fun scope => decide (scope.file.Same file)) = some first)
    (disk : Disk) (templates : List Text) (part : Range) :
    project.SparesTemplates disk file templates part
      ↔ project.isExcluded file = true
        ∨ ∀ content, readFrom disk first.file = .ok content →
          ∀ occurrence ∈ Occurrence.ofScript content first.line, occurrence.LiesIn part →
            ∀ template ∈ templates, occurrence.IsOf template →
              ∀ element ∈ Union.elements template, first.Excuses project.hasClass element := by
  have elements : ∀ {occurrence : Occurrence} {template : Text}, occurrence.IsOf template →
      Union.elements occurrence.tag.type = Union.elements template := by
    rintro occurrence template ⟨count, type⟩
    rw [type, Union.elements_append_marks]
  constructor
  · intro spares
    cases excluded : project.isExcluded file with
    | true => exact .inl rfl
    | false =>
      refine .inr ?_
      intro content readable occurrence there liesIn template isTemplate isOf element isElement
      by_contra unexcused
      refine spares occurrence liesIn template isTemplate isOf ((reports_iff isFirst).mpr ?_)
      exact ⟨excluded, content, readable, there, element, (elements isOf).symm ▸ isElement, unexcused⟩
  · intro excused occurrence liesIn template isTemplate isOf reports
    obtain ⟨included, content, readable, there, element, isElement, unexcused⟩ :=
      (reports_iff isFirst).mp reports
    rcases excused with excluded | excused
    · rw [included] at excluded
      cases excluded
    · exact unexcused (excused content readable occurrence there liesIn template isTemplate isOf element
        (elements isOf ▸ isElement))

/-- The template parameters of the first class-like of a file are spared, if they are names. -/
theorem sparesTemplates_of_first {project : Project} {file : Path} {first : Scope}
    (isFirst : project.declarations.find? (fun scope => decide (scope.file.Same file)) = some first)
    (names : ∀ template ∈ first.templates, Union.IsName template) (disk : Disk) (part : Range) :
    project.SparesTemplates disk file first.templates part := by
  refine (sparesTemplates_iff isFirst disk first.templates part).mpr (.inr ?_)
  intro content _ occurrence _ _ template isTemplate _ element isElement
  rw [Union.elements_of_isName (names template isTemplate), List.mem_singleton] at isElement
  rw [isElement]
  exact .inr (.inr (.inl isTemplate))

/-- The file of a source that declares a class-like has a first scope. -/
theorem exists_first_of_source (root : Path) (config : Config) {sources : List Source} {source : Source}
    (indexed : source ∈ sources) {declaration : Declaration} (declared : declaration ∈ source.declared.classes) :
    ∃ first, (ofSources root config sources).declarations.find?
      (fun scope => decide (scope.file.Same source.path)) = some first := by
  rw [declarations_ofSources, ← Option.isSome_iff_exists, List.find?_isSome]
  refine ⟨scopeOf ⟨source.path, source.declared⟩ declaration, ?_, decide_eq_true rfl⟩
  exact List.mem_flatMap.mpr ⟨source, indexed, List.mem_map.mpr ⟨declaration, declared, rfl⟩⟩

/-- **The template parameters of a class-like are spared in a part of its file**, such as its body,
exactly if the file is excluded or the first scope of the file excuses the elements of those parameters
that are annotated there. What counts as reported is what the check gives. -/
theorem template_parameters_spared_iff (root : Path) (config : Config) (disk : Disk) {sources : List Source}
    {source : Source} (indexed : source ∈ sources) {declaration : Declaration}
    (declared : declaration ∈ source.declared.classes) (part : Range) :
    let project := ofSources root config sources
    (project.findings disk).map Finding.issue = (project.check disk .tokens {}).issues
      ∧ ∃ first, project.declarations.find? (fun scope => decide (scope.file.Same source.path)) = some first
        ∧ (project.SparesTemplates disk source.path declaration.templates part
          ↔ project.isExcluded source.path = true
            ∨ ∀ content, readFrom disk first.file = .ok content →
              ∀ occurrence ∈ Occurrence.ofScript content first.line, occurrence.LiesIn part →
                ∀ template ∈ declaration.templates, occurrence.IsOf template →
                  ∀ element ∈ Union.elements template, first.Excuses project.hasClass element) := by
  intro project
  obtain ⟨first, isFirst⟩ := exists_first_of_source root config indexed declared
  exact ⟨map_issue_findings project disk, first, isFirst,
    sparesTemplates_iff isFirst disk declaration.templates part⟩

end Parser

/-- A file with one class-like, which annotates a list of its parameter. -/
theorem parameter_of_only_class_spared :
    let source : Source :=
      ⟨.ofString "a.php", "<?php /** @template T */\nclass A { /** @var T[] $x */ }".toList, .inserted⟩
    let project := ofSources (.ofString "/") {} [source]
    let declaration : Declaration := ⟨"\\A".toList, 2, ["T".toList]⟩
    source ∈ [source] ∧ declaration ∈ source.declared.classes
      ∧ project.SparesTemplates { top := [("a.php".toList, .file (.text source.content))] } source.path
          declaration.templates ⟨33, 55⟩ := by
  intro source project declaration
  have indexed : source ∈ [source] := List.mem_singleton_self source
  have script : source.declared = { classes := [declaration] } := by decide +kernel
  have declared : declaration ∈ source.declared.classes := by
    rw [script]
    exact List.mem_singleton_self declaration
  obtain ⟨_, first, isFirst, spared⟩ := template_parameters_spared_iff (.ofString "/") {}
    { top := [("a.php".toList, .file (.text source.content))] } indexed declared ⟨33, 55⟩
  refine ⟨indexed, declared, spared.mpr (.inr ?_)⟩
  have ofFirst : project.declarations.find? (fun scope => decide (scope.file.Same source.path))
      = some { file := source.path, line := 2, owner := "\\A".toList, templates := ["T".toList] } := by
    rw [declarations_ofSources, List.flatMap_singleton, scopesOfSource, script]
    rfl
  rw [← Option.some.inj (ofFirst.symm.trans isFirst)]
  intro content _ occurrence _ _ template isTemplate _ element isElement
  rw [List.mem_singleton.mp isTemplate] at isElement
  exact .inr (.inr (.inl isElement))

/-- **The template parameter of a second class-like is reported in its body.** -/
theorem second_class_counterexample :
    let source : Source :=
      ⟨.ofString "a.php", "<?php class A {}\n/** @template U */\nclass B { /** @var U $x */ }".toList, .inserted⟩
    let disk : Disk := { top := [("a.php".toList, .file (.text source.content))] }
    let project := ofSources (.ofString "/") {} [source]
    let declaration : Declaration := ⟨"\\B".toList, 3, ["U".toList]⟩
    let body : Range := ⟨44, 64⟩
    declaration ∈ source.declared.classes
      ∧ readFrom disk source.path = .ok source.content
      ∧ Text.slice? source.content body.start body.stop = some "{ /** @var U $x */ }".toList
      ∧ ¬ project.SparesTemplates disk source.path declaration.templates body := by
  intro source disk project declaration body
  have script : source.declared = { classes := [⟨"\\A".toList, 1, []⟩, declaration] } := by decide +kernel
  have declared : declaration ∈ source.declared.classes := by
    rw [script]
    exact List.mem_cons_of_mem _ (List.mem_singleton_self declaration)
  have readable : readFrom disk source.path = .ok source.content := by decide +kernel
  refine ⟨declared, readable, by decide +kernel, fun spares => ?_⟩
  -- the file is gone through in the scope of its first class-like
  have isFirst : project.declarations.find? (fun scope => decide (scope.file.Same source.path))
      = some { file := source.path, line := 1, owner := "\\A".toList } := by
    rw [declarations_ofSources, List.flatMap_singleton, scopesOfSource, script]
    rfl
  let occurrence : Occurrence :=
    ⟨⟨46, 62⟩, ⟨"/** @var U $x */".toList, 3⟩, ⟨"U".toList, "x".toList, 3⟩⟩
  have there : occurrence ∈ Occurrence.ofScript source.content 1 := by decide +kernel
  have isElement : "U".toList ∈ Union.elements occurrence.tag.type := by decide
  have unexcused : ¬ Scope.Excuses
      { file := source.path, line := 1, owner := "\\A".toList }
      project.hasClass "U".toList := by
    rw [Scope.excuses_iff]
    decide +kernel
  refine spares occurrence ⟨by decide, by decide⟩ "U".toList (List.mem_singleton_self _) ⟨0, rfl⟩ ?_
  exact (reports_iff isFirst).mpr ⟨by decide +kernel, source.content, readable, there, _, isElement, unexcused⟩

end Project

end AnnotationCheck
