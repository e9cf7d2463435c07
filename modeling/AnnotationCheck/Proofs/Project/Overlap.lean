import AnnotationCheck.Php.Statement
import AnnotationCheck.Project.Load
import AnnotationCheck.Proofs.Disk.Walk
import AnnotationCheck.Proofs.Project.ByFile

/-!
Directories of the settings that overlap.

* `mem_sources` — an indexed file lies behind the root by entries alone, and its path leads to its text.
* `filter_issues_of_place` — the issues of what stands at a place are those of one analysis.
* **`check_of_overlapping_directories`** — whichever of the directories a file is found through, a check
  reads it once.
-/

namespace AnnotationCheck

/-- What is read at a path stands at the place to which the path leads. -/
theorem Disk.exists_place_of_read {disk : Disk} {path : Path} {content : Text}
    (readable : disk.read path = .ok content) :
    ∃ place : Place, disk.place? path = .ok place ∧ disk.at? place = some (.file (.text content)) := by
  obtain ⟨place, leads, stands⟩ := exists_of_bind_eq_ok readable
  refine ⟨place, leads, ?_⟩
  split at stands <;> cases stands
  assumption

namespace Project

/-! ### The indexed files -/

/-- Where a directory of the settings lies behind the root. -/
theorem components_start {root directory : Path} (named : root.bytes ≠ []) (relative : directory.isAbsolute = false)
    (noParent : .parent ∉ directory.components) :
    ∃ names : Disk.Place, (root.join directory).tidy.components = root.components ++ names.map .entry := by
  rw [Path.components_eq] at noParent
  obtain ⟨names, steps⟩ := Path.exists_entries fun up => noParent (List.mem_append_right _ up)
  exact ⟨names, by rw [Path.components_tidy, Path.components_join named relative, steps]⟩

theorem mem_files_of_mem_declarations {project : Project} {scope : Scope}
    (declared : scope ∈ project.declarations) : ∃ file ∈ project.files, scope.file = file.path := by
  obtain ⟨file, there, declared⟩ := List.mem_flatMap.mp declared
  obtain ⟨declaration, -, rfl⟩ := List.mem_map.mp declared
  exact ⟨file, there, rfl⟩

/-- An indexed file lies behind the root by entries alone, and its path leads to its text. -/
theorem mem_sources [Disk.Walker] {disk : Disk} {root : Path} {config : Config} {orders : Nat → Imports.Order}
    (named : root.bytes ≠ []) (joins : ∀ start ∈ starts root config, disk.JoinsNames start)
    (plain : ∀ directory ∈ config.directories, directory.isAbsolute = false ∧ .parent ∉ directory.components)
    {source : Source} (there : source ∈ sources disk root config orders) :
    ∃ names place : Disk.Place, source.path.components = root.components ++ names.map .entry
      ∧ disk.place? source.path = .ok place ∧ disk.at? place = some (.file (.text source.content)) := by
  obtain ⟨⟨found, number⟩, numbered, rfl⟩ := List.mem_map.mp there
  obtain ⟨walked, listed, isSource⟩ := List.mem_filterMap.mp (List.fst_mem_of_mem_zipIdx numbered)
  obtain ⟨start, isStart, walks⟩ := List.mem_flatMap.mp listed
  obtain ⟨directory, isDirectory, rfl⟩ := List.mem_map.mp isStart
  obtain ⟨relative, noParent⟩ := plain directory isDirectory
  obtain ⟨names, ofStart⟩ := components_start named relative noParent
  have some : (root.join directory).tidy.bytes ≠ [] := by
    intro none
    have noSteps : (root.join directory).tidy.components = [] :=
      congrArg Path.components (show (root.join directory).tidy = ⟨[]⟩ from congrArg Path.ofBytes none)
    rw [ofStart] at noSteps
    exact named (Path.bytes_eq_nil_of_components (List.append_eq_nil_iff.mp noSteps).1)
  obtain ⟨inner, components⟩ := (joins _ isStart).components_eq some walks
  rw [ofStart, List.append_assoc, ← List.map_append] at components
  unfold source? at isSource
  split at isSource
  · split at isSource
    · rename_i content readable
      cases isSource
      obtain ⟨place, leads, stands⟩ := Disk.exists_place_of_read readable
      exact ⟨names ++ inner, place, components, leads, stands⟩
    · cases isSource
  · cases isSource

section Parser

variable [Php.Parser]

/-- The files of a project are those of its sources, each with what the source declares. -/
theorem mem_files_addSources {project : Project} {sources : List Source} {file : IndexedFile}
    (there : file ∈ (project.addSources sources).files) :
    file ∈ project.files ∨ ∃ source ∈ sources, file = ⟨source.path, source.declared⟩ := by
  induction sources generalizing project with
  | nil => exact .inl there
  | cons source rest ih =>
    rw [addSources_cons] at there
    rcases ih there with already | ⟨other, isOther, same⟩
    · rcases project.addSource_cases source with added | ⟨passedBy, -⟩
      · rw [added] at already
        rcases List.mem_append.mp already with before | new
        · exact .inl before
        · exact .inr ⟨source, List.mem_cons_self, List.mem_singleton.mp new⟩
      · rw [passedBy] at already
        exact .inl already
    · exact .inr ⟨other, List.mem_cons_of_mem source isOther, same⟩

section Load

variable [Disk.Walker] {disk : Disk} {root : Path} {config : Config} {orders : Nat → Imports.Order}

theorem exists_source_of_file {file : IndexedFile} (there : file ∈ (load disk root config orders).files) :
    ∃ source ∈ sources disk root config orders, file = ⟨source.path, source.declared⟩ :=
  (mem_files_addSources there).resolve_left (by simp [new])

variable (named : root.bytes ≠ []) (joins : ∀ start ∈ starts root config, disk.JoinsNames start)
  (plain : ∀ directory ∈ config.directories, directory.isAbsolute = false ∧ .parent ∉ directory.components)
include named joins plain

/-- What an indexed file declares is what the text declares to which its path leads. -/
theorem stands_of_mem_files {file : IndexedFile} (there : file ∈ (load disk root config orders).files) :
    ∃ place content order, disk.place? file.path = .ok place ∧ disk.at? place = some (.file (.text content))
      ∧ file.declared = (Declarations.ofScript content).arranged order := by
  obtain ⟨source, isSource, rfl⟩ := exists_source_of_file there
  obtain ⟨-, place, -, leads, stands⟩ := mem_sources named joins plain isSource
  exact ⟨place, source.content, source.order, leads, stands, rfl⟩

/-- Two indexed files at one place are of one path, however the directories spell it. -/
theorem same_iff_place? {first second : IndexedFile} (isFirst : first ∈ (load disk root config orders).files)
    (isSecond : second ∈ (load disk root config orders).files) :
    first.path.Same second.path ↔ disk.place? first.path = disk.place? second.path := by
  obtain ⟨source, isSource, rfl⟩ := exists_source_of_file isFirst
  obtain ⟨other, isOther, rfl⟩ := exists_source_of_file isSecond
  obtain ⟨names, place, below, leads, -⟩ := mem_sources named joins plain isSource
  obtain ⟨others, elsewhere, below', leads', -⟩ := mem_sources named joins plain isOther
  constructor
  · intro same
    show disk.place? source.path = disk.place? other.path
    rw [leads, leads', Disk.place?_eq_of_same same leads leads']
  · intro atOne
    have leadsThere : disk.place? other.path = .ok place := atOne.symm.trans leads
    exact Disk.same_of_place? below below' leads leadsThere

end Load

/-! ### Issues by place -/

section Place

variable {project : Project} {disk : Disk} {strategy : Strategy} {analyzed : PathSet}

theorem exists_declaration_of_issue {issue : Issue}
    (found : issue ∈ (project.check disk strategy analyzed).issues) :
    ∃ scope ∈ project.declarations, issue.file = scope.file := by
  obtain ⟨scope, there, line, type, name, _, rfl⟩ := exists_missing_of_issue found
  exact ⟨scope, there, rfl⟩

/-- **The issues of what stands at a place** are those of one analysis, where no two files of the project
stand at one place. -/
theorem filter_issues_of_place (strategy : Strategy) (analyzed : PathSet)
    (apart : ∀ first ∈ project.declarations, ∀ second ∈ project.declarations,
      first.file.Same second.file ↔ disk.place? first.file = disk.place? second.file)
    (reached : Except ReadError Disk.Place) :
    (project.check disk strategy analyzed).issues.filter (fun issue => decide (disk.place? issue.file = reached))
      = (project.declarations.find? fun scope => decide (disk.place? scope.file = reached)).elim [] fun first =>
          (Analysis.run (project.host disk) strategy (some first.file) first none analyzed).issues := by
  cases found : project.declarations.find? fun scope => decide (disk.place? scope.file = reached) with
  | none =>
    refine List.filter_eq_nil_iff.mpr fun issue isFound => ?_
    obtain ⟨scope, declared, ofScope⟩ := exists_declaration_of_issue isFound
    rw [ofScope]
    exact List.find?_eq_none.mp found scope declared
  | some first =>
    have isDeclared := List.mem_of_find?_eq_some found
    have here : disk.place? first.file = reached := by simpa using List.find?_some found
    have ofFirst : ∀ scope ∈ project.declarations,
        decide (disk.place? scope.file = reached) = decide (scope.file.Same first.file) := by
      intro scope declared
      refine decide_eq_decide.mpr ?_
      rw [apart scope declared first isDeclared, here]
    have isFirst :
        project.declarations.find? (fun scope => decide (scope.file.Same first.file)) = some first := by
      rw [← found, ← List.head?_filter, ← List.head?_filter, List.filter_congr ofFirst]
    rw [Option.elim_some, ← ofFile_check isFirst, Issue.ofFile]
    refine List.filter_congr fun issue isFound => ?_
    obtain ⟨scope, declared, ofScope⟩ := exists_declaration_of_issue isFound
    rw [ofScope, ofFirst scope declared]
    exact decide_eq_decide.mpr ⟨Eq.symm, Eq.symm⟩

end Place

/-! ### Overlapping directories -/

/-- **Overlapping directories** do not double what is reported. However the directories of the settings are
spelled, repeated or nested, the files that are indexed are files of the disk, and two of them at one place
are of one path. So a check asks no place for its text twice, and what it reports of a place is what one
analysis finds there. All that is asked of the walker is that it joins the names of what it comes upon to the
starting point; which files it leaves out, and in which order it goes, makes no difference. -/
theorem check_of_overlapping_directories [Disk.Walker] {disk : Disk} {root : Path} {config : Config}
    (named : root.bytes ≠ []) (joins : ∀ start ∈ starts root config, disk.JoinsNames start)
    (plain : ∀ directory ∈ config.directories, directory.isAbsolute = false ∧ .parent ∉ directory.components)
    (orders : Nat → Imports.Order) (strategy : Strategy) :
    let project := load disk root config orders
    (∀ file ∈ project.files, ∃ place content order, disk.place? file.path = .ok place
        ∧ disk.at? place = some (.file (.text content))
        ∧ file.declared = (Declarations.ofScript content).arranged order)
      ∧ (∀ first ∈ project.files, ∀ second ∈ project.files,
          disk.place? first.path = disk.place? second.path → first.path.Same second.path)
      ∧ ((analyses (project.host disk) strategy {} project.declarations).flatMap (·.asked)).Pairwise
          (fun first second => disk.place? first ≠ disk.place? second)
      ∧ ∀ place : Disk.Place,
          (project.check disk strategy {}).issues.filter (fun issue => decide (disk.place? issue.file = .ok place))
            = (project.declarations.find? fun scope => decide (disk.place? scope.file = .ok place)).elim []
                fun first => (Analysis.run (project.host disk) strategy (some first.file) first none {}).issues := by
  intro project
  have apart : ∀ first ∈ project.declarations, ∀ second ∈ project.declarations,
      first.file.Same second.file ↔ disk.place? first.file = disk.place? second.file := by
    intro first isFirst second isSecond
    obtain ⟨file, there, ofFirst⟩ := mem_files_of_mem_declarations isFirst
    obtain ⟨other, there', ofSecond⟩ := mem_files_of_mem_declarations isSecond
    rw [ofFirst, ofSecond]
    exact same_iff_place? named joins plain there there'
  refine ⟨fun file there => stands_of_mem_files named joins plain there,
    fun first isFirst second isSecond => (same_iff_place? named joins plain isFirst isSecond).mpr, ?asked,
    fun place => filter_issues_of_place strategy {} apart (.ok place)⟩
  rw [asked_check, List.pairwise_map]
  refine (pairwise_due project.declarations).imp_of_mem fun isFirst isSecond differ => ?_
  have same := (apart _ ((due_sublist _).subset isFirst) _ ((due_sublist _).subset isSecond)).mpr
  exact fun atOne => differ (same atOne)

end Parser

/-- One file, found through four spellings of three directories. -/
theorem file_of_four_directories :
    let script := "<?php class A { /** @var Gone $x */ }".toList
    let disk : Disk := { top := [("src".toList, .directory [("a.php".toList, .file (.text script))])] }
    let root := Path.ofString "."
    let config : Config := { directories := [".", "src/", "./src//", "src/a.php"].map Path.ofString }
    let project := load disk root config
    let place : Disk.Place := ["src".toList, "a.php".toList].map Text.bytes
    (root.bytes ≠ [] ∧ (∀ start ∈ starts root config, disk.JoinsNames start)
        ∧ ∀ directory ∈ config.directories, directory.isAbsolute = false ∧ .parent ∉ directory.components)
      ∧ project.files.length = 4
      ∧ ((project.check disk .tokens {}).issues.filter fun issue => decide (disk.place? issue.file = .ok place))
          = ((project.declarations.find? fun scope => decide (disk.place? scope.file = .ok place)).elim []
              fun first => (Analysis.run (project.host disk) .tokens (some first.file) first none {}).issues)
      ∧ (project.check disk .tokens {}).issues.map Issue.className = ["\\Gone".toList] := by
  intro script disk root config project place
  have named : root.bytes ≠ [] := by decide
  have isTree : disk.IsTree := by
    refine .directory (by decide) (by decide) fun member there => ?_
    obtain rfl := List.mem_singleton.mp there
    refine .directory (by decide) (by decide) fun member there => ?_
    obtain rfl := List.mem_singleton.mp there
    exact .file _
  have joins : ∀ start ∈ starts root config, disk.JoinsNames start := fun start _ =>
    Disk.joinsNames_of_isTree isTree start
  have plain : ∀ directory ∈ config.directories, directory.isAbsolute = false ∧ .parent ∉ directory.components := by
    decide
  obtain ⟨-, -, -, issues⟩ := check_of_overlapping_directories named joins plain (fun _ => .inserted) .tokens
  exact ⟨⟨named, joins, plain⟩, by decide +kernel, issues place, by decide +kernel⟩

end Project

end AnnotationCheck
