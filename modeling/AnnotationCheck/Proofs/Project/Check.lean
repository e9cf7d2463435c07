import AnnotationCheck.Project.Check
import AnnotationCheck.Proofs.Analysis.Offer
import AnnotationCheck.Proofs.Path.Relative
import AnnotationCheck.Proofs.Project.Due

/-!
What a check comes to.

* `ofSources` — the project of some sources, indexed one after the other; its scopes are those of the
  sources, in order (`declarations_ofSources`).
* `isExcluded_congr` — whether a file is excluded depends on the components of its path alone.
* `GoesThrough` — a check that analyzes the file of each of some scopes once, and nothing else.
* `goesThrough_check`, `asked_check`, `analyzed_check` — a check goes through the files that are due and
  asks for no others.
* **`check_goesThrough_due`** — a check goes through the files that are due, each in the scope of the
  first class-like that was indexed for it.
-/

namespace AnnotationCheck

theorem Config.excludes_congr (config : Config) {left right : Path} (same : left.Same right) :
    config.excludes left = config.excludes right := by
  have components : left.components = right.components := same
  simp only [excludes, covers, components]

/-- What a source declares, with the imports in the order in which they will be asked; nothing where the parser gives
the source up. -/
def Source.declared [Php.Parser] (source : Source) : Declarations :=
  (Declarations.ofScript source.content).arranged source.order

namespace Project

/-- Whether a file is excluded depends on the components of its path alone. -/
theorem isExcluded_congr (project : Project) {left right : Path} (same : left.Same right) :
    project.isExcluded left = project.isExcluded right :=
  project.config.excludes_congr (same.relativeTo project.root)

theorem ofAnalyses_cons (before : PathSet) (analysis : Analysis) (rest : List Analysis) :
    CheckResult.ofAnalyses before (analysis :: rest)
      = { issues := analysis.issues ++ (CheckResult.ofAnalyses analysis.analyzed rest).issues
          errors := analysis.error.toList ++ (CheckResult.ofAnalyses analysis.analyzed rest).errors
          analyzed := (CheckResult.ofAnalyses analysis.analyzed rest).analyzed } := by
  simp only [CheckResult.ofAnalyses, List.flatMap_cons, List.getLast?_cons, Option.map_some, Option.getD_some]
  congr 1
  · cases error : analysis.error <;> simp [error]
  · cases rest.getLast? <;> rfl

/-- The error of the file of a scope, where it cannot be read. -/
def errorOfFile (host : Host) (scope : Scope) : Option AnalysisError :=
  match host.read scope.file with
  | .ok _ => none
  | .error reason => some (.unreadable scope.file reason)

variable [Php.Parser]

/-! ### Sources -/

/-- The project of the given sources, indexed one after the other. -/
def ofSources (root : Path) (config : Config) (sources : List Source) : Project :=
  (new root config).addSources sources

/-- The scopes of the class-likes that a source declares. -/
def scopesOfSource (source : Source) : List Scope :=
  source.declared.classes.map (scopeOf ⟨source.path, source.declared⟩)

/-- A source that declares something, or one that the parser gives up. -/
theorem addSource_cases (project : Project) (source : Source) :
    project.addSource source.path source.content source.order = project.addDeclared source.path source.declared
      ∨ project.addSource source.path source.content source.order = project ∧ source.declared.classes = [] := by
  unfold addSource Source.declared Declarations.ofScript
  cases Declarations.ofScript? source.content with
  | none => exact .inr ⟨rfl, rfl⟩
  | some declared => exact .inl rfl

theorem declarations_addSource (project : Project) (source : Source) :
    (project.addSource source.path source.content source.order).declarations
      = project.declarations ++ scopesOfSource source := by
  rcases project.addSource_cases source with added | ⟨passedBy, none⟩
  · rw [added]
    simp [declarations, addDeclared, scopesOfSource]
  · rw [passedBy, scopesOfSource, none, List.map_nil, List.append_nil]

theorem declarations_addSources (project : Project) (sources : List Source) :
    (project.addSources sources).declarations = project.declarations ++ sources.flatMap scopesOfSource := by
  induction sources generalizing project with
  | nil => simp
  | cons source rest ih =>
    rw [addSources_cons, ih, declarations_addSource, List.flatMap_cons, List.append_assoc]

/-- The scopes of a project are those of its sources, in the order in which they were indexed. -/
theorem declarations_ofSources (root : Path) (config : Config) (sources : List Source) :
    (ofSources root config sources).declarations = sources.flatMap scopesOfSource := by
  rw [ofSources, declarations_addSources]
  rfl

theorem settings_addSources (project : Project) (sources : List Source) :
    (project.addSources sources).root = project.root ∧ (project.addSources sources).config = project.config := by
  induction sources generalizing project with
  | nil => exact ⟨rfl, rfl⟩
  | cons source rest ih =>
    rw [addSources_cons]
    rcases project.addSource_cases source with added | ⟨passedBy, -⟩
    · rw [added]
      exact ih (project.addDeclared source.path source.declared)
    · rw [passedBy]
      exact ih project

/-- Which files are excluded is a matter of the settings, whatever was indexed. -/
theorem isExcluded_ofSources (root : Path) (config : Config) (sources : List Source) (path : Path) :
    (ofSources root config sources).isExcluded path = config.excludes (path.relativeTo root) := by
  obtain ⟨sameRoot, sameConfig⟩ := settings_addSources (new root config) sources
  rw [isExcluded, ofSources, sameRoot, sameConfig]
  rfl

/-! ### Checks -/

/-- The issues of the file of a scope, where it can be read: those of one analysis of its text. -/
def issuesOfFile (host : Host) (strategy : Strategy) (scope : Scope) : List Issue :=
  match host.read scope.file with
  | .ok content => (Analysis.ofText host strategy scope none {} [scope.file] content).issues
  | .error _ => []

/-- A check that analyzes the file of each of the given scopes once, in their order, and no other file. -/
structure GoesThrough (host : Host) (strategy : Strategy) (before : PathSet) (scopes : List Scope)
    (result : CheckResult) : Prop where
  issues : result.issues = scopes.flatMap (issuesOfFile host strategy)
  /-- One error for each file that cannot be read. -/
  errors : result.errors = scopes.filterMap (errorOfFile host)
  /-- The files that count as analyzed grow by those of the scopes. -/
  analyzed : ∀ path, result.analyzed.contains path
    = (before.contains path || scopes.any fun scope => decide (scope.file.Same path))
  /-- Each of them is new. -/
  size : result.analyzed.size = before.size + scopes.length

variable {host : Host} {strategy : Strategy}

/-- One analysis of a file that is due. -/
theorem run_of_due (strategy : Strategy) (scope : Scope) {analyzed : PathSet}
    (included : host.isExcluded scope.file = false)
    (fresh : analyzed.contains scope.file = false) :
    let analysis := Analysis.run host strategy (some scope.file) scope none analyzed
    analysis.issues = issuesOfFile host strategy scope ∧ analysis.error = errorOfFile host scope ∧
      analysis.analyzed = analyzed.insert scope.file ∧ analysis.asked = [scope.file] := by
  intro analysis
  have run : analysis = _ := Analysis.run_of_due included fresh none
  rw [run, issuesOfFile, errorOfFile]
  cases host.read scope.file with
  | error reason => exact ⟨rfl, rfl, rfl, rfl⟩
  | ok content =>
    simp only [Analysis.ofText_unlimited]
    exact ⟨trivial, trivial, trivial, trivial⟩

/-- **The analyses for some scopes go through the files that are due**, one after the other. -/
theorem goesThrough_due (respects : ∀ {left right : Path}, left.Same right →
      host.isExcluded left = host.isExcluded right) (analyzed : PathSet) (scopes : List Scope) :
    GoesThrough host strategy analyzed (due host.isExcluded analyzed scopes)
      (.ofAnalyses analyzed (analyses host strategy analyzed scopes)) := by
  -- the files that count as analyzed before a scope are those of the scopes behind it in the list
  induction scopes generalizing analyzed with
  | nil => exact ⟨rfl, rfl, fun path => (Bool.or_false _).symm, rfl⟩
  | cons scope rest ih =>
    rw [analyses, ofAnalyses_cons]
    by_cases skipped : host.isExcluded scope.file = true ∨ analyzed.contains scope.file = true
    · rw [due_cons_of_skipped respects skipped, Analysis.run_of_skipped skipped]
      exact ih analyzed
    · simp only [not_or, Bool.not_eq_true] at skipped
      obtain ⟨included, fresh⟩ := skipped
      obtain ⟨issues, errors, grown, -⟩ := run_of_due strategy scope included fresh
      obtain ⟨moreIssues, moreErrors, moreAnalyzed, moreSize⟩ := ih (analyzed.insert scope.file)
      rw [due_cons_of_due included fresh]
      refine ⟨?issues, ?errors, fun path => ?analyzed, ?size⟩
      case issues => rw [List.flatMap_cons, ← issues, ← moreIssues, grown]
      case errors =>
        rw [grown, moreErrors, errors]
        cases unread : errorOfFile host scope <;> simp [unread]
      case analyzed =>
        rw [grown, moreAnalyzed, PathSet.contains_insert, List.any_cons, Bool.or_comm (decide _),
          Bool.or_assoc]
      case size =>
        rw [grown, moreSize, PathSet.size_insert_of_fresh fresh, List.length_cons, Nat.add_right_comm,
          Nat.add_assoc]

/-- The files that are due are asked for their text, and count as analyzed whatever comes of that. -/
theorem asked_of_due (respects : ∀ {left right : Path}, left.Same right →
      host.isExcluded left = host.isExcluded right) (analyzed : PathSet) (scopes : List Scope) :
    (analyses host strategy analyzed scopes).flatMap (·.asked)
        = (due host.isExcluded analyzed scopes).map (·.file)
      ∧ (CheckResult.ofAnalyses analyzed (analyses host strategy analyzed scopes)).analyzed
        = (due host.isExcluded analyzed scopes).foldl (fun set scope => set.insert scope.file) analyzed := by
  induction scopes generalizing analyzed with
  | nil => exact ⟨rfl, rfl⟩
  | cons scope rest ih =>
    rw [analyses, ofAnalyses_cons]
    by_cases skipped : host.isExcluded scope.file = true ∨ analyzed.contains scope.file = true
    · rw [due_cons_of_skipped respects skipped, Analysis.run_of_skipped skipped]
      exact ih analyzed
    · simp only [not_or, Bool.not_eq_true] at skipped
      obtain ⟨included, fresh⟩ := skipped
      obtain ⟨-, -, grown, asks⟩ := run_of_due strategy scope included fresh
      obtain ⟨asked, left⟩ := ih (analyzed.insert scope.file)
      rw [due_cons_of_due included fresh, List.flatMap_cons, asks, grown, asked, left]
      exact ⟨rfl, rfl⟩

section Project

variable (project : Project) (disk : Disk) (strategy : Strategy) (analyzed : PathSet)

theorem goesThrough_check :
    GoesThrough (project.host disk) strategy analyzed (due project.isExcluded analyzed project.declarations)
      (project.check disk strategy analyzed) :=
  goesThrough_due (fun same => project.isExcluded_congr same) analyzed project.declarations

theorem asked_check :
    (analyses (project.host disk) strategy analyzed project.declarations).flatMap (·.asked)
      = (due project.isExcluded analyzed project.declarations).map (·.file) :=
  (asked_of_due (fun same => project.isExcluded_congr same) analyzed project.declarations).1

/-- Which files count as analyzed after a check does not depend on what can be read. -/
theorem analyzed_check :
    (project.check disk strategy analyzed).analyzed
      = (due project.isExcluded analyzed project.declarations).foldl
          (fun set scope => set.insert scope.file) analyzed :=
  (asked_of_due (fun same => project.isExcluded_congr same) analyzed project.declarations).2

end Project

theorem goesThrough_ofSources (root : Path) (config : Config) (sources : List Source) (disk : Disk)
    (strategy : Strategy) (analyzed : PathSet) :
    GoesThrough ((ofSources root config sources).host disk) strategy analyzed
      (due (ofSources root config sources).isExcluded analyzed (sources.flatMap scopesOfSource))
      ((ofSources root config sources).check disk strategy analyzed) := by
  rw [← declarations_ofSources root config sources]
  exact goesThrough_check (ofSources root config sources) disk strategy analyzed

/-- **A check goes through the files that are due**: those that declare a class-like and are neither
excluded nor analyzed already, each in the scope of its first class-like and in the order of these. None
of them is left out, and none comes twice. -/
theorem check_goesThrough_due (root : Path) (config : Config) (sources : List Source) (disk : Disk)
    (strategy : Strategy) (analyzed : PathSet) :
    let project := ofSources root config sources
    let scopes := sources.flatMap scopesOfSource
    let ready := due project.isExcluded analyzed scopes
    GoesThrough (project.host disk) strategy analyzed ready (project.check disk strategy analyzed)
      ∧ ready.Sublist scopes
      ∧ ready.Pairwise (fun first second => ¬ first.file.Same second.file)
      ∧ (∀ first ∈ ready, scopes.find? (fun scope => decide (scope.file.Same first.file)) = some first
          ∧ project.isExcluded first.file = false ∧ analyzed.contains first.file = false)
      ∧ ∀ scope ∈ scopes, project.isExcluded scope.file = false → analyzed.contains scope.file = false →
          ∃ first ∈ ready, first.file.Same scope.file := by
  intro project scopes ready
  have respects : ∀ {left right : Path}, left.Same right →
      project.isExcluded left = project.isExcluded right := fun same => project.isExcluded_congr same
  have ofFirsts : ready.Sublist (firstOfFiles scopes) := List.filter_sublist
  refine ⟨?through, ofFirsts.trans (firstOfFiles_sublist scopes),
    (pairwise_firstOfFiles scopes).sublist ofFirsts, fun first isReady => ?isFirst,
    fun scope there included fresh => exists_mem_due respects there included fresh⟩
  case through =>
    rw [check, declarations_ofSources]
    exact goesThrough_due respects analyzed scopes
  case isFirst =>
    obtain ⟨isFirst, included, fresh⟩ := mem_due_iff.mp isReady
    exact ⟨mem_firstOfFiles_iff.mp isFirst, included, fresh⟩

end Project

end AnnotationCheck
