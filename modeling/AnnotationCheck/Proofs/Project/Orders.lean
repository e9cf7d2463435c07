import AnnotationCheck.Proofs.Analysis.AlikeScopes
import AnnotationCheck.Proofs.Project.Symbols

/-!
Projects of the same sources, whose imports are asked in other orders.

* `Source.Alike` — the same file, whose imports are asked in another order only if they are distinct.
* `Scope.Reordered`, `Analysis.run_of_reordered` — scopes that differ in the order of their imports; an analysis in one
  of them comes to the same as in the other, and hands back the scope that it was given.
* `ofAnalyses_of_reordered` — so do the analyses for the scopes of a project.
* **`check_of_alike`**, **`hasClass_of_alike`** — projects of alike sources come to the same checks, and know the same
  class-likes.
-/

namespace AnnotationCheck

/-- The same file with the same text. Its imports are asked in the same order, unless no two of them are used under
names that differ at most in case. -/
structure Source.Alike [Php.Parser] (source other : Source) : Prop where
  path : source.path = other.path
  content : source.content = other.content
  imports : (Declarations.ofScript source.content).imports.Distinct
    ∨ source.declared.imports = other.declared.imports

theorem Source.Alike.refl [Php.Parser] (source : Source) : source.Alike source := ⟨rfl, rfl, .inr rfl⟩

/-- Distinct imports may be asked in any two orders. -/
theorem Source.alike_of_distinct [Php.Parser] {path : Path} {content : Text}
    (distinct : (Declarations.ofScript content).imports.Distinct) (order other : Imports.Order) :
    Source.Alike ⟨path, content, order⟩ ⟨path, content, other⟩ := ⟨rfl, rfl, .inl distinct⟩

/-! ### Scopes -/

/-- Two scopes that differ in the order of their imports at most, which makes no difference to what a name stands
for. -/
structure Scope.Reordered (left right : Scope) : Prop where
  same : right = { left with imports := right.imports }
  imports : left.imports.Alike right.imports

namespace Scope.Reordered

variable {left right : Scope} (reordered : left.Reordered right)
include reordered

theorem line_eq : right.line = left.line := by rw [reordered.same]

theorem file_eq : right.file = left.file := by rw [reordered.same]

theorem alike : left.Alike right := by
  obtain ⟨same, imports⟩ := reordered
  rw [same]
  exact ⟨rfl, rfl, imports, fun _ => Iff.rfl⟩

theorem issues (known : Text → Bool) (comment : Comment) :
    comment.issues known right = comment.issues known left := by
  rw [Comment.issues_eq, Comment.issues_eq, reordered.alike.missing known, reordered.same]
  rfl

end Scope.Reordered

variable [Php.Parser]

/-- An analysis comes to the same in either scope, and hands back the one that it was given. -/
theorem Analysis.run_of_reordered {left right : Scope} (reordered : left.Reordered right) (host : Host)
    (strategy : Strategy) (file : Option Path) (room : Option Nat) (analyzed : PathSet) :
    run host strategy file right room analyzed
      = { run host strategy file left room analyzed with scope := right } := by
  cases course host analyzed file with
  | builtIn => rfl
  | skipped skips => rw [run_of_skipped skips, run_of_skipped skips]
  | unreadable included fresh failed =>
    rw [run_of_unreadable included fresh failed, run_of_unreadable included fresh failed]
  | readable included fresh read =>
    rw [run_of_readable included fresh read, run_of_readable included fresh read, ofText_eq, ofText_eq,
      reordered.line_eq]
    simp only [reordered.issues]
    split <;> rfl

namespace Project

theorem ofAnalyses_of_reordered {lefts rights : List Scope} (reordered : List.Forall₂ Scope.Reordered lefts rights)
    (host : Host) (strategy : Strategy) (analyzed : PathSet) :
    CheckResult.ofAnalyses analyzed (analyses host strategy analyzed rights)
      = CheckResult.ofAnalyses analyzed (analyses host strategy analyzed lefts) := by
  induction reordered generalizing analyzed with
  | nil => rfl
  | @cons left right lefts rights first _ ih =>
    rw [analyses, analyses, ofAnalyses_cons, ofAnalyses_cons, first.file_eq, Analysis.run_of_reordered first]
    simp only [ih]

/-! ### Projects -/

theorem reordered_scopesOfSource {source other : Source} (alike : source.Alike other) :
    List.Forall₂ Scope.Reordered (scopesOfSource source) (scopesOfSource other) := by
  obtain ⟨path, content, order⟩ := source
  obtain ⟨otherPath, otherContent, otherOrder⟩ := other
  obtain ⟨rfl, rfl, fixed⟩ := alike
  unfold scopesOfSource
  rw [List.forall₂_map_left_iff, List.forall₂_map_right_iff]
  refine List.forall₂_same.mpr fun declaration _ => ⟨rfl, ?_⟩
  exact Imports.alike_arranged fixed

variable {sources others : List Source} (alike : List.Forall₂ Source.Alike sources others)
include alike

/-- **Projects of alike sources know the same class-likes.** -/
theorem hasClass_of_alike (root : Path) (config : Config) (name : Text) :
    (ofSources root config others).hasClass name = (ofSources root config sources).hasClass name := by
  have contents : others.map Source.content = sources.map Source.content := by
    rw [eq_comm, ← List.forall₂_eq_eq_eq, List.forall₂_map_left_iff, List.forall₂_map_right_iff]
    exact alike.imp fun _ _ same => same.content
  have among : ∀ list : List Source,
      (∃ source ∈ list, ∃ declared ∈ (Declarations.ofScript source.content).classes,
          classKey name = Text.lower declared.name)
        ↔ ∃ content ∈ list.map Source.content, ∃ declared ∈ (Declarations.ofScript content).classes,
            classKey name = Text.lower declared.name := by
    simp
  rw [Bool.eq_iff_iff, hasClass, hasClass, Symbols.has_iff, Symbols.has_iff, mem_keys_ofSources, mem_keys_ofSources,
    among, among, contents]

/-- **Projects of alike sources come to the same checks.** -/
theorem check_of_alike (root : Path) (config : Config) (disk : Disk) (strategy : Strategy) (analyzed : PathSet) :
    (ofSources root config others).check disk strategy analyzed
      = (ofSources root config sources).check disk strategy analyzed := by
  have known := funext (hasClass_of_alike alike root config)
  have excluded : (ofSources root config others).isExcluded = (ofSources root config sources).isExcluded :=
    funext fun path => by rw [isExcluded_ofSources, isExcluded_ofSources]
  have sameHost : (ofSources root config others).host disk = (ofSources root config sources).host disk := by
    rw [host, host, known, excluded]
  have reordered : List.Forall₂ Scope.Reordered (sources.flatMap scopesOfSource) (others.flatMap scopesOfSource) :=
    List.rel_flatMap alike fun _ _ same => reordered_scopesOfSource same
  rw [check, check, sameHost, declarations_ofSources, declarations_ofSources, ofAnalyses_of_reordered reordered]

end Project

end AnnotationCheck
