import AnnotationCheck.Php.Statement
import AnnotationCheck.Proofs.Analysis.Offer
import AnnotationCheck.Proofs.Scope.Canonical
import Mathlib.Data.List.Basic

/-!
The names that an analysis hands out.

* `Scope.mentions`, `Scope.asked` — the class-likes that a type refers to, as written and by the full names
  for which the table of class-likes is asked; `missing_eq_filter_asked`: those it does not hold are missing.
* `Comment.types` — the types of the annotations of a comment; the names in the issues of a file come from
  these alone (`className_ofText`).
* **`names_canonical_iff`** — the full names that the table is asked for, and those in the issues, are
  canonical exactly if none of the names as written is doubled.
* `separators_counterexample` — a name that is written with two separators is reported with both.
-/

namespace AnnotationCheck

/-! ### Names for which the table is asked -/

/-- The name of a class-like, as written. -/
def Reference.written? : Reference → Option Text
  | .classLike name => some name
  | _ => none

namespace Scope

/-- The class-likes that a type refers to, as written. -/
def mentions (scope : Scope) (type : Text) : List Text :=
  (Reference.ofUnion scope.templates type).filterMap Reference.written?

/-- The full names of the class-likes that a type refers to. -/
def asked (scope : Scope) (type : Text) : List Text := (scope.mentions type).map scope.resolve

theorem missing?_eq (scope : Scope) (known : Text → Bool) (reference : Reference) :
    scope.missing? known reference
      = (reference.written?.map scope.resolve).filter fun name => !known name := by
  cases reference with
  | classLike name =>
    simp only [missing?, Reference.written?, Option.map_some, Option.filter_some]
    cases known (scope.resolve name) <;> rfl
  | native | ownClass | template => rfl

/-- What a type lacks is found by asking for the full names of its class-likes, and for no others. -/
theorem missing_eq_filter_asked (scope : Scope) (known : Text → Bool) (type : Text) :
    scope.missing known type = (scope.asked type).filter fun name => !known name := by
  have each : scope.missing? known
      = fun reference => (reference.written?.map scope.resolve).filter fun name => !known name :=
    funext (scope.missing?_eq known)
  rw [missing, each, asked, mentions, List.map_filterMap, List.filter_filterMap]

end Scope

/-! ### Names in the issues of a file -/

/-- The types of the annotations of a comment. -/
def Comment.types (comment : Comment) : List Text :=
  (VarTag.ofText comment.line comment.text).map VarTag.type

/-- The issues of a comment are those for the names that its types lack, on the line of the comment. -/
theorem Comment.issues_eq (known : Text → Bool) (scope : Scope) (comment : Comment) :
    comment.issues known scope
      = (comment.types.flatMap (scope.missing known)).map
          (Issue.undeclared { scope with line := comment.line }) := by
  rw [issues, types, List.flatMap_map, List.map_flatMap]
  -- the line at which an issue is reported makes no difference to what is missing
  rfl

theorem Comment.className_issues (known : Text → Bool) (scope : Scope) (comment : Comment) :
    (comment.issues known scope).map Issue.className = comment.types.flatMap (scope.missing known) := by
  rw [issues_eq, List.map_map]
  exact List.map_id _

namespace Analysis

section Parser

variable [Php.Parser] (host : Host) (strategy : Strategy) (scope : Scope) (analyzed : PathSet) (asked : List Path)
  (content : Text)

theorem className_ofText :
    (ofText host strategy scope none analyzed asked content).issues.map Issue.className
      = ((Comment.ofScript content strategy scope.line).flatMap Comment.types).flatMap
          (scope.missing host.has) := by
  rw [ofText_unlimited]
  simp only [List.map_flatMap, List.flatMap_assoc, Comment.className_issues]

/-- The names in the issues of a file are the full names of its class-likes that the table does not hold. -/
theorem className_ofText_eq_filter :
    (ofText host strategy scope none analyzed asked content).issues.map Issue.className
      = (((Comment.ofScript content strategy scope.line).flatMap Comment.types).flatMap scope.asked).filter
          fun name => !host.has name := by
  rw [className_ofText, List.filter_flatMap]
  exact List.flatMap_congr fun type _ => scope.missing_eq_filter_asked host.has type

/-- **The names that an analysis hands out are canonical** exactly if no class-like is written such that
two separators come to stand before it: those for which the table is asked if this holds of all
class-likes, and those in the issues if it holds of the class-likes that are not known. The issues hold
the names for which the table was asked in vain. -/
theorem names_canonical_iff (clean : scope.IsClean) :
    let types := (Comment.ofScript content strategy scope.line).flatMap Comment.types
    let issues := (ofText host strategy scope none analyzed asked content).issues
    issues.map Issue.className = (types.flatMap scope.asked).filter (fun name => !host.has name)
      ∧ ((∀ name ∈ types.flatMap scope.asked, canonical name = name)
          ↔ ∀ type ∈ types, ∀ name ∈ scope.mentions type, ¬ scope.IsDoubled name)
      ∧ ((∀ issue ∈ issues, canonical issue.className = issue.className)
          ↔ ∀ type ∈ types, ∀ name ∈ scope.mentions type, host.has (scope.resolve name) = false →
              ¬ scope.IsDoubled name) := by
  intro types issues
  have names : issues.map Issue.className = (types.flatMap scope.asked).filter fun name => !host.has name :=
    className_ofText_eq_filter host strategy scope analyzed asked content
  have each : ∀ name, canonical (scope.resolve name) = scope.resolve name ↔ ¬ scope.IsDoubled name :=
    fun name => Scope.isCanonical_resolve_iff clean
  have asks : ∀ holds : Text → Prop, (∀ name ∈ types.flatMap scope.asked, holds name)
      ↔ ∀ type ∈ types, ∀ name ∈ scope.mentions type, holds (scope.resolve name) := by
    intro holds
    simp only [List.forall_mem_flatMap, Scope.asked, List.forall_mem_map]
  refine ⟨names, ?asked, ?issued⟩
  case asked => simp only [asks, each]
  case issued =>
    have inIssues : (∀ issue ∈ issues, canonical issue.className = issue.className)
        ↔ ∀ name ∈ issues.map Issue.className, canonical name = name := by rw [List.forall_mem_map]
    rw [inIssues, names]
    simp only [List.mem_filter, Bool.not_eq_true', and_imp, asks fun name => host.has name = false → _, each]

end Parser

/-- Names with one separator before them or none are not doubled, be they imported or not; a built-in type
may have as many as it likes. -/
theorem names_canonical_of_single_separators :
    let host : Host := ⟨fun name => name == "\\Else\\There\\X".toList, fun _ => false, fun _ => .error []⟩
    let scope : Scope :=
      { home := some "App".toList, imports := ⟨[("Here".toList, "Else\\There".toList)]⟩ }
    let content := "<?php\n/** @var \\Foo|Bar[]|here\\X|here|\\\\int $x */".toList
    scope.IsClean
      ∧ (ofText host .tokens scope none {} [.ofString "a.php"] content).issues.map Issue.className
          = ["\\Foo".toList, "\\App\\Bar".toList, "\\Else\\There".toList]
      ∧ ∀ type ∈ (Comment.ofScript content .tokens scope.line).flatMap Comment.types,
          ∀ name ∈ scope.mentions type, ¬ scope.IsDoubled name := by
  intro host scope content
  have clean : scope.IsClean := ⟨by decide, by decide⟩
  obtain ⟨names, ofAsked, _⟩ :=
    names_canonical_iff host .tokens scope {} [.ofString "a.php"] content clean
  exact ⟨clean, names.trans (by decide +kernel), ofAsked.mp (by decide +kernel)⟩

/-- **A name that is written with two separators is reported with both of them**, where one is meant. -/
theorem separators_counterexample :
    let content := "<?php class A \x7b /** @var \\\\Foo $x */ \x7d".toList
    let host : Host := ⟨fun _ => false, fun _ => false, fun _ => .ok content⟩
    let scope : Scope := { file := .ofString "a.php", owner := "\\A".toList }
    let issues := (run host .tokens (some scope.file) scope none {}).issues
    scope.IsClean ∧ issues.map Issue.className = ["\\\\Foo".toList]
      ∧ canonical "\\\\Foo".toList = "\\Foo".toList
      ∧ ¬ ∀ issue ∈ issues, canonical issue.className = issue.className := by
  intro content host scope issues
  exact ⟨⟨by decide, by decide⟩, by decide +kernel, by decide, by decide +kernel⟩

end Analysis

end AnnotationCheck
