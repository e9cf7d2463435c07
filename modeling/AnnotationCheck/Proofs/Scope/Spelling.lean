import AnnotationCheck.Proofs.Declarations.Unbroken
import AnnotationCheck.Proofs.Project.ByFile
import AnnotationCheck.Proofs.Scope.Unwrapping

/-!
Line breaks in names that are found missing.

* `Scope.IsUnbroken` — no line breaks in what a scope puts before a name, its namespace and its imports.
* **`Scope.IsUnbroken.of_mem_missing`** — then there are none in a name that a type misses, whatever the type is.
* `Project.exists_unbroken_of_issue` — nor in a name that a check finds missing.
-/

namespace AnnotationCheck

/-! ### Names in a scope -/

namespace Scope

/-- A name that a type misses is what a name in the type stands for, and it is not known. -/
theorem exists_written_of_mem_missing {scope : Scope} {known : Text → Bool} {type name : Text}
    (missed : name ∈ scope.missing known type) :
    ∃ written, Union.IsName written ∧ scope.resolve written = name ∧ known name = false := by
  obtain ⟨union, element, isElement, missing⟩ := mem_missing_iff_elements.mp missed
  obtain ⟨member, isField, rfl⟩ := List.mem_map.mp isElement
  obtain ⟨reference, classified, unresolved⟩ := Option.bind_eq_some_iff.mp missing
  obtain ⟨written, rfl, resolved, unknown⟩ := missing?_eq_some_iff.mp unresolved
  obtain ⟨-, -, -, rfl⟩ := Reference.ofName?_eq_classLike_iff.mp classified
  exact ⟨_, (Union.isUnion_iff_fields.mp union member isField).isName_element, resolved, unknown⟩

/-- There are no line breaks in what a scope puts before a name. -/
structure IsUnbroken (scope : Scope) : Prop where
  home : ∀ space ∈ scope.home, '\n' ∉ space
  imports : ∀ entry ∈ scope.imports.entries, '\n' ∉ entry.2

namespace IsUnbroken

variable {scope : Scope} (unbroken : scope.IsUnbroken)
include unbroken

/-- A name without line breaks stands for one. -/
theorem resolve {name : Text} (clear : '\n' ∉ name) : '\n' ∉ scope.resolve name := by
  -- by the rule that says what the name stands for
  generalize same : scope.resolve name = fullName
  have resolved : scope.Resolves name fullName := same ▸ resolves_resolve scope name
  have separator : '\n' ≠ Union.separator := by decide
  cases resolved with
  | full => exact clear
  | @imported _ first rest target _ cut offered =>
    obtain ⟨key, isEntry, _⟩ := offered
    have isRest : '\n' ∉ rest := fun there => clear (cut.1 ▸ List.mem_append_right first there)
    simp only [List.cons_append, List.mem_cons, List.mem_append, not_or]
    exact ⟨separator, unbroken.imports _ isEntry, isRest⟩
  | own =>
    unfold qualify
    cases home : scope.home with
    | none =>
      simp only [List.mem_cons, not_or]
      exact ⟨separator, clear⟩
    | some space =>
      simp only [List.cons_append, List.mem_cons, List.mem_append, not_or]
      exact ⟨separator, unbroken.home space home, separator, clear⟩

/-- **There are no line breaks in a name that a type misses**, whatever the type is. -/
theorem of_mem_missing {known : Text → Bool} {type name : Text} (missed : name ∈ scope.missing known type) :
    '\n' ∉ name := by
  obtain ⟨written, isName, rfl, _⟩ := exists_written_of_mem_missing missed
  refine unbroken.resolve fun there => ?_
  have isChar : Union.isNameChar '\n' = true := isName.2 '\n' there
  revert isChar
  decide

end IsUnbroken

end Scope

/-! ### Names in a project -/

namespace Project

variable [Php.Parser] {root : Path} {config : Config} {sources : List Source}

/-- Each scope of a project has the path of a source, and puts no line breaks before a name if there are none in the
names that the sources give. -/
theorem isUnbroken_of_mem_declarations (unbroken : ∀ source ∈ sources, Declarations.AreUnbroken source.content)
    {scope : Scope} (there : scope ∈ (ofSources root config sources).declarations) :
    (∃ source ∈ sources, scope.file = source.path) ∧ scope.IsUnbroken := by
  rw [declarations_ofSources] at there
  obtain ⟨source, isSource, there⟩ := List.mem_flatMap.mp there
  obtain ⟨declaration, _, rfl⟩ := List.mem_map.mp there
  refine ⟨⟨source, isSource, rfl⟩, fun _ isHome => (unbroken source isSource).home isHome, fun entry isEntry => ?_⟩
  exact (unbroken source isSource).target ((source.order.isPerm _).mem_iff.mp isEntry)

/-- **An issue of a check is about a source**, and about a name that is not known and has no line breaks. -/
theorem exists_unbroken_of_issue (unbroken : ∀ source ∈ sources, Declarations.AreUnbroken source.content)
    {disk : Disk} {strategy : Strategy} {analyzed : PathSet} {issue : Issue}
    (found : issue ∈ ((ofSources root config sources).check disk strategy analyzed).issues) :
    ∃ scope name, issue = Issue.undeclared scope name ∧ (∃ source ∈ sources, scope.file = source.path)
      ∧ (ofSources root config sources).hasClass name = false ∧ '\n' ∉ name := by
  obtain ⟨scope, there, line, type, name, missed, same⟩ := exists_missing_of_issue found
  obtain ⟨ofSource, clear⟩ := isUnbroken_of_mem_declarations unbroken there
  obtain ⟨_, _, _, unknown⟩ := Scope.exists_written_of_mem_missing missed
  exact ⟨{ scope with line := line }, name, same, ofSource, unknown, clear.of_mem_missing missed⟩

end Project

end AnnotationCheck
