import AnnotationCheck.Php.Statement
import AnnotationCheck.Proofs.Declarations.Homes

/-!
The first namespace of a script.

* `firstSpace` — the namespace that the first namespace statement of a script opens.
* **`home_eq_firstSpace_iff`** — the namespace of a file is that of the first statement with a name. It is
  `firstSpace` but for files that begin with a namespace without a name and go on with one that has a name.
-/

namespace AnnotationCheck.Declarations

section Parser

variable [Php.Parser]

/-- The namespace that the first namespace statement of a script opens, without the separators that its name begins
with: none where it has no name, and where there is no such statement. -/
def firstSpace (script : Text) : Option Text := (spacesIn script).head?.bind spaceName

/-- **The namespace of a file** is that of its first namespace statement with a name, without the separators it
begins with. So it is that of the first namespace statement, none for one without a name, except where the first
one has no name and a later one has. -/
theorem home_eq_firstSpace_iff (script : Text) :
    (ofScript script).home = (spacesIn script).findSome? spaceName
      ∧ ((ofScript script).home = firstSpace script
          ↔ (∀ first ∈ (spacesIn script).head?, spaceName first ≠ none)
            ∨ ∀ name ∈ spacesIn script, spaceName name = none) := by
  refine ⟨home_ofScript script, ?_⟩
  rw [home_ofScript, firstSpace]
  -- by what the first statement is
  cases spacesIn script with
  | nil => simp
  | cons first rest =>
    cases named : spaceName first with
    | some space => simp [named]
    | none =>
      -- the ones behind it decide
      rw [List.findSome?_cons_of_isNone (by rw [named]; rfl), List.forall_mem_cons]
      simp [named]

end Parser

/-- **A namespace without a name is passed over**: the file of a class outside all namespaces has that of a
class behind it. -/
theorem unnamed_space_counterexample :
    let script := "<?php\nnamespace \x7b class A \x7b\x7d \x7d\nnamespace One \x7b class B \x7b\x7d \x7d\n".toList
    spacesIn script = [none, some "One".toList] ∧ firstSpace script = none
      ∧ (ofScript script).home = some "One".toList := by decide +kernel

end AnnotationCheck.Declarations
