import AnnotationCheck.Proofs.Declarations.Homes
import AnnotationCheck.Proofs.Declarations.Imports
import AnnotationCheck.Proofs.Text.Trim

/-!
Line breaks in the names of a script.

* `AreUnbroken` — there are none in the names that a script gives to its namespaces and imports.
* `AreUnbroken.home`, `AreUnbroken.target` — nor are there then in the namespace of the file, or in the class-likes
  that its imports stand for.
-/

namespace AnnotationCheck.Declarations

/-- The names that a script gives to its namespaces and imports have no line breaks. -/
structure AreUnbroken [Php.Parser] (script : Text) : Prop where
  spaces : ∀ name, some name ∈ spacesIn script → '\n' ∉ name
  bases : ∀ entry ∈ importedIn script, ∀ base ∈ entry.base, '\n' ∉ base
  imports : ∀ entry ∈ importedIn script, '\n' ∉ entry.item.name

theorem newline_not_mem_bare {name : Text} (unbroken : '\n' ∉ name) : '\n' ∉ Reference.bare name := fun there =>
  unbroken ((List.dropWhile_sublist _).subset there)

namespace AreUnbroken

variable [Php.Parser] {script : Text} (unbroken : AreUnbroken script)
include unbroken

theorem home {space : Text} (isHome : space ∈ (ofScript script).home) : '\n' ∉ space := by
  rw [home_ofScript] at isHome
  obtain ⟨name, there, read⟩ := List.exists_of_findSome?_eq_some isHome
  obtain ⟨isName, _⟩ := Option.filter_eq_some_iff.mp read
  obtain ⟨written, rfl, rfl⟩ := Option.map_eq_some_iff.mp isName
  exact newline_not_mem_bare (unbroken.spaces written there)

theorem target {entry : Text × Text} (there : entry ∈ (ofScript script).imports.entries) : '\n' ∉ entry.2 := by
  obtain ⟨item, isItem, rfl⟩ := mem_entries_ofScript there
  have name : '\n' ∉ Reference.bare item.item.name := newline_not_mem_bare (unbroken.imports item isItem)
  show '\n' ∉ importTarget item.base item.item.name
  unfold importTarget
  cases given : item.base with
  | none => exact name
  | some base =>
    have trimmed : '\n' ∉ trimSeparators base := fun inside =>
      unbroken.bases item isItem base given ((Text.trim_sublist _ base).subset inside)
    simp only [List.mem_append, List.mem_cons, not_or]
    exact ⟨trimmed, by decide, name⟩

end AreUnbroken

end AnnotationCheck.Declarations
