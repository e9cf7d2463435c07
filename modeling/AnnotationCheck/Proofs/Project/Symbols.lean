import AnnotationCheck.Php.Statement
import AnnotationCheck.Proofs.Declarations.Names
import AnnotationCheck.Proofs.Project.Check
import Mathlib.Data.List.Basic

/-!
The class-likes that a project knows.

* `mem_keys_ofSources` — the keys of its table: those of a new project, and one for each class-like that a
  source declares.
* `Gives` — the names of class-likes that a project is given.
* `mem_keys_iff_gives` — every key is that of a name that was given, and the other way around.
* **`hasClass_iff_gives`** — so a name is known exactly if one was given that differs from it in ASCII case
  and in the number of leading separators at most.
-/

namespace AnnotationCheck

open Reference (IsBare)

/-- For a canonical name, evening out the case is all that there is to do. -/
theorem classKey_of_isCanonical {name : Text} (isCanonical : IsCanonical name) :
    classKey name = Text.lower name :=
  congrArg Text.lower isCanonical

namespace Symbols

/-- A table to which a key was added for each of some items. -/
theorem mem_keys_foldl {Item : Type} {add : Symbols → Item → Symbols} {keyOf : Item → Text}
    (adds : ∀ symbols item, (add symbols item).keys = keyOf item :: symbols.keys) (items : List Item)
    (symbols : Symbols) {key : Text} :
    key ∈ (items.foldl add symbols).keys ↔ key ∈ symbols.keys ∨ ∃ item ∈ items, key = keyOf item := by
  induction items generalizing symbols with
  | nil => simp
  | cons item rest ih =>
    rw [List.foldl_cons, ih, adds, List.mem_cons, List.exists_mem_cons_iff, or_assoc, or_left_comm]

theorem has_iff {symbols : Symbols} {name : Text} : symbols.has name = true ↔ classKey name ∈ symbols.keys :=
  List.contains_iff_mem

end Symbols

theorem isCanonical_of_mem_builtinClasses {name : Text} (builtin : name ∈ builtinClasses) :
    IsCanonical name := by
  obtain ⟨bare, isBuiltin, rfl⟩ := List.mem_map.mp builtin
  have areBare : ∀ bare ∈ builtinNames, IsBare bare := by decide +kernel
  exact isCanonical_separator_iff.mpr (areBare bare isBuiltin)

namespace Project

/-! ### Keys -/

theorem mem_keys_new (root : Path) (config : Config) {key : Text} :
    key ∈ (new root config).symbols.keys
      ↔ (∃ name ∈ builtinClasses, key = Text.lower name) ∨ ∃ name ∈ config.knownClasses, key = classKey name := by
  have start : key ∈ (Symbols.ofFullNames builtinClasses).keys
      ↔ ∃ name ∈ builtinClasses, key = Text.lower name := by
    simp only [Symbols.ofFullNames, List.mem_map, eq_comm]
  rw [← start]
  exact Symbols.mem_keys_foldl (fun _ _ => rfl) config.knownClasses _

section Keys

variable [Php.Parser]

theorem mem_keys_addSource (project : Project) (source : Source) {key : Text} :
    key ∈ (project.addSource source.path source.content source.order).symbols.keys
      ↔ key ∈ project.symbols.keys ∨ ∃ declared ∈ source.declared.classes, key = Text.lower declared.name := by
  rcases project.addSource_cases source with added | ⟨passedBy, none⟩
  · rw [added]
    exact Symbols.mem_keys_foldl (fun _ _ => rfl) source.declared.classes project.symbols
  · rw [passedBy, none]
    simp

theorem mem_keys_addSources (project : Project) (sources : List Source) {key : Text} :
    key ∈ (project.addSources sources).symbols.keys
      ↔ key ∈ project.symbols.keys
        ∨ ∃ source ∈ sources, ∃ declared ∈ (Declarations.ofScript source.content).classes,
            key = Text.lower declared.name := by
  induction sources generalizing project with
  | nil => simp
  | cons source rest ih =>
    rw [addSources_cons, ih, mem_keys_addSource, List.exists_mem_cons_iff, or_assoc]
    rfl

/-- The keys of a project are those of a new one, and one for each class-like that a source declares. -/
theorem mem_keys_ofSources (root : Path) (config : Config) (sources : List Source) {key : Text} :
    key ∈ (ofSources root config sources).symbols.keys
      ↔ key ∈ (new root config).symbols.keys
        ∨ ∃ source ∈ sources, ∃ declared ∈ (Declarations.ofScript source.content).classes,
            key = Text.lower declared.name :=
  mem_keys_addSources (new root config) sources

end Keys

/-! ### Names -/

section Names

variable [Php.Parser]

/-- The names of class-likes that a project is given. -/
inductive Gives (config : Config) (sources : List Source) : Text → Prop
  /-- Every project knows the built-in ones. -/
  | builtin {name : Text} : name ∈ builtinClasses → Gives config sources name
  /-- The settings may list more of them, spelled in any way. -/
  | configured {name : Text} : name ∈ config.knownClasses → Gives config sources name
  /-- The sources declare the others. -/
  | declared {source : Source} {declaration : Declaration} : source ∈ sources →
      declaration ∈ (Declarations.ofScript source.content).classes → Gives config sources declaration.name

variable {config : Config} {sources : List Source}

/-- The class-likes of the sources are declared under names that no separator leads. -/
def ArePlain (sources : List Source) : Prop :=
  ∀ source ∈ sources, ∀ place ∈ Declarations.placedIn source.content, IsBare place.2.name

instance : Decidable (ArePlain sources) := inferInstanceAs (Decidable (∀ source ∈ sources, _))

/-- Every key is that of a name that was given, and every such name has its key in the table. -/
theorem mem_keys_iff_gives (plain : ArePlain sources) (root : Path) {key : Text} :
    key ∈ (ofSources root config sources).symbols.keys
      ↔ ∃ name, Gives config sources name ∧ key = classKey name := by
  have keyOfDeclared : ∀ source ∈ sources, ∀ declared ∈ (Declarations.ofScript source.content).classes,
      classKey declared.name = Text.lower declared.name := fun source there declared isDeclared =>
    classKey_of_isCanonical (Declarations.isCanonical_of_mem_classes (plain source there) declared isDeclared)
  rw [mem_keys_ofSources, mem_keys_new]
  constructor
  · rintro ((⟨name, builtin, rfl⟩ | ⟨name, configured, rfl⟩) | ⟨source, there, declared, isDeclared, rfl⟩)
    · exact ⟨name, .builtin builtin, (classKey_of_isCanonical (isCanonical_of_mem_builtinClasses builtin)).symm⟩
    · exact ⟨name, .configured configured, rfl⟩
    · exact ⟨declared.name, .declared there isDeclared, (keyOfDeclared source there declared isDeclared).symm⟩
  · rintro ⟨name, builtin | configured | ⟨there, isDeclared⟩, rfl⟩
    · exact .inl (.inl ⟨name, builtin, classKey_of_isCanonical (isCanonical_of_mem_builtinClasses builtin)⟩)
    · exact .inl (.inr ⟨name, configured, rfl⟩)
    · exact .inr ⟨_, there, _, isDeclared, keyOfDeclared _ there _ isDeclared⟩

/-- **A name is known exactly if one was given that is the same** but for ASCII case and for the separators
that the two begin with, where no class-like is declared under a name that begins with a separator. -/
theorem hasClass_iff_gives (root : Path) (config : Config) (sources : List Source)
    (plain : ArePlain sources) (query : Text) :
    (ofSources root config sources).hasClass query = true
      ↔ ∃ name, Gives config sources name ∧ Text.lower (canonical query) = Text.lower (canonical name) :=
  Symbols.has_iff.trans (mem_keys_iff_gives plain root)

end Names

/-- A class of a namespace, looked up in another case and behind three separators. -/
theorem hasClass_of_namespaced_class :
    let sources : List Source := [⟨.ofString "a.php", "<?php namespace App\\Model; class User {}".toList, .inserted⟩]
    let project := ofSources ⟨[]⟩ {} sources
    let query := "\\\\\\APP\\model\\USER".toList
    ArePlain sources ∧ project.hasClass query = true
      ∧ ∃ name, Gives {} sources name ∧ Text.lower (canonical query) = Text.lower (canonical name) := by
  intro sources project query
  have plain : ArePlain sources := by decide +kernel
  have known : project.hasClass query = true := by decide +kernel
  exact ⟨plain, known, (hasClass_iff_gives ⟨[]⟩ {} sources plain query).mp known⟩

end Project

end AnnotationCheck
