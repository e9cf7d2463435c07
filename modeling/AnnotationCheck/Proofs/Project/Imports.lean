import AnnotationCheck.Proofs.Declarations.Imports
import AnnotationCheck.Proofs.Declarations.Spelled
import AnnotationCheck.Proofs.Project.Check
import AnnotationCheck.Proofs.Scope.Case

/-!
What the imports of a file mean for the names in it.

* `Scope.resolve_of_key`, `Scope.resolve_of_not_key` — the names that begin with the key of an import, and those
  that begin with none.
* **`Project.resolve_imported`** — in the scopes that a project gives to the class-likes of a file, the names that
  begin with the key of an import stand for what it spells, in any case; all other names are read as if there
  were no imports.
-/

namespace AnnotationCheck

open Declarations (IsSegment KeysDiffer importedIn)

/-- A segment is one in any case. -/
theorem Declarations.isSegment_of_lower_eq {left right : Text} (same : Text.lower left = Text.lower right)
    (isSegment : IsSegment left) : IsSegment right := by
  have alike : ∀ c : Char, (c.toLower != Union.separator) = (c != Union.separator) := fun c =>
    congrArg (!·) (beq_separator_toLower c)
  have clear : ∀ c ∈ left, (c != Union.separator) = true := fun c there =>
    bne_iff_ne.mpr (ne_of_mem_of_not_mem there isSegment.2)
  refine ⟨Text.ne_nil_of_lower_eq same isSegment.1, fun there => ?_⟩
  simpa using Text.forall_mem_of_lower_eq alike same clear _ there

/-- A segment is the first one of a name, if it is the whole of it or a separator follows. -/
theorem Scope.isCut_of_isSegment {word rest : Text} (isSegment : IsSegment word)
    (behind : rest = [] ∨ ∃ more, rest = Union.separator :: more) :
    (word ++ rest).head? ≠ some Union.separator ∧ IsCut (word ++ rest) word rest := by
  refine ⟨fun led => isSegment.2 ?_, rfl, isSegment.2, behind⟩
  obtain ⟨c, more, rfl⟩ := List.exists_cons_of_ne_nil isSegment.1
  exact List.mem_cons.mpr (.inl (Option.some.inj led).symm)

section Parser

variable [Php.Parser]

/-! ### Names of a source -/

namespace Source

variable {source : Source} {item : Declarations.Import} {word : Text}

/-- An import of a source is offered under its key, in any case. -/
theorem offers_of_key (differ : KeysDiffer source.content) (there : item ∈ importedIn source.content)
    (written : item.IsWritten) (fits : Text.sameIgnoringCase item.key word = true) :
    source.declared.imports.Offers word item.fullName := by
  refine Imports.offers_arranged_iff.mpr ⟨item.key, ?_, fits⟩
  rw [Declarations.entries_ofScript differ, ← written.importTarget_eq]
  exact List.mem_map_of_mem there

/-- Nothing is offered under a name that is the key of no import. -/
theorem not_offers_of_not_key (apart : ∀ item ∈ importedIn source.content, Text.sameIgnoringCase item.key word = false)
    (target : Text) : ¬ source.declared.imports.Offers word target := by
  rw [Source.declared, Declarations.arranged, Imports.offers_arranged_iff]
  rintro ⟨shortName, isEntry, fits⟩
  obtain ⟨item, isItem, same⟩ := Declarations.mem_entries_ofScript isEntry
  obtain ⟨rfl, -⟩ := Prod.mk.inj same
  rw [apart item isItem] at fits
  cases fits

end Source

namespace Scope

variable {scope : Scope} {source : Source}

/-- A name that begins with the key of an import, in any case, stands for what the import spells. -/
theorem resolve_of_key (imports : scope.imports = source.declared.imports) (differ : KeysDiffer source.content)
    {item : Declarations.Import} (there : item ∈ importedIn source.content) (written : item.IsWritten)
    {word rest : Text} (fits : Text.sameIgnoringCase item.key word = true)
    (behind : rest = [] ∨ ∃ more, rest = Union.separator :: more) :
    scope.resolve (word ++ rest) = Union.separator :: item.fullName ++ rest := by
  have isSegment : IsSegment word :=
    Declarations.isSegment_of_lower_eq (Imports.sameIgnoringCase_iff.mp fits) written.isSegment_key
  obtain ⟨relative, cut⟩ := isCut_of_isSegment isSegment behind
  have offered : scope.imports.Offers word item.fullName := by
    rw [imports]
    exact Source.offers_of_key differ there written fits
  have distinct : scope.imports.Distinct := by
    rw [imports]
    exact (Declarations.distinct_ofScript differ).arranged source.order
  exact resolve_of_offers distinct relative cut offered

/-- A name that begins with the key of no import is read as if there were none. -/
theorem resolve_of_not_key (imports : scope.imports = source.declared.imports) {name : Text}
    (apart : ∀ item ∈ importedIn source.content, Text.sameIgnoringCase item.key (splitFirst name).1 = false) :
    scope.resolve name = { scope with imports := .empty }.resolve name := by
  have unfit : scope.imports.lookup? (splitFirst name).1 = none := by
    rw [Imports.lookup?_eq_none_iff, imports]
    exact Source.not_offers_of_not_key apart
  rw [resolve, resolve, unfit]
  rfl

end Scope

namespace Project

/-- The scopes of a source's class-likes are among those of a project that it was added to. -/
theorem scopeOf_mem_declarations (project : Project) {sources : List Source} {source : Source}
    (there : source ∈ sources) {declaration : Declaration} (isDeclared : declaration ∈ source.declared.classes) :
    scopeOf ⟨source.path, source.declared⟩ declaration ∈ (project.addSources sources).declarations := by
  rw [declarations_addSources, List.mem_append]
  exact .inr (List.mem_flatMap.mpr ⟨source, there, List.mem_map_of_mem isDeclared⟩)

/-- **In the scopes that a project gives to the class-likes of a file, names are read by the imports that the
file spells**, where their keys differ by more than the case of letters, and in whichever order these are asked. A
name that begins with a key, in any case, stands for the full name of that import with the rest of the name behind
it; all that is asked of the parser is that the names of that import do not end in a separator. A name that begins
with no key is read as if there were no imports, whatever functions and constants are imported. -/
theorem resolve_imported (root : Path) (config : Config) {sources : List Source} {source : Source}
    (there : source ∈ sources) (differ : KeysDiffer source.content) {declaration : Declaration}
    (isDeclared : declaration ∈ source.declared.classes) :
    let scope := scopeOf ⟨source.path, source.declared⟩ declaration
    scope ∈ (ofSources root config sources).declarations
      ∧ (∀ item ∈ importedIn source.content, item.IsWritten →
          ∀ word, Text.sameIgnoringCase item.key word = true →
            scope.resolve word = Union.separator :: item.fullName
              ∧ ∀ rest, scope.resolve (word ++ Union.separator :: rest)
                  = Union.separator :: item.fullName ++ Union.separator :: rest)
      ∧ ∀ name,
          (∀ item ∈ importedIn source.content, Text.sameIgnoringCase item.key (Scope.splitFirst name).1 = false) →
            scope.resolve name = { scope with imports := .empty }.resolve name := by
  intro scope
  refine ⟨scopeOf_mem_declarations (new root config) there isDeclared,
    fun item isItem written word fits => ⟨?alone, ?longer⟩, fun name => Scope.resolve_of_not_key rfl⟩
  case alone =>
    have resolved : scope.resolve (word ++ []) = _ := Scope.resolve_of_key rfl differ isItem written fits (.inl rfl)
    simpa using resolved
  case longer => exact fun rest => Scope.resolve_of_key rfl differ isItem written fits (.inr ⟨rest, rfl⟩)

end Project

end Parser

/-- A file with all kinds of imports, whose keys are written in other cases and which are asked in reverse. -/
theorem Project.resolve_imported_of_mixed_script :
    let script :=
      ("<?php namespace App; use A, \\C\\D as E; use function F; "
        ++ "use \\H\\I\\\x7bconst L, M\\N\x7d; class P\x7b\x7d").toList
    let imports : List Declarations.Import :=
      [⟨none, "A".toList, none⟩, ⟨none, "\\C\\D".toList, some "E".toList⟩, ⟨some "\\H\\I".toList, "M\\N".toList, none⟩]
    let source : Source := ⟨.ofString "a.php", script, .reversed⟩
    importedIn script = imports ∧ KeysDiffer script
      ∧ imports.map (fun item => (item.key, item.fullName))
          = [("A", "A"), ("E", "C\\D"), ("N", "H\\I\\M\\N")].map (Prod.map String.toList String.toList)
      ∧ ∃ scope ∈ (ofSources (.ofString "") {} [source]).declarations,
          scope.resolve "e".toList = "\\C\\D".toList ∧ scope.resolve "n\\Q".toList = "\\H\\I\\M\\N\\Q".toList
            ∧ scope.resolve "L".toList = "\\App\\L".toList := by
  intro script imports source
  obtain ⟨imported, isDeclared, home⟩ : importedIn script = imports
      ∧ ⟨"\\App\\P".toList, 1, []⟩ ∈ source.declared.classes
      ∧ source.declared.home = some "App".toList := by decide +kernel
  have differ : KeysDiffer script := by
    rw [KeysDiffer, imported]
    decide
  obtain ⟨isScope, byKey, byNone⟩ :=
    resolve_imported (.ofString "") {} (List.mem_singleton_self source) differ isDeclared
  have written : ∀ item ∈ importedIn script, item.IsWritten := Declarations.isWritten_of_mem_importedIn
  rw [imported] at written byKey byNone
  have renamed := byKey ⟨none, "\\C\\D".toList, some "E".toList⟩ (by decide) (written _ (by decide)) "e".toList
    (by decide)
  have grouped := byKey ⟨some "\\H\\I".toList, "M\\N".toList, none⟩ (by decide) (written _ (by decide)) "n".toList
    (by decide)
  have own : ∀ declared : Declarations, declared.home = some "App".toList →
      { scopeOf ⟨source.path, declared⟩ ⟨"\\App\\P".toList, 1, []⟩ with imports := .empty }.resolve
        "L".toList = "\\App\\L".toList := by
    rintro ⟨home, _, _⟩ rfl
    rfl
  refine ⟨imported, differ, by decide, _, isScope, renamed.1, grouped.2 "Q".toList, ?_⟩
  rw [byNone "L".toList (by decide)]
  exact own _ home

end AnnotationCheck
