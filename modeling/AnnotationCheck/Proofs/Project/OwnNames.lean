import AnnotationCheck.Proofs.Declarations.Homes
import AnnotationCheck.Proofs.Project.Imports
import AnnotationCheck.Proofs.Project.Symbols
import AnnotationCheck.Proofs.Scope.Excuses

/-!
Class-likes under their own names.

* `IsPlainName.of_lower_eq`, `IsPlainName.elements_eq` — a name without marks has none in any case, and it is its own
  element.
* `Scope.missing_eq_nil_of_excuses` — a type whose elements are excused misses nothing, be it a union or not.
* **`Project.missing_of_own_name`** — a class-like of a file with one namespace at most is known by its own name
  in all scopes of the file, unless the file imports another one under that name.
-/

namespace AnnotationCheck

open Declarations (HasOneHome IsPlainName importedIn placedIn typeMarks)

namespace Declarations.IsPlainName

variable {name : Text}

theorem isSegment (plain : IsPlainName name) : IsSegment name :=
  ⟨plain.1, fun there => plain.2 _ there (by decide)⟩

/-- No mark is a letter, so a name without marks has none in any case. -/
theorem of_lower_eq (plain : IsPlainName name) {word : Text} (same : Text.lower name = Text.lower word) :
    IsPlainName word := by
  have alike : ∀ c : Char, (!typeMarks.contains c.toLower) = !typeMarks.contains c := fun c => by
    simp only [typeMarks, List.contains_cons, List.contains_nil, Bool.or_false, beq_eq_decide]
    simp only [Text.toLower_eq_iff (by decide : '\\'.isAlpha = false),
      Text.toLower_eq_iff (by decide : '|'.isAlpha = false), Text.toLower_eq_iff (by decide : '['.isAlpha = false),
      Text.toLower_eq_iff (by decide : ']'.isAlpha = false)]
  have clear : ∀ c ∈ name, (!typeMarks.contains c) = true := fun c there => by simpa using plain.2 c there
  exact ⟨Text.ne_nil_of_lower_eq same plain.1, fun c there => by
    simpa using Text.forall_mem_of_lower_eq alike same clear c there⟩

theorem elements_eq (plain : IsPlainName name) : Union.elements name = [name] := by
  have noBar : '|' ∉ name := fun there => plain.2 _ there (by decide)
  have noMark : ¬ Union.arrayMark <:+ name := fun marked => plain.2 ']' (marked.subset (by decide)) (by decide)
  exact Union.elements_of_plain noBar noMark

end Declarations.IsPlainName

/-- A type whose elements are excused misses nothing, be it a union or not. -/
theorem Scope.missing_eq_nil_of_excuses {scope : Scope} {known : Text → Bool} {type : Text}
    (excused : ∀ element ∈ Union.elements type, scope.Excuses known element) : scope.missing known type = [] := by
  rw [missing, Reference.ofUnion, List.filterMap_filterMap, List.filterMap_eq_nil_iff]
  intro member there
  have isField : member ∈ Text.fields '|' type := (Union.mem_members_iff.mp there).2
  exact excuses_iff.mp (excused _ (List.mem_map_of_mem isField))

namespace Project

section Parser

variable [Php.Parser]

/-- A class-like of a source is known by the full name that its namespace gives to its own name, in any case. -/
theorem hasClass_of_mem_placedIn (project : Project) {sources : List Source} {source : Source}
    (there : source ∈ sources) {home : Option Text} {classLike : Php.ClassLike}
    (isPlaced : (home, classLike) ∈ placedIn source.content) (plain : IsPlainName classLike.name) {word : Text}
    (same : Text.lower classLike.name = Text.lower word) :
    (project.addSources sources).hasClass (Scope.qualify home word) = true := by
  have isCanonical : IsCanonical (Scope.qualify home word) := Scope.isCanonical_qualify_iff.mpr
    ⟨fun _ => (plain.of_lower_eq same).isBare, Declarations.isHome_of_mem_placedAll (by simp) _ _ isPlaced⟩
  rw [hasClass, Symbols.has_iff, mem_keys_addSources, classKey_of_isCanonical isCanonical]
  refine .inr ⟨source, there,
    Declarations.declarationAt source.content (Php.programOf source.content).trivia (home, classLike), ?_,
    (Scope.lower_qualify home same).symm⟩
  rw [Declarations.classes_ofScript]
  exact List.mem_map_of_mem isPlaced

/-- **A class-like is known by its own name in the scopes of its file**, in any case and with any number of `[]`
behind it. The file may be indexed in any project, before or after others, and its imports asked in any order; it has
no namespace, or one that all its class-likes lie in, and no import of it is used under that name. All that is asked
of the parser is that the name has none of the marks in it that types are put together with. -/
theorem missing_of_own_name (project : Project) {sources : List Source} {source : Source} (there : source ∈ sources)
    (oneHome : HasOneHome (Php.programOf source.content).statements) {home : Option Text} {classLike : Php.ClassLike}
    (isPlaced : (home, classLike) ∈ placedIn source.content) (plain : IsPlainName classLike.name)
    (unimported : ∀ item ∈ importedIn source.content, Text.sameIgnoringCase item.key classLike.name = false)
    {declaration : Declaration} (isDeclared : declaration ∈ source.declared.classes) {word : Text}
    (spelled : Text.sameIgnoringCase classLike.name word = true) (count : Nat) :
    let indexed := project.addSources sources
    let scope := scopeOf ⟨source.path, source.declared⟩ declaration
    scope ∈ indexed.declarations ∧ scope.missing indexed.hasClass (word ++ Union.marks count) = [] := by
  intro indexed scope
  have same : Text.lower classLike.name = Text.lower word := Imports.sameIgnoringCase_iff.mp spelled
  have plainWord : IsPlainName word := plain.of_lower_eq same
  have sameHome : home = scope.home := oneHome.fst_of_mem_placedIn isPlaced
  have resolved : scope.resolve word = Scope.qualify home word := by
    obtain ⟨relative, cut⟩ := Scope.isCut_of_isSegment plainWord.isSegment (.inl rfl)
    rw [List.append_nil] at relative cut
    rw [sameHome]
    refine Scope.resolve_of_not_offers relative cut (Source.not_offers_of_not_key fun item isItem => ?_)
    have apart := unimported item isItem
    rwa [Text.sameIgnoringCase, same] at apart
  refine ⟨scopeOf_mem_declarations project there isDeclared, ?_⟩
  refine Scope.missing_eq_nil_of_excuses fun element isElement => ?_
  rw [Union.elements_append_marks, plainWord.elements_eq, List.mem_singleton] at isElement
  rw [isElement]
  refine .inr (.inr (.inr ?_))
  rw [resolved]
  exact hasClass_of_mem_placedIn project there isPlaced plain same

end Parser

/-- A class of a namespace, named in small letters where an enumeration of the same file is at hand. -/
theorem missing_of_sibling_in_small_letters :
    let source : Source :=
      ⟨.ofString "a.php", "<?php namespace A; use B\\C; class User\x7b\x7d enum E\x7b\x7d".toList, .inserted⟩
    let sources := [source, ⟨.ofString "b.php", "<?php".toList, .inserted⟩]
    let project := (new (.ofString "") {}).addSources sources
    ∃ scope ∈ project.declarations,
      scope.owner = "\\A\\E".toList ∧ scope.missing project.hasClass "user[][]".toList = [] := by
  intro source sources project
  obtain ⟨oneHome, isPlaced, unimported, isDeclared⟩ : HasOneHome (Php.programOf source.content).statements
      ∧ (some "A".toList, ⟨"User".toList, 28⟩) ∈ placedIn source.content
      ∧ (∀ item ∈ importedIn source.content, Text.sameIgnoringCase item.key "User".toList = false)
      ∧ ⟨"\\A\\E".toList, 1, []⟩ ∈ source.declared.classes := by decide +kernel
  have known := missing_of_own_name (new (.ofString "") {}) (List.mem_cons_self : source ∈ sources) oneHome isPlaced
    (Declarations.isPlainName_of_mem_placedIn _ isPlaced) unimported isDeclared
    (by decide : Text.sameIgnoringCase "User".toList "user".toList = true) 2
  exact ⟨_, known.1, rfl, known.2⟩

end Project

end AnnotationCheck
