import AnnotationCheck.Project.Basic
import AnnotationCheck.Proofs.Analysis.Report
import AnnotationCheck.Proofs.Scope.Canonical
import AnnotationCheck.Proofs.Union.Case

/-!
Missing class-likes and the case of ASCII letters.

* `classKey_eq`, `Imports.lookup?_congr`, `Scope.lower_resolve` — keys, look-ups and full names depend on the
  case of a name at most by their own.
* `Scope.exists_lacks_of_lower_eq` — what is lacking for an element is lacking for one that is the same but
  for case.
* **`Project.lower_missing_congr`** — so unions that are the same but for case miss the same class-likes but
  for case.
-/

namespace AnnotationCheck

open Text (lower)

theorem beq_separator_toLower (c : Char) : (c.toLower == Union.separator) = (c == Union.separator) := by
  rw [Bool.eq_iff_iff, beq_iff_eq, beq_iff_eq]
  exact Text.toLower_eq_iff (by decide)

namespace Reference

theorem bare_lower (name : Text) : bare (lower name) = lower (bare name) :=
  Text.dropWhile_lower beq_separator_toLower name

theorem isBare_lower_iff {name : Text} : IsBare (lower name) ↔ IsBare name := by
  rw [← bare_eq_self_iff, ← bare_eq_self_iff, bare_lower]
  constructor
  · intro same
    have length : (bare name).length = name.length := by
      rw [← Text.length_lower, same, Text.length_lower]
    exact (List.dropWhile_suffix _).eq_of_length length
  · exact congrArg lower

end Reference

open Reference (IsBare)

/-- The key of a name is read off its small letters. -/
theorem classKey_eq (name : Text) : classKey name = Union.separator :: Reference.bare (lower name) := by
  rw [Reference.bare_lower]
  rfl

/-- Of distinct imports, a name stands for the same in either case. -/
theorem Imports.lookup?_congr {imports : Imports} (distinct : imports.Distinct) {left right : Text}
    (same : lower left = lower right) : imports.lookup? left = imports.lookup? right := by
  have offers : ∀ target, imports.Offers left target ↔ imports.Offers right target := by
    intro target
    simp only [Offers, sameIgnoringCase_iff, same]
  ext target
  rw [lookup?_eq_some_iff distinct, lookup?_eq_some_iff distinct, offers]

namespace Scope

/-! ### Full names -/

theorem splitFirst_lower (name : Text) :
    splitFirst (lower name) = (lower (splitFirst name).1, lower (splitFirst name).2) := by
  have alike : ∀ c : Char, (c.toLower != Union.separator) = (c != Union.separator) := fun c =>
    congrArg (!·) (beq_separator_toLower c)
  rw [splitFirst, Text.takeWhile_lower alike, Text.dropWhile_lower alike, splitFirst]

theorem lower_qualify (home : Option Text) {left right : Text} (same : lower left = lower right) :
    lower (qualify home left) = lower (qualify home right) := by
  have behind : ∀ front : Text, lower (front ++ left) = lower (front ++ right) := by
    intro front
    rw [Text.lower_append, Text.lower_append, same]
  cases home with
  | none => exact behind [Union.separator]
  | some space => simpa [qualify] using behind (Union.separator :: space ++ [Union.separator])

/-- Under distinct imports, names that are the same but for case stand for full names that are. -/
theorem lower_resolve {scope : Scope} (distinct : scope.imports.Distinct) {left right : Text}
    (same : lower left = lower right) : lower (scope.resolve left) = lower (scope.resolve right) := by
  have bareAlike : IsBare left ↔ IsBare right := by
    rw [← Reference.isBare_lower_iff, same, Reference.isBare_lower_iff]
  by_cases isBare : IsBare left
  · rw [resolve, resolve, if_neg isBare, if_neg (bareAlike.mp isBare)]
    have split : (lower (splitFirst left).1, lower (splitFirst left).2)
        = (lower (splitFirst right).1, lower (splitFirst right).2) := by
      rw [← splitFirst_lower, ← splitFirst_lower, same]
    obtain ⟨firsts, rests⟩ := Prod.mk.inj split
    rw [Imports.lookup?_congr distinct firsts]
    cases scope.imports.lookup? (splitFirst right).1 with
    | some target =>
      show lower (Union.separator :: target ++ _) = lower (Union.separator :: target ++ _)
      rw [Text.lower_append, Text.lower_append, rests]
    | none => exact lower_qualify scope.home same
  · obtain ⟨rest, rfl⟩ := List.head?_eq_some_iff.mp (Decidable.not_not.mp isBare)
    obtain ⟨other, rfl⟩ := List.head?_eq_some_iff.mp (Decidable.not_not.mp (isBare ∘ bareAlike.mpr))
    rw [resolve_separator, resolve_separator, same]

/-! ### Missing class-likes -/

variable {scope : Scope} {known : Text → Bool}

/-- What is missing of a type is what the scope lacks for the elements of its members. -/
theorem mem_missing_iff (distinct : scope.imports.Distinct) {type name : Text} :
    name ∈ scope.missing known type
      ↔ ∃ member ∈ Union.members type, scope.Lacks known (Union.element member) name := by
  rw [missing, Reference.ofUnion, List.filterMap_filterMap, List.mem_filterMap]
  simp only [lacks_iff distinct]

/-- **What is lacking for an element is lacking for one that is the same but for case**, unless that one is a
template parameter; then it is the same name but for case. -/
theorem exists_lacks_of_lower_eq (distinct : scope.imports.Distinct)
    (alike : ∀ {left right : Text}, lower left = lower right → known left = known right)
    {left right name : Text} (same : lower left = lower right) (ordinary : right ∉ scope.templates)
    (lacks : scope.Lacks known left name) : ∃ other, scope.Lacks known right other ∧ lower other = lower name := by
  have bare : lower (Reference.bare left) = lower (Reference.bare right) := by
    rw [← Reference.bare_lower, ← Reference.bare_lower, same]
  have resolved : lower (scope.resolve right) = lower name := by
    rw [(resolves_iff distinct).mp lacks.resolved]
    exact (lower_resolve distinct same).symm
  refine ⟨scope.resolve right, ⟨?named, ?foreign, ordinary, resolves_resolve scope right, ?unknown⟩, resolved⟩
  case named =>
    have some : Reference.bare left ≠ [] := by
      rw [ne_eq, Reference.bare_eq_nil_iff]
      simpa using lacks.named
    have some' : Reference.bare right ≠ [] := fun none => some (List.map_eq_nil_iff.mp (bare.trans (by rw [none]; rfl)))
    rw [ne_eq, Reference.bare_eq_nil_iff] at some'
    simpa using some'
  case foreign =>
    intro word isWord
    have foreign := lacks.foreign word isWord
    rwa [Text.sameIgnoringCase, bare] at foreign
  case unknown => rw [alike resolved, lacks.unknown]

/-- What is missing of a union is missing of one that is the same but for case and has no template parameter
among its elements. -/
theorem exists_mem_missing_of_lower_eq (distinct : scope.imports.Distinct)
    (alike : ∀ {left right : Text}, lower left = lower right → known left = known right)
    {left right name : Text} (same : lower left = lower right)
    (ordinary : ∀ member ∈ Union.members right, Union.element member ∉ scope.templates)
    (there : name ∈ scope.missing known left) : ∃ other ∈ scope.missing known right, lower other = lower name := by
  obtain ⟨member, isMember, lacks⟩ := (mem_missing_iff distinct).mp there
  obtain ⟨member', isMember', sameElement⟩ := Union.exists_mem_members_of_lower_eq same isMember
  obtain ⟨other, lacks', sameName⟩ :=
    exists_lacks_of_lower_eq distinct alike sameElement.symm (ordinary member' isMember') lacks
  exact ⟨other, (mem_missing_iff distinct).mpr ⟨member', isMember', lacks'⟩, sameName⟩

end Scope

/-- A project knows a name in either case. -/
theorem Project.hasClass_congr (project : Project) {left right : Text} (same : lower left = lower right) :
    project.hasClass left = project.hasClass right := by
  rw [hasClass, hasClass, Symbols.has, Symbols.has, classKey_eq, classKey_eq, same]

/-- **Unions that are the same but for case miss the same class-likes but for case**, where no two imports
have names that differ at most in case and no element of a member is a template parameter in any case. In
particular one of them misses none if the other misses none. -/
theorem Project.lower_missing_congr (project : Project) (scope : Scope) (distinct : scope.imports.Distinct)
    {left right : Text} (same : Text.sameIgnoringCase left right = true)
    (ordinary : ∀ member ∈ Union.members left, ∀ template ∈ scope.templates,
      Text.sameIgnoringCase (Union.element member) template = false) :
    (∀ name, name ∈ (scope.missing project.hasClass left).map lower
        ↔ name ∈ (scope.missing project.hasClass right).map lower)
      ∧ (scope.missing project.hasClass left = [] ↔ scope.missing project.hasClass right = []) := by
  rw [Imports.sameIgnoringCase_iff] at same
  have noTemplate : ∀ type, lower type = lower left → ∀ member ∈ Union.members type,
      Union.element member ∉ scope.templates := by
    intro type sameType member isMember isTemplate
    obtain ⟨other, isOther, sameElement⟩ := Union.exists_mem_members_of_lower_eq sameType isMember
    have apart := ordinary other isOther _ isTemplate
    rw [Text.sameIgnoringCase, sameElement, beq_self_eq_true] at apart
    cases apart
  have forth : ∀ name ∈ scope.missing project.hasClass left,
      ∃ other ∈ scope.missing project.hasClass right, lower other = lower name := fun _ =>
    Scope.exists_mem_missing_of_lower_eq distinct project.hasClass_congr same (noTemplate right same.symm)
  have back : ∀ name ∈ scope.missing project.hasClass right,
      ∃ other ∈ scope.missing project.hasClass left, lower other = lower name := fun _ =>
    Scope.exists_mem_missing_of_lower_eq distinct project.hasClass_congr same.symm (noTemplate left rfl)
  refine ⟨fun name => ?names, ?none⟩
  case names =>
    rw [List.mem_map, List.mem_map]
    constructor
    · rintro ⟨found, there, rfl⟩
      exact forth found there
    · rintro ⟨found, there, rfl⟩
      exact back found there
  case none =>
    simp only [List.eq_nil_iff_forall_not_mem]
    constructor
    · intro none name there
      obtain ⟨other, isOther, _⟩ := back name there
      exact none other isOther
    · intro none name there
      obtain ⟨other, isOther, _⟩ := forth name there
      exact none other isOther

/-- A member in two spellings is missed twice, and once where its spellings are the same. -/
theorem Project.lower_missing_of_two_spellings :
    let project : Project := { root := ⟨[]⟩, config := {}, symbols := .ofNames ["App\\User".toList] }
    let scope : Scope :=
      { home := some "App".toList, imports := ⟨[("Here".toList, "Else\\There".toList)]⟩,
        templates := ["T".toList] }
    let left := "Foo|FOO|here\\X[]|USER|Int".toList
    let right := "foo|foo|HERE\\x[]|user|INT".toList
    scope.imports.Distinct ∧ Text.sameIgnoringCase left right = true
      ∧ scope.missing project.hasClass left
          = ["\\App\\Foo", "\\App\\FOO", "\\Else\\There\\X"].map String.toList
      ∧ scope.missing project.hasClass right
          = ["\\App\\foo", "\\Else\\There\\x"].map String.toList
      ∧ ∀ name, name ∈ (scope.missing project.hasClass left).map lower
          ↔ name ∈ (scope.missing project.hasClass right).map lower := by
  intro project scope left right
  have distinct : scope.imports.Distinct := by decide
  have same : Text.sameIgnoringCase left right = true := by decide
  obtain ⟨names, _⟩ := project.lower_missing_congr scope distinct same (by decide +kernel)
  exact ⟨distinct, same, by decide +kernel, by decide +kernel, names⟩

end AnnotationCheck
