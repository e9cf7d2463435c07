import AnnotationCheck.Proofs.Analysis.Report

/-!
The types about which a scope raises no issue.

* `Union.elements` — what the members of a union type stand for, each without its trailing `[]`. A `[]`
  behind the whole type changes none of them (`elements_append_marks`).
* `Scope.Excuses` — an element of a type for which no class-like has to be declared, or whose class-like is.
* **`Scope.issues_eq_nil_iff`** — a union type gives rise to no issue exactly if all its elements are
  excused.
-/

namespace AnnotationCheck

/-! ### Elements of a type -/

namespace Union

/-- What the members of a union type stand for, without their trailing `[]`. -/
def elements (type : Text) : List Text := (Text.fields '|' type).map element

/-- So many `[]`. -/
def marks (count : Nat) : Text := (List.replicate count arrayMark).flatten

theorem elements_append_mark (type : Text) : elements (type ++ arrayMark) = elements type := by
  obtain ⟨front, last, cut, longer⟩ := Text.fields_append (by decide : '|' ∉ arrayMark) type
  rw [elements, elements, cut, longer, List.map_append, List.map_append, List.map_singleton,
    List.map_singleton, element_append]

/-- The elements of a list of items of a type are those of the type. -/
theorem elements_append_marks (type : Text) (count : Nat) :
    elements (type ++ marks count) = elements type := by
  induction count generalizing type with
  | zero => rw [marks, List.replicate_zero, List.flatten_nil, List.append_nil]
  | succ count ih =>
    rw [marks, List.replicate_succ, List.flatten_cons, ← List.append_assoc]
    exact (ih (type ++ arrayMark)).trans (elements_append_mark type)

/-- A text without a bar and without a `[]` at its end is its own element. -/
theorem elements_of_plain {text : Text} (noBar : '|' ∉ text) (noMark : ¬ arrayMark <:+ text) :
    elements text = [text] := by
  rw [elements, Text.fields_eq_singleton noBar, List.map_singleton, element_of_not_isSuffix noMark]

theorem elements_of_isName {name : Text} (isName : IsName name) : elements name = [name] :=
  elements_of_plain (bar_not_mem_of_isMember (.name isName)) isName.not_isSuffix

end Union

/-! ### Excused elements -/

namespace Scope

variable {scope : Scope} {known : Text → Bool}

/-- An element of a type about which there is nothing to report: it consists of separators alone, is a
built-in type or stands for the class at hand, is a template parameter, or names a known class-like. -/
def Excuses (scope : Scope) (known : Text → Bool) (element : Text) : Prop :=
  (∀ c ∈ element, c = Union.separator)
    ∨ (∃ word ∈ Reference.nativeNames ++ Reference.ownNames,
        Text.sameIgnoringCase word (Reference.bare element) = true)
    ∨ element ∈ scope.templates
    ∨ known (scope.resolve element) = true

theorem excuses_iff {element : Text} :
    scope.Excuses known element
      ↔ (Reference.ofName? scope.templates element).bind (scope.missing? known) = none := by
  rw [← not_iff_not, ← ne_eq, Option.ne_none_iff_exists']
  simp only [Option.bind_eq_some_iff, missing?_eq_some_iff, Excuses, not_or]
  constructor
  · rintro ⟨named, foreign, ordinary, unknown⟩
    refine ⟨scope.resolve element, .classLike element, ?_, element, rfl, rfl, by simpa using unknown⟩
    exact Reference.ofName?_eq_classLike_iff.mpr
      ⟨by simpa using named, by simpa using foreign, ordinary, rfl⟩
  · rintro ⟨_, _, classified, written, rfl, rfl, unknown⟩
    obtain ⟨named, foreign, ordinary, rfl⟩ := Reference.ofName?_eq_classLike_iff.mp classified
    exact ⟨by simpa using named, by simpa using foreign, ordinary, by simpa using unknown⟩

/-- **A union type gives rise to no issue exactly if all its elements are excused.** -/
theorem issues_eq_nil_iff {type : Text} (union : Union.IsUnion type) :
    scope.issues known type = [] ↔ ∀ element ∈ Union.elements type, scope.Excuses known element := by
  rw [issues, List.map_eq_nil_iff, missing, Reference.ofUnion, Union.members_of_isUnion union,
    List.filterMap_filterMap, List.filterMap_eq_nil_iff, Union.elements, List.forall_mem_map]
  simp only [Text.mem_distinct, excuses_iff]

end Scope

end AnnotationCheck
