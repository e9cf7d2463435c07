import AnnotationCheck.Proofs.Text.Case
import AnnotationCheck.Proofs.Union.Members

/-!
Union types that differ in the case of ASCII letters.

* `isUnion_lower_iff`, `element_lower` — whether a text is a union, and what a member stands for, does not
  hang on the case of letters.
* **`exists_mem_members_of_lower_eq`** — unions that are the same but for case have the same elements but
  for case, however many members are written twice.
-/

namespace AnnotationCheck

namespace Union

open Text (lower)

theorem isName_lower_iff {text : Text} : IsName (lower text) ↔ IsName text := by
  simp only [IsName, lower, ne_eq, List.map_eq_nil_iff, List.forall_mem_map, Text.isNameChar_toLower]

theorem lower_append_mark (text : Text) : lower (text ++ arrayMark) = lower text ++ arrayMark :=
  Text.lower_append text arrayMark

/-- A text ends in `[]` if it does so in small letters. -/
theorem exists_append_mark_of_lower {text front : Text} (lowered : lower text = front ++ arrayMark) :
    ∃ member, text = member ++ arrayMark ∧ lower member = front := by
  obtain ⟨member, ending, rfl, isFront, isMark⟩ := List.map_eq_append_iff.mp lowered
  have unchanged : ending = arrayMark := (Text.lower_eq_iff (by decide)).mp isMark
  exact ⟨member, by rw [unchanged], isFront⟩

theorem isMember_lower_iff {text : Text} : IsMember (lower text) ↔ IsMember text := by
  constructor
  · intro member
    generalize lowered : lower text = small at member
    induction member generalizing text with
    | name isName =>
      rw [← lowered, isName_lower_iff] at isName
      exact .name isName
    | items _ ih =>
      obtain ⟨front, rfl, same⟩ := exists_append_mark_of_lower lowered
      exact .items (ih same)
  · intro member
    induction member with
    | name isName => exact .name (isName_lower_iff.mpr isName)
    | @items text _ ih =>
      have lowered : lower (text ++ ['[', ']']) = lower text ++ ['[', ']'] := lower_append_mark text
      rw [lowered]
      exact .items ih

/-- Whether a text is a union does not hang on the case of its letters. -/
theorem isUnion_lower_iff {text : Text} : IsUnion (lower text) ↔ IsUnion text := by
  simp only [isUnion_iff_fields, Text.fields_lower (by decide : '|'.isAlpha = false), List.forall_mem_map,
    isMember_lower_iff]

/-- What a member in small letters stands for is what the member stands for, in small letters. -/
theorem element_lower (member : Text) : element (lower member) = lower (element member) := by
  have small : IsElement (lower member) (lower (element member)) := by
    generalize isElement : element member = inner
    have stands : IsElement member inner := isElement ▸ isElement_element member
    clear isElement
    induction stands with
    | plain plain =>
      refine .plain fun marked => plain ?_
      obtain ⟨front, lowered⟩ := marked
      obtain ⟨member, rfl, _⟩ := exists_append_mark_of_lower lowered.symm
      exact List.suffix_append member arrayMark
    | items _ ih =>
      rw [lower_append_mark]
      exact .items ih
  exact (isElement_iff.mp small).symm

/-- **Unions that are the same but for case have the same elements but for case.** A member that is written
in two ways counts twice in the one and may count once in the other. -/
theorem exists_mem_members_of_lower_eq {left right : Text} (same : lower left = lower right) {member : Text}
    (there : member ∈ members left) :
    ∃ other ∈ members right, lower (element other) = lower (element member) := by
  obtain ⟨union, isField⟩ := mem_members_iff.mp there
  have plain : '|'.isAlpha = false := by decide
  have fields : (Text.fields '|' left).map lower = (Text.fields '|' right).map lower := by
    rw [← Text.fields_lower plain, ← Text.fields_lower plain, same]
  have isLowered : lower member ∈ (Text.fields '|' right).map lower :=
    fields ▸ List.mem_map_of_mem isField
  obtain ⟨other, isOther, lowered⟩ := List.mem_map.mp isLowered
  have otherUnion : IsUnion right := isUnion_lower_iff.mp (same ▸ isUnion_lower_iff.mpr union)
  refine ⟨other, mem_members_iff.mpr ⟨otherUnion, isOther⟩, ?_⟩
  rw [← element_lower, ← element_lower, lowered]

end Union

end AnnotationCheck
