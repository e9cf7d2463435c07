import AnnotationCheck.Union.Language

/-!
The type of the items that a member of a union stands for.

`IsElement` takes one `[]` after the other off the end of a text, until it ends otherwise.
`isElement_iff`: the reading of the reversed text does just that, so that every text has one element.
-/

namespace AnnotationCheck.Union

/-- The mark of a list of items. -/
def arrayMark : Text := ['[', ']']

/-- The second text is the first one without all the `[]` at its end. -/
inductive IsElement : Text → Text → Prop
  | plain {text : Text} : ¬ arrayMark <:+ text → IsElement text text
  | items {member element : Text} : IsElement member element → IsElement (member ++ arrayMark) element

theorem innermost_append (member : Text) :
    innermost (member ++ arrayMark) = ((innermost member).1, (innermost member).2 + 1) := by
  simp [innermost, arrayMark, peel]

theorem element_append (member : Text) : element (member ++ arrayMark) = element member := by
  rw [element, innermost_append, element]

/-- A reversed text that does not begin with `][` is left as it is. -/
theorem peel_of_not_isPrefix {text : Text} (plain : ¬ arrayMark.reverse <+: text) : peel text = (text, 0) := by
  unfold peel
  split
  · rename_i rest
    exact absurd ⟨rest, rfl⟩ plain
  · rfl

theorem innermost_of_not_isSuffix {text : Text} (plain : ¬ arrayMark <:+ text) : innermost text = (text, 0) := by
  have reversed : ¬ arrayMark.reverse <+: text.reverse := fun found => plain (List.reverse_prefix.mp found)
  simp [innermost, peel_of_not_isPrefix reversed]

theorem element_of_not_isSuffix {text : Text} (plain : ¬ arrayMark <:+ text) : element text = text := by
  rw [element, innermost_of_not_isSuffix plain]

theorem isElement_element (text : Text) : IsElement text (element text) := by
  -- by the number of characters: a text that ends in `[]` is a shorter one and that mark
  by_cases marked : arrayMark <:+ text
  · obtain ⟨member, rfl⟩ := marked
    rw [element_append]
    exact .items (isElement_element member)
  · rw [element_of_not_isSuffix marked]
    exact .plain marked
termination_by text.length
decreasing_by
  subst_vars
  simp [arrayMark]

/-- **Every text has one element**, and that is `Union.element`. -/
theorem isElement_iff {text inner : Text} : IsElement text inner ↔ inner = element text := by
  constructor
  · intro found
    induction found with
    | plain plain => exact (element_of_not_isSuffix plain).symm
    | items _ ih => rw [element_append, ih]
  · rintro rfl
    exact isElement_element text

/-- A name does not end in `[]`. -/
theorem IsName.not_isSuffix {name : Text} (isName : IsName name) : ¬ arrayMark <:+ name := by
  intro marked
  have isChar := isName.2 ']' (marked.subset (by decide))
  revert isChar
  decide

/-- The element of a member is a name. -/
theorem IsMember.isName_element {member : Text} (isMember : IsMember member) : IsName (element member) := by
  induction isMember with
  | @name text isName =>
    rw [element_of_not_isSuffix isName.not_isSuffix]
    exact isName
  | items _ ih =>
    rw [show ∀ text : Text, text ++ ['[', ']'] = text ++ arrayMark from fun _ => rfl, element_append]
    exact ih

end AnnotationCheck.Union
