import AnnotationCheck.Union.Basic

/-!
The language of union types, stated without reference to any scan.

`IsName`, `IsMember` and `IsUnion` are the three layers of the grammar. A text is a union exactly if
its `|`-fields are members (`isUnion_iff_fields`).
-/

namespace AnnotationCheck.Union

/-- A name: at least one character, each a word character or the separator. -/
def IsName (text : Text) : Prop := text ≠ [] ∧ ∀ c ∈ text, isNameChar c = true

/-- A member: a name with any number of `[]` behind it. -/
inductive IsMember : Text → Prop
  | name {text : Text} : IsName text → IsMember text
  | items {text : Text} : IsMember text → IsMember (text ++ ['[', ']'])

/-- A union: members with `|` between them. -/
inductive IsUnion : Text → Prop
  | single {member : Text} : IsMember member → IsUnion member
  | join {member rest : Text} : IsMember member → IsUnion rest → IsUnion (member ++ '|' :: rest)

theorem IsMember.ne_nil {text : Text} (member : IsMember text) : text ≠ [] := by
  cases member with
  | name isName => exact isName.1
  | items _ => simp

theorem IsUnion.ne_nil {text : Text} (union : IsUnion text) : text ≠ [] := by
  cases union with
  | single member => exact member.ne_nil
  | join _ _ => simp

theorem bar_not_mem_of_isMember {text : Text} (member : IsMember text) : '|' ∉ text := by
  induction member with
  | name isName =>
    intro bar
    have isChar := isName.2 _ bar
    revert isChar
    decide
  | items _ ih => simp [ih]

/-- Members with `|` between them are a union. -/
theorem isUnion_intercalate {first : Text} {rest : List Text}
    (members : ∀ member ∈ first :: rest, IsMember member) : IsUnion (['|'].intercalate (first :: rest)) := by
  induction rest generalizing first with
  | nil => simpa using IsUnion.single (members first (by simp))
  | cons next more ih =>
    rw [List.intercalate_cons_cons]
    simpa using IsUnion.join (members first (by simp)) (ih fun member there => members member (by simp_all))

/-- A text is a union exactly if its `|`-fields are members. -/
theorem isUnion_iff_fields {text : Text} :
    IsUnion text ↔ ∀ field ∈ Text.fields '|' text, IsMember field := by
  constructor
  · intro union
    induction union with
    | single member =>
      rw [Text.fields_eq_singleton (bar_not_mem_of_isMember member)]
      simpa using member
    | join member _ ih =>
      rw [Text.fields_append_cons (bar_not_mem_of_isMember member)]
      simpa using ⟨member, ih⟩
  · intro members
    cases cut : Text.fields '|' text with
    | nil => exact absurd cut (Text.fields_ne_nil '|' text)
    | cons first rest =>
      rw [← Text.intercalate_fields '|' text, cut]
      exact isUnion_intercalate (cut ▸ members)

end AnnotationCheck.Union
