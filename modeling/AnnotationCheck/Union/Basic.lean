import AnnotationCheck.Text.Basic

/-!
Union types, as an annotation writes them.

A *member* is a name of word characters and separators, followed by any number of `[]`; a *union* is
members joined by `|`. `Union.length` says how much of a text is a union, `Union.members` lists the
different members of a text that is one as a whole, and `Union.element` is a member without its `[]`.
-/

namespace AnnotationCheck.Union

/-- The character that separates the segments of a name. -/
def separator : Char := '\\'

/-- A character of a name: a word character or the separator. -/
def isNameChar (c : Char) : Bool := Text.isWord c || c == separator

/-- The characters that still belong to a union, behind a name (`inName`) or behind a `[]`. -/
def tailLength : Bool → Text → Nat
  | _, '[' :: ']' :: rest => tailLength false rest + 2
  | _, '|' :: c :: rest => if isNameChar c then tailLength true rest + 2 else 0
  | inName, c :: rest => if inName && isNameChar c then tailLength true rest + 1 else 0
  | _, [] => 0

/-- The length of the union at the beginning of a text; zero if there is none. -/
def length : Text → Nat
  | c :: rest => if isNameChar c then tailLength true rest + 1 else 0
  | [] => 0

/-- The members of a text that is a union as a whole, each at its first place; else none. -/
def members (text : Text) : List Text :=
  if text ≠ [] ∧ length text = text.length then Text.distinct (Text.fields '|' text) else []

/-! ### Array suffixes -/

/-- A reversed text without the `][` it begins with, and their number. -/
def peel : Text → Text × Nat
  | ']' :: '[' :: rest => ((peel rest).1, (peel rest).2 + 1)
  | text => (text, 0)

/-- A member without its trailing `[]`, and the number of them. -/
def innermost (member : Text) : Text × Nat :=
  ((peel member.reverse).1.reverse, (peel member.reverse).2)

/-- The type of the items that a member stands for: the member without its trailing `[]`. -/
def element (member : Text) : Text := (innermost member).1

/-- A member without its last `[]`, if it ends in one. -/
def item? (member : Text) : Option Text := Text.beforeSuffix? "[]".toList member

end AnnotationCheck.Union
