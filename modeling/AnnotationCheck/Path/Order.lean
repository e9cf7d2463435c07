import AnnotationCheck.Path.Basic

/-!
The order of paths: component by component, the top of the file system before `.`, `.` before `..`,
`..` before an entry, entries by the bytes of their names, and a path before those below it.
-/

namespace AnnotationCheck

/-- Texts by their characters and names by their bytes, a beginning before its continuations. -/
def Text.compare {α : Type} [Ord α] : List α → List α → Ordering := List.compareLex Ord.compare

namespace Path

/-- The place of the kind of a component in the order. -/
def Component.rank : Component → Nat
  | root => 0
  | current => 1
  | parent => 2
  | entry _ => 3

/-- Components by their kind, entries by their names. -/
def Component.compare (left right : Component) : Ordering :=
  (Ord.compare left.rank right.rank).then (Text.compare left.bytes right.bytes)

/-- Lists of components, a beginning before its continuations. -/
def compareComponents : List Component → List Component → Ordering := List.compareLex Component.compare

/-- Paths by their components. -/
def compare (left right : Path) : Ordering := compareComponents left.components right.components

end Path

end AnnotationCheck
