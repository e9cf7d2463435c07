import AnnotationCheck.Path.Order

/-!
The order of paths is a linear one.

* `Text.compare`, `Path.Component.compare` and `Path.compareComponents` are lawful: each of them is total
  and transitive, and takes two things for equal only if they are.
* **`Path.compare_eq_iff`** — so two paths are equal in the order exactly if they name the same place.
-/

namespace AnnotationCheck

/-! ### Comparing images -/

/-- Things that are compared by their images are in order if the images are. -/
theorem transCmp_of_image {Thing Image : Type} (image : Thing → Image) {cmp : Image → Image → Ordering}
    (lawful : Std.TransCmp cmp) : Std.TransCmp fun left right => cmp (image left) (image right) where
  eq_swap := lawful.eq_swap
  isLE_trans := lawful.isLE_trans

/-! ### Names -/

namespace Text

instance : Std.TransCmp (Text.compare : Path.Name → Path.Name → Ordering) :=
  inferInstanceAs (Std.TransCmp (List.compareLex Ord.compare))

instance : Std.LawfulEqCmp (Text.compare : Path.Name → Path.Name → Ordering) :=
  inferInstanceAs (Std.LawfulEqCmp (List.compareLex Ord.compare))

end Text

/-! ### Components -/

namespace Path

namespace Component

/-- A component is told by its kind and its bytes. -/
theorem eq_of_rank_of_bytes {left right : Component} (rank : left.rank = right.rank)
    (bytes : left.bytes = right.bytes) : left = right := by
  cases left <;> cases right <;> simp_all [Component.rank, Component.bytes]

instance : Std.TransCmp compare := by
  have : Std.TransCmp fun left right : Component => Ord.compare left.rank right.rank :=
    transCmp_of_image rank (inferInstanceAs (Std.TransCmp (Ord.compare : Nat → Nat → Ordering)))
  have : Std.TransCmp fun left right : Component => Text.compare left.bytes right.bytes :=
    transCmp_of_image bytes inferInstance
  exact inferInstanceAs (Std.TransCmp (compareLex _ _))

instance : Std.LawfulEqCmp compare where
  eq_of_compare same := by
    obtain ⟨rank, bytes⟩ := Ordering.then_eq_eq.mp same
    exact eq_of_rank_of_bytes (Std.LawfulEqCmp.eq_of_compare rank) (Std.LawfulEqCmp.eq_of_compare bytes)

end Component

/-! ### Paths -/

instance : Std.TransCmp compareComponents := inferInstanceAs (Std.TransCmp (List.compareLex Component.compare))

instance : Std.LawfulEqCmp compareComponents :=
  inferInstanceAs (Std.LawfulEqCmp (List.compareLex Component.compare))

instance : Std.TransCmp compare :=
  transCmp_of_image components (inferInstanceAs (Std.TransCmp compareComponents))

/-- **Two paths are equal in the order exactly if they name the same place.** -/
theorem compare_eq_iff {left right : Path} : left.compare right = .eq ↔ left.Same right := by
  rw [compare, Std.LawfulEqCmp.compare_eq_iff_eq, Same]

end Path

end AnnotationCheck
