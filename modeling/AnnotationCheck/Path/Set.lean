import AnnotationCheck.Path.Basic

/-!
Sets of paths, where paths of the same components are one.
-/

namespace AnnotationCheck

theorem Path.Same.decide_congr {left right : Path} (same : left.Same right) (path : Path) :
    decide (path.Same left) = decide (path.Same right) := by
  have components : left.components = right.components := same
  exact decide_eq_decide.mpr (by rw [Path.Same, Path.Same, components])

/-- A set of paths, the latest one first. -/
structure PathSet where
  paths : List Path := []
  deriving DecidableEq, Repr

namespace PathSet

/-- Whether a path of the same components is in the set. -/
def contains (set : PathSet) (path : Path) : Bool := set.paths.any fun member => decide (member.Same path)

/-- The set with one more path, unless it is there already. -/
def insert (set : PathSet) (path : Path) : PathSet :=
  if set.contains path then set else ⟨path :: set.paths⟩

/-- The set without a path. -/
def erase (set : PathSet) (path : Path) : PathSet :=
  ⟨set.paths.filter fun member => !decide (member.Same path)⟩

/-- The number of different paths. -/
def size (set : PathSet) : Nat := set.paths.length

@[simp] theorem contains_empty (path : Path) : contains {} path = false := rfl

theorem contains_congr (set : PathSet) {left right : Path} (same : left.Same right) :
    set.contains left = set.contains right := by
  unfold contains
  congr 1
  funext member
  exact same.decide_congr member

theorem contains_insert (set : PathSet) (path other : Path) :
    (set.insert path).contains other = (decide (path.Same other) || set.contains other) := by
  unfold insert
  split
  · rename_i there
    by_cases same : path.Same other
    · have : set.contains other = true := by rw [← contains_congr set same, there]
      simp [same, this]
    · simp [same]
  · simp [contains]

theorem size_insert_of_fresh {set : PathSet} {path : Path} (fresh : set.contains path = false) :
    (set.insert path).size = set.size + 1 := by
  simp [insert, fresh, size]

theorem contains_erase (set : PathSet) (path other : Path) :
    (set.erase path).contains other = (!decide (path.Same other) && set.contains other) := by
  by_cases same : path.Same other
  · simp only [same, decide_true, Bool.not_true, Bool.false_and]
    simp only [contains, erase, List.any_filter, List.any_eq_false]
    intro member _
    by_cases kept : member.Same path
    · simp [kept]
    · have : ¬ member.Same other := fun found => kept (found.trans same.symm)
      simp [this]
  · simp only [same, decide_false, Bool.not_false, Bool.true_and]
    simp only [contains, erase, List.any_filter]
    congr 1
    funext member
    by_cases found : member.Same other
    · have : ¬ member.Same path := fun kept => same (kept.symm.trans found)
      simp [found, this]
    · simp [found]

end PathSet

end AnnotationCheck
