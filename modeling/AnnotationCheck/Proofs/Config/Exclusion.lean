import AnnotationCheck.Config.Basic
import AnnotationCheck.Proofs.Path.Relative

/-!
What a list of exclusions covers.

* `stepsFrom` — the steps of a file from the root of a project, read off the components alone.
* `FallsUnder` — a file begins, from the root on, with the steps of an entry. An entry without a step of its
  own, such as the empty path or `.`, has no file under it.
* **`excludes_iff`** — a file is excluded exactly if it falls under one of the entries, and one of several
  lists is one list (`excludes_append`).
-/

namespace AnnotationCheck.Config

/-- The steps of a file behind the root, or all of them where it lies elsewhere; a `.` before them does not
count. -/
def stepsFrom (root file : Path) : List Path.Component :=
  behindCurrent (if root.components <+: file.components then file.components.drop root.components.length
    else file.components)

/-- A file lies below an entry, or is it; the entry has to make a step. -/
def FallsUnder (root entry file : Path) : Prop :=
  behindCurrent entry.components ≠ [] ∧ behindCurrent entry.components <+: stepsFrom root file

instance (root entry file : Path) : Decidable (FallsUnder root entry file) :=
  inferInstanceAs (Decidable (_ ∧ _))

theorem FallsUnder.congr {left right : Path} (same : left.Same right) {root entry : Path} :
    FallsUnder root entry left ↔ FallsUnder root entry right := by
  have components : left.components = right.components := same
  unfold FallsUnder stepsFrom
  rw [components]

theorem covers_iff {root entry file : Path} :
    covers entry (file.relativeTo root) = true ↔ FallsUnder root entry file := by
  unfold covers FallsUnder stepsFrom
  rw [Path.components_relativeTo, Bool.and_eq_true, bne_iff_ne, List.isPrefixOf_iff_prefix]

/-- **A file is excluded** exactly if it falls under one of the entries. -/
theorem excludes_iff {config : Config} {root file : Path} :
    config.excludes (file.relativeTo root) = true ↔ ∃ entry ∈ config.excluded, FallsUnder root entry file := by
  simp only [excludes, List.any_eq_true, covers_iff]

theorem excludes_append (config : Config) (more : List Path) (root file : Path) :
    ({ config with excluded := config.excluded ++ more } : Config).excludes (file.relativeTo root)
      = (config.excludes (file.relativeTo root) || decide (∃ entry ∈ more, FallsUnder root entry file)) := by
  rw [Bool.eq_iff_iff, Bool.or_eq_true, decide_eq_true_eq, excludes_iff, excludes_iff]
  simp only [List.mem_append, or_and_right, exists_or]

end AnnotationCheck.Config
