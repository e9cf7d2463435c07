import AnnotationCheck.Project.Basic
import AnnotationCheck.Proofs.Config.Exclusion
import AnnotationCheck.Proofs.Path.Join

/-!
Which files below the root of a project are excluded.

* `Config.steps` — the steps of a path, without a `.` before them; of a relative path these are read off
  its pieces (`steps_of_relative`), so that no other `.` and no further slash counts either.
* `stepsFrom_join` — from the root on, a file has the steps of the path that was joined to the root.
* **`isExcluded_join_iff`** — a path below the root is excluded exactly if it begins with the steps of an
  entry that makes one; `isExcluded_join_congr`, `isExcluded_join_deeper`, `isExcluded_join_of_names`: other
  spellings, what lies deeper, and names that go on.
* **`isExcluded_below_root`** — so the spelling of the root, of the path and of the entries makes no
  difference, all below an excluded directory is excluded, and a name is never taken for another one that it
  begins with.
-/

namespace AnnotationCheck

namespace Config

/-- The steps of a path; a `.` before them does not count. -/
def steps (path : Path) : List Path.Component := behindCurrent path.components

theorem behindCurrent_filterMap_step? (pieces : List Path.Name) :
    behindCurrent (pieces.filterMap Path.step?) = pieces.filterMap Path.step? := by
  cases made : pieces.filterMap Path.step? with
  | nil => rfl
  | cons first rest =>
    have noCurrent : first ≠ .current :=
      (Path.ne_start_of_mem_filterMap (made ▸ List.mem_cons_self : first ∈ pieces.filterMap Path.step?)).2
    cases first with
    | current => exact absurd rfl noCurrent
    | root | parent | entry => rfl

/-- The steps of a relative path are those of its pieces, of which empty ones and `.` make none. -/
theorem steps_of_relative {path : Path} (relative : path.isAbsolute = false) :
    steps path = (Path.pieces path.bytes).filterMap Path.step? := by
  have notRoot : Path.startOf (Path.pieces path.bytes) ≠ [.root] := by
    rw [← Path.start_eq, ne_eq, ← Path.isAbsolute_iff_start, relative]
    exact Bool.false_ne_true
  rw [steps, Path.components_eq]
  rcases Path.startOf_cases (Path.pieces path.bytes) with start | start | start
  · rw [start, List.nil_append, behindCurrent_filterMap_step?]
  · exact absurd start notRoot
  · rw [start]
    rfl

/-- **From the root on, a file has the steps of the path that was joined to the root**, however the root is
spelled there. -/
theorem stepsFrom_join {root base inner : Path} (atRoot : base.Same root) (relative : inner.isAbsolute = false) :
    stepsFrom root (base.join inner) = steps inner := by
  have sameComponents : base.components = root.components := atRoot
  unfold stepsFrom
  by_cases empty : base.bytes = []
  · -- nothing stands before the inner path, so a `.` that leads it is still there
    have noSteps : root.components = [] := by
      rw [← sameComponents, show base = ⟨[]⟩ from congrArg Path.ofBytes empty]
      rfl
    rw [show base = ⟨[]⟩ from congrArg Path.ofBytes empty, Path.join_empty, noSteps, if_pos List.nil_prefix]
    rfl
  · rw [Path.components_join empty relative, sameComponents, if_pos (List.prefix_append _ _), List.drop_left,
      behindCurrent_filterMap_step?, steps_of_relative relative]

theorem behindCurrent_isPrefix_append (left right : List Path.Component) :
    behindCurrent left <+: behindCurrent (left ++ right) := by
  cases left with
  | nil => exact List.nil_prefix
  | cons component rest => cases component <;> exact List.prefix_append _ _

/-- Behind a relative path, a further one makes further steps. -/
theorem steps_isPrefix_join {path deeper : Path} (deeperRelative : deeper.isAbsolute = false) :
    steps path <+: steps (path.join deeper) := by
  by_cases empty : path.bytes = []
  · rw [show path = ⟨[]⟩ from congrArg Path.ofBytes empty]
    exact List.nil_prefix
  · rw [steps, steps, Path.components_join empty deeperRelative]
    exact behindCurrent_isPrefix_append _ _

end Config

namespace Path

/-- A relative path stays one with a further one behind it. -/
theorem isAbsolute_join {path deeper : Path} (relative : path.isAbsolute = false)
    (deeperRelative : deeper.isAbsolute = false) : (path.join deeper).isAbsolute = false := by
  by_cases empty : path.bytes = []
  · rwa [show path = ⟨[]⟩ from congrArg Path.ofBytes empty, join_empty]
  · obtain ⟨c, rest, begins⟩ := List.exists_cons_of_ne_nil empty
    unfold join
    rw [if_neg (by rw [deeperRelative]; exact Bool.false_ne_true)]
    simp only [isAbsolute, begins] at relative ⊢
    split <;> exact relative

/-- Paths that go on with different names behind the same steps do not begin with each other. -/
theorem not_isPrefix_of_names {directory deeper more : List Component} {name other : Name}
    (different : name ≠ other) :
    ¬ directory ++ .entry name :: deeper <+: directory ++ .entry other :: more := by
  intro begins
  have sameName : Component.entry name = .entry other :=
    (List.cons_prefix_cons.mp ((List.prefix_append_right_inj directory).mp begins)).1
  exact different (Component.entry.inj sameName)

end Path

namespace Project

open Config (steps)

/-- **A path below the root is excluded** exactly if it begins with the steps of an entry that makes one. -/
theorem isExcluded_join_iff {project : Project} {base inner : Path} (atRoot : base.Same project.root)
    (relative : inner.isAbsolute = false) :
    project.isExcluded (base.join inner) = true
      ↔ ∃ entry ∈ project.config.excluded, steps entry ≠ [] ∧ steps entry <+: steps inner := by
  rw [isExcluded, Config.excludes_iff]
  simp only [Config.FallsUnder, Config.stepsFrom_join atRoot relative]
  rfl

/-- No other spelling of the root, of the path or of the entries changes what is excluded. -/
theorem isExcluded_join_congr {project other : Project} {base inner spelled : Path}
    (sameRoot : other.root.Same project.root) (atRoot : base.Same project.root)
    (sameEntries : other.config.excluded.map steps = project.config.excluded.map steps)
    (relative : inner.isAbsolute = false) (spelledRelative : spelled.isAbsolute = false)
    (sameSteps : steps spelled = steps inner) :
    other.isExcluded (base.join spelled) = project.isExcluded (project.root.join inner) := by
  -- only the steps of the entries count
  have byEntries : ∀ entries : List Path,
      (∃ entry ∈ entries, steps entry ≠ [] ∧ steps entry <+: steps inner)
        ↔ ∃ made ∈ entries.map steps, made ≠ [] ∧ made <+: steps inner := by
    intro entries
    constructor
    · rintro ⟨entry, there, covers⟩
      exact ⟨steps entry, List.mem_map_of_mem there, covers⟩
    · rintro ⟨_, made, covers⟩
      obtain ⟨entry, there, rfl⟩ := List.mem_map.mp made
      exact ⟨entry, there, covers⟩
  rw [Bool.eq_iff_iff, isExcluded_join_iff (atRoot.trans sameRoot.symm) spelledRelative,
    isExcluded_join_iff rfl relative, sameSteps, byEntries, byEntries, sameEntries]

/-- All that lies below an excluded directory is excluded, and so is all below an entry. -/
theorem isExcluded_join_deeper {project : Project} {inner deeper : Path} (relative : inner.isAbsolute = false)
    (deeperRelative : deeper.isAbsolute = false) :
    (project.isExcluded (project.root.join inner) = true →
        project.isExcluded (project.root.join (inner.join deeper)) = true)
      ∧ (inner ∈ project.config.excluded → steps inner ≠ [] →
        project.isExcluded (project.root.join (inner.join deeper)) = true) := by
  have goesOn : steps inner <+: steps (inner.join deeper) := Config.steps_isPrefix_join deeperRelative
  rw [isExcluded_join_iff rfl relative, isExcluded_join_iff rfl (Path.isAbsolute_join relative deeperRelative)]
  constructor
  · rintro ⟨entry, there, some, begins⟩
    exact ⟨entry, there, some, begins.trans goesOn⟩
  · exact fun there some => ⟨inner, there, some, goesOn⟩

/-- A path is not excluded that leaves each entry at another name. -/
theorem isExcluded_join_of_names {project : Project} {inner : Path} (relative : inner.isAbsolute = false)
    (part : ∀ entry ∈ project.config.excluded, ∃ directory name deeper other more, name ≠ other
      ∧ steps entry = directory ++ .entry name :: deeper ∧ steps inner = directory ++ .entry other :: more) :
    project.isExcluded (project.root.join inner) = false := by
  refine Bool.eq_false_iff.mpr fun excluded => ?_
  obtain ⟨entry, there, -, begins⟩ := (isExcluded_join_iff rfl relative).mp excluded
  obtain ⟨directory, name, deeper, other, more, different, ofEntry, ofInner⟩ := part entry there
  rw [ofEntry, ofInner] at begins
  exact Path.not_isPrefix_of_names different begins

/-- **What is excluded below the root** of a project is settled by steps: a relative path is excluded exactly if
an entry makes a step and the path begins with all steps of the entry. Hence

* a `.` before or within the path and doubled or trailing slashes do not count, and no other spelling of the
  root, of the path or of the entries changes the answer;
* all that lies below an excluded directory is excluded, and so is all below an entry;
* an entry does not cover a path that leaves it at another name, such as a longer one;
* the entries of two lists exclude what the ones or the others exclude. -/
theorem isExcluded_below_root (project : Project) {inner : Path} (relative : inner.isAbsolute = false) :
    let answer := project.isExcluded (project.root.join inner)
    (answer = true ↔ ∃ entry ∈ project.config.excluded, steps entry ≠ [] ∧ steps entry <+: steps inner)
      ∧ steps inner = (Path.pieces inner.bytes).filterMap Path.step?
      ∧ (∀ (other : Project) (base spelled : Path), other.root.Same project.root → base.Same project.root →
          other.config.excluded.map steps = project.config.excluded.map steps →
          spelled.isAbsolute = false → steps spelled = steps inner → other.isExcluded (base.join spelled) = answer)
      ∧ (∀ deeper : Path, deeper.isAbsolute = false →
          (answer = true → project.isExcluded (project.root.join (inner.join deeper)) = true)
          ∧ (inner ∈ project.config.excluded → steps inner ≠ [] →
            project.isExcluded (project.root.join (inner.join deeper)) = true))
      ∧ ((∀ entry ∈ project.config.excluded, ∃ directory name deeper other more, name ≠ other
            ∧ steps entry = directory ++ .entry name :: deeper ∧ steps inner = directory ++ .entry other :: more) →
          answer = false)
      ∧ ∀ early late : List Path, project.config.excluded = early ++ late →
          answer = (({ project with config := { project.config with excluded := early } } : Project).isExcluded
              (project.root.join inner)
            || ({ project with config := { project.config with excluded := late } } : Project).isExcluded
              (project.root.join inner)) := by
  intro answer
  refine ⟨isExcluded_join_iff rfl relative, Config.steps_of_relative relative, ?spelling,
    fun deeper deeperRelative => isExcluded_join_deeper relative deeperRelative, isExcluded_join_of_names relative,
    ?lists⟩
  case spelling =>
    exact fun other base spelled sameRoot atRoot sameEntries spelledRelative sameSteps =>
      isExcluded_join_congr sameRoot atRoot sameEntries relative spelledRelative sameSteps
  case lists =>
    intro early late both
    rw [Bool.eq_iff_iff, Bool.or_eq_true, isExcluded_join_iff rfl relative, isExcluded_join_iff rfl relative,
      isExcluded_join_iff rfl relative, both]
    simp only [List.mem_append, or_and_right, exists_or]

/-- An entry `vendor`, spelled in another way, and the directory beside it whose name goes on. -/
theorem isExcluded_of_vendor :
    let project := new (.ofString "/work/./app/") { excluded := [.ofString "./vendor/"] }
    let vendored : Path := .ofString "./vendor//acme/./a.php"
    let beside : Path := .ofString "vendored/a.php"
    vendored.isAbsolute = false ∧ beside.isAbsolute = false
      ∧ project.isExcluded (project.root.join vendored) = true
      ∧ project.isExcluded (project.root.join beside) = false := by
  intro project vendored beside
  have relative : vendored.isAbsolute = false := by decide
  have relative' : beside.isAbsolute = false := by decide
  obtain ⟨covered, -⟩ := isExcluded_below_root project relative
  obtain ⟨-, -, -, -, apart, -⟩ := isExcluded_below_root project relative'
  refine ⟨relative, relative', covered.mpr ⟨_, List.mem_singleton_self _, by decide, by decide⟩, apart ?_⟩
  intro entry there
  rw [List.mem_singleton.mp there]
  exact ⟨[], Text.bytes "vendor".toList, [], Text.bytes "vendored".toList,
    [.entry (Text.bytes "a.php".toList)], by decide, by decide, by decide⟩

end Project

end AnnotationCheck
