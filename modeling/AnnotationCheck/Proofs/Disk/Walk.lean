import AnnotationCheck.Disk.Listing
import AnnotationCheck.Proofs.Disk.Place

/-!
What walkers come upon.

* `JoinsNames` — the path of all that a walker comes upon is the starting point with names joined to it. So it goes
  on behind the starting point by entries (`JoinsNames.components_eq`).
* **`joinsNames_of_isTree`** — the walker of this library does so on a tree.
-/

namespace AnnotationCheck.Disk

/-! ### Paths behind a starting point -/

/-- The path of all that a walker comes upon is the starting point with names joined to it, one behind the other. -/
def JoinsNames [Walker] (disk : Disk) (start : Path) : Prop :=
  ∀ walked ∈ Walker.walk disk start, ∃ names : Place,
    (∀ name ∈ names, IsName name) ∧ walked.path = start.joinNames names

/-- Names lead on behind a path by the entries of these names. -/
theorem components_joinNames {names : Place} (legal : ∀ name ∈ names, IsName name) {base : Path}
    (some : base.bytes ≠ []) : (base.joinNames names).components = base.components ++ names.map .entry := by
  induction names generalizing base with
  | nil => exact (List.append_nil _).symm
  | cons name rest ih =>
    obtain ⟨isName, legal⟩ := List.forall_mem_cons.mp legal
    have next : (base.join ⟨name⟩).bytes ≠ [] := Path.bytes_join_ne_nil some isName.isStep.isAbsolute
    show ((base.join ⟨name⟩).joinNames rest).components = _
    rw [ih legal next, components_join_name some isName, List.append_assoc]
    rfl

theorem JoinsNames.components_eq [Walker] {disk : Disk} {start : Path} (joins : disk.JoinsNames start)
    (some : start.bytes ≠ []) {walked : Walked} (there : walked ∈ Walker.walk disk start) :
    ∃ names : Place, walked.path.components = start.components ++ names.map .entry := by
  obtain ⟨names, legal, path⟩ := joins walked there
  exact ⟨names, by rw [path, components_joinNames legal some]⟩

/-! ### The walker of this library -/

mutual

/-- The names that lead down a tree are legal ones. -/
theorem isName_of_mem_filesOf {levels : List Ignore} {place : Place} {entry : Entry} (isTree : entry.IsTree)
    {names : Place} (there : names ∈ filesOf levels place entry) : ∀ name ∈ names, IsName name := by
  cases isTree with
  | file content =>
    obtain rfl := List.mem_singleton.mp there
    nofun
  | directory legal _ all =>
    exact isName_of_mem_filesAmong (fun member listed => ⟨legal member listed, all member listed⟩) there

theorem isName_of_mem_filesAmong {levels : List Ignore} {place : Place} {entries : Entries}
    (legal : ∀ member ∈ entries, IsName member.1 ∧ member.2.IsTree) {names : Place}
    (there : names ∈ filesAmong levels place entries) : ∀ name ∈ names, IsName name := by
  cases entries with
  | nil => cases there
  | cons entry rest =>
    obtain ⟨legalFirst, legal⟩ := List.forall_mem_cons.mp legal
    rcases List.mem_append.mp there with there | there
    · exact isName_of_mem_filesIn legalFirst there
    · exact isName_of_mem_filesAmong legal there

theorem isName_of_mem_filesIn {levels : List Ignore} {place : Place} {entry : Path.Name × Entry}
    (legal : IsName entry.1 ∧ entry.2.IsTree) {names : Place} (there : names ∈ filesIn levels place entry) :
    ∀ name ∈ names, IsName name := by
  obtain ⟨name, entry⟩ := entry
  rw [filesIn] at there
  split at there
  · cases there
  · obtain ⟨inner, below, rfl⟩ := List.mem_map.mp there
    exact List.forall_mem_cons.mpr ⟨legal.1, isName_of_mem_filesOf legal.2 below⟩

end

/-- **The walker of this library joins names to the starting point**, where the disk is a tree. -/
theorem joinsNames_of_isTree {disk : Disk} (isTree : disk.IsTree) (start : Path) : disk.JoinsNames start := by
  intro walked there
  obtain ⟨path, listed, rfl⟩ := List.mem_map.mp there
  unfold filesBelow at listed
  split at listed
  · cases listed
  split at listed
  · cases listed
  · split at listed
    · cases listed
    · rename_i entry stands
      obtain ⟨names, below, rfl⟩ := List.mem_map.mp listed
      exact ⟨names, isName_of_mem_filesOf (isTree.at? stands) below, rfl⟩

end AnnotationCheck.Disk
