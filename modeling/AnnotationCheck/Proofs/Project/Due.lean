import AnnotationCheck.Path.Set
import AnnotationCheck.Scope

/-!
The class-likes for which a check goes through a file.

* `firstOfFiles` — of the scopes of each file, the first one: the one which a search of the whole list
  finds (`mem_firstOfFiles_iff`), and no other one of that file (`filter_firstOfFiles`).
* `due` — those of them whose files are neither excluded nor analyzed already (`mem_due_iff`).
* **`due_cons_of_skipped`**, **`due_cons_of_due`** — what is due, scope by scope, where the files that
  count as analyzed grow on the way.
-/

namespace AnnotationCheck

namespace Project

/-! ### The first scope of each file -/

/-- The scopes that stand first among those of their file. -/
def firstOfFiles : List Scope → List Scope
  | [] => []
  | scope :: rest => scope :: (firstOfFiles rest).filter fun later => !decide (scope.file.Same later.file)

/-- Of each file there is one first scope at most. -/
theorem filter_firstOfFiles (scopes : List Scope) (path : Path) :
    (firstOfFiles scopes).filter (fun scope => decide (scope.file.Same path))
      = (scopes.find? fun scope => decide (scope.file.Same path)).toList := by
  induction scopes with
  | nil => rfl
  | cons scope rest ih =>
    rw [firstOfFiles, List.filter_cons, List.find?_cons, List.filter_filter]
    by_cases here : scope.file.Same path
    · have none : (firstOfFiles rest).filter (fun later =>
          decide (later.file.Same path) && !decide (scope.file.Same later.file)) = [] := by
        refine List.filter_eq_nil_iff.mpr fun later _ => ?_
        by_cases ofPath : later.file.Same path
        · have same : scope.file.Same later.file := here.trans ofPath.symm
          simp [same]
        · simp [ofPath]
      simp [here, none]
    · have kept : (firstOfFiles rest).filter (fun later =>
          decide (later.file.Same path) && !decide (scope.file.Same later.file))
            = (firstOfFiles rest).filter fun later => decide (later.file.Same path) := by
        refine List.filter_congr fun later _ => ?_
        by_cases ofPath : later.file.Same path
        · have apart : ¬ scope.file.Same later.file := fun same => here (same.trans ofPath)
          simp [ofPath, apart]
        · simp [ofPath]
      simp [here, kept, ih]

/-- The first scope of a file is the one that a search finds. -/
theorem find?_firstOfFiles (scopes : List Scope) (path : Path) :
    (firstOfFiles scopes).find? (fun scope => decide (scope.file.Same path))
      = scopes.find? fun scope => decide (scope.file.Same path) := by
  rw [← List.head?_filter, filter_firstOfFiles, Option.head?_toList]

/-- A first scope is one that a search for its file finds. -/
theorem mem_firstOfFiles_iff {scopes : List Scope} {first : Scope} :
    first ∈ firstOfFiles scopes
      ↔ scopes.find? (fun scope => decide (scope.file.Same first.file)) = some first := by
  constructor
  · intro isFirst
    induction scopes with
    | nil => cases isFirst
    | cons scope rest ih =>
      rcases List.mem_cons.mp isFirst with rfl | later
      · exact List.find?_cons_of_pos (decide_eq_true rfl)
      · obtain ⟨later, apart⟩ := List.mem_filter.mp later
        rw [List.find?_cons_of_neg (by simpa using apart)]
        exact ih later
  · intro found
    rw [← find?_firstOfFiles] at found
    exact List.mem_of_find?_eq_some found

/-- No two first scopes are of one file. -/
theorem pairwise_firstOfFiles (scopes : List Scope) :
    (firstOfFiles scopes).Pairwise fun first second => ¬ first.file.Same second.file := by
  induction scopes with
  | nil => exact .nil
  | cons scope rest ih =>
    refine .cons (fun later there => ?_) (ih.sublist List.filter_sublist)
    simpa using (List.mem_filter.mp there).2

theorem firstOfFiles_sublist (scopes : List Scope) : (firstOfFiles scopes).Sublist scopes := by
  induction scopes with
  | nil => exact .slnil
  | cons scope rest ih => exact (List.filter_sublist.trans ih).cons_cons scope

/-- Every file of the scopes has a first scope. -/
theorem exists_mem_firstOfFiles {scopes : List Scope} {scope : Scope} (there : scope ∈ scopes) :
    ∃ first ∈ firstOfFiles scopes, first.file.Same scope.file := by
  have found : (scopes.find? fun other => decide (other.file.Same scope.file)).isSome = true := by
    rw [List.find?_isSome]
    exact ⟨scope, there, decide_eq_true rfl⟩
  rw [← find?_firstOfFiles] at found
  obtain ⟨first, isFirst⟩ := Option.isSome_iff_exists.mp found
  exact ⟨first, List.mem_of_find?_eq_some isFirst, by simpa using List.find?_some isFirst⟩

/-! ### The scopes that are due -/

section Due

variable {excluded : Path → Bool} {analyzed : PathSet}

/-- The first scopes of the files that are neither excluded nor analyzed already. -/
def due (excluded : Path → Bool) (analyzed : PathSet) (scopes : List Scope) : List Scope :=
  (firstOfFiles scopes).filter fun scope => !excluded scope.file && !analyzed.contains scope.file

theorem mem_due_iff {scopes : List Scope} {first : Scope} :
    first ∈ due excluded analyzed scopes
      ↔ first ∈ firstOfFiles scopes ∧ excluded first.file = false
        ∧ analyzed.contains first.file = false := by
  simp [due]

theorem due_sublist (scopes : List Scope) : (due excluded analyzed scopes).Sublist scopes :=
  List.filter_sublist.trans (firstOfFiles_sublist scopes)

theorem pairwise_due (scopes : List Scope) :
    (due excluded analyzed scopes).Pairwise fun first second => ¬ first.file.Same second.file :=
  (pairwise_firstOfFiles scopes).sublist List.filter_sublist

/-- What is due of a file: its first scope, unless the file is excluded or analyzed already. -/
theorem filter_due (scopes : List Scope) (path : Path) :
    (due excluded analyzed scopes).filter (fun scope => decide (scope.file.Same path))
      = (scopes.find? fun scope => decide (scope.file.Same path)).toList.filter fun scope =>
          !excluded scope.file && !analyzed.contains scope.file := by
  rw [due, List.filter_filter, ← filter_firstOfFiles, List.filter_filter]
  exact List.filter_congr fun scope _ => Bool.and_comm _ _

/-- A scope whose file is neither excluded nor analyzed is due, and its file counts as analyzed for the
others. -/
theorem due_cons_of_due {scope : Scope} (included : excluded scope.file = false)
    (fresh : analyzed.contains scope.file = false) (rest : List Scope) :
    due excluded analyzed (scope :: rest) = scope :: due excluded (analyzed.insert scope.file) rest := by
  rw [due, firstOfFiles, List.filter_cons_of_pos (by simp [included, fresh]), List.filter_filter, due]
  refine congrArg (scope :: ·) (List.filter_congr fun later _ => ?_)
  rw [PathSet.contains_insert, Bool.not_or, Bool.and_assoc, Bool.and_comm (!analyzed.contains later.file)]

variable (respects : ∀ {left right : Path}, left.Same right → excluded left = excluded right)
include respects

/-- A scope whose file is excluded or analyzed leaves what is due to the others. -/
theorem due_cons_of_skipped {scope : Scope}
    (skipped : excluded scope.file = true ∨ analyzed.contains scope.file = true) (rest : List Scope) :
    due excluded analyzed (scope :: rest) = due excluded analyzed rest := by
  have dropped : (!excluded scope.file && !analyzed.contains scope.file) = false := by
    rcases skipped with skipped | skipped <;> simp [skipped]
  rw [due, firstOfFiles, List.filter_cons_of_neg (by simp [dropped]), List.filter_filter, due]
  refine List.filter_congr fun later _ => ?_
  by_cases same : scope.file.Same later.file
  · rw [← respects same, ← analyzed.contains_congr same, dropped, Bool.false_and]
  · simp [same]

/-- Every file of the scopes that is neither excluded nor analyzed is due. -/
theorem exists_mem_due {scopes : List Scope} {scope : Scope} (there : scope ∈ scopes)
    (included : excluded scope.file = false) (fresh : analyzed.contains scope.file = false) :
    ∃ first ∈ due excluded analyzed scopes, first.file.Same scope.file := by
  obtain ⟨first, isFirst, same⟩ := exists_mem_firstOfFiles there
  refine ⟨first, mem_due_iff.mpr ⟨isFirst, ?_, ?_⟩, same⟩
  · rw [respects same, included]
  · rw [analyzed.contains_congr same, fresh]

/-- A file is due exactly if there is a scope of it and the file is neither excluded nor analyzed. -/
theorem exists_mem_due_iff {scopes : List Scope} {file : Path} :
    (∃ scope ∈ due excluded analyzed scopes, scope.file.Same file)
      ↔ (∃ scope ∈ scopes, scope.file.Same file) ∧ excluded file = false ∧ analyzed.contains file = false := by
  constructor
  · rintro ⟨scope, isDue, same⟩
    obtain ⟨-, included, fresh⟩ := mem_due_iff.mp isDue
    exact ⟨⟨scope, (due_sublist scopes).subset isDue, same⟩, respects same ▸ included,
      analyzed.contains_congr same ▸ fresh⟩
  · rintro ⟨⟨scope, there, same⟩, included, fresh⟩
    obtain ⟨first, isDue, sameFirst⟩ := exists_mem_due respects there ((respects same).trans included)
      ((analyzed.contains_congr same).trans fresh)
    exact ⟨first, isDue, sameFirst.trans same⟩

end Due

end Project

end AnnotationCheck
