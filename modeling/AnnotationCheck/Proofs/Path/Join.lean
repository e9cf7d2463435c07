import AnnotationCheck.Proofs.Path.Relative

/-!
The components of joined paths.

* `components_join` — joining a relative path puts its steps behind the components of the base.
* `exists_entries` — where none of the steps leads up, they lead to entries.
* **`components_tidy`** — the shortest spelling of a path has the components of the path.
* **`same_join_relativeTo`** — what remains of a path behind another one leads back to it from there.
-/

namespace AnnotationCheck.Path

/-! ### Pieces of a joined path -/

theorem startOf_append {front left right : List Name} (some : front ≠ []) (someLeft : left ≠ [])
    (someRight : right ≠ []) : startOf (front ++ left) = startOf (front ++ right) := by
  obtain ⟨first, rest, rfl⟩ := List.exists_cons_of_ne_nil some
  obtain ⟨_, _, rfl⟩ := List.exists_cons_of_ne_nil someLeft
  obtain ⟨_, _, rfl⟩ := List.exists_cons_of_ne_nil someRight
  cases rest <;> cases first <;> rfl

/-- Behind the pieces of a text that is not empty, further pieces do not change how it begins. -/
theorem startOf_pieces_append {bytes : Name} (some : bytes ≠ []) (more : List Name) :
    startOf (pieces bytes ++ more) = startOf (pieces bytes) := by
  have whole : [slash].intercalate (pieces bytes) = bytes := Text.intercalate_fields slash bytes
  obtain ⟨first, rest, cut⟩ := List.exists_cons_of_ne_nil (pieces_ne_nil bytes)
  rw [cut] at whole ⊢
  cases rest with
  | cons second rest => cases first <;> rfl
  | nil =>
    cases first with
    | nil => exact absurd whole.symm some
    | cons c name => rfl

/-- The pieces of a joined path are those of the base, up to an idle one, and those of the inner path. -/
theorem exists_pieces_join {base inner : Path} (some : base.bytes ≠ []) (relative : inner.isAbsolute = false) :
    ∃ front, pieces (base.join inner).bytes = front ++ pieces inner.bytes
      ∧ startOf (front ++ pieces inner.bytes) = startOf (pieces base.bytes)
      ∧ front.filterMap step? = (pieces base.bytes).filterMap step? := by
  unfold join
  rw [if_neg (by rw [relative]; exact Bool.false_ne_true)]
  split
  · rename_i slashed
    obtain ⟨front, whole⟩ := List.getLast?_eq_some_iff.mp (slashed.resolve_left some)
    have cut : pieces base.bytes = pieces front ++ [[]] := by
      rw [whole]
      exact Text.fields_append_separator slash front []
    refine ⟨pieces front, ?_, ?_, ?_⟩
    · rw [whole, List.append_assoc]
      exact Text.fields_append_separator slash front inner.bytes
    · rw [cut]
      exact startOf_append (pieces_ne_nil front) (pieces_ne_nil inner.bytes) (List.cons_ne_nil _ _)
    · rw [cut, List.filterMap_append]
      exact (List.append_nil _).symm
  · exact ⟨pieces base.bytes, Text.fields_append_separator slash base.bytes inner.bytes,
      startOf_pieces_append some _, rfl⟩

/-- **Joining a relative path** puts its steps behind the components of the base. -/
theorem components_join {base inner : Path} (some : base.bytes ≠ []) (relative : inner.isAbsolute = false) :
    (base.join inner).components = base.components ++ (pieces inner.bytes).filterMap step? := by
  obtain ⟨front, cut, starts, steps⟩ := exists_pieces_join some relative
  rw [components_eq, cut, starts, List.filterMap_append, steps, ← List.append_assoc, ← components_eq]

theorem bytes_join_ne_nil {base inner : Path} (some : base.bytes ≠ []) (relative : inner.isAbsolute = false) :
    (base.join inner).bytes ≠ [] := by
  unfold join
  rw [if_neg (by rw [relative]; exact Bool.false_ne_true)]
  split <;> simp [some]

/-! ### Components that are steps -/

namespace Component

/-- A component that its own text makes. -/
def IsStep (component : Component) : Prop := slash ∉ component.bytes ∧ step? component.bytes = some component

theorem isStep_of_mem {bytes : Name} {component : Component}
    (there : component ∈ (pieces bytes).filterMap step?) : component.IsStep := by
  obtain ⟨piece, isPiece, makes⟩ := List.mem_filterMap.mp there
  have own : component.bytes = piece := by
    unfold step? at makes
    split at makes
    · cases makes
    · split at makes
      · rename_i up
        cases makes
        exact up.symm
      · cases makes
        rfl
  exact ⟨own ▸ not_mem_of_mem_pieces isPiece, own ▸ makes⟩

variable {component : Component} (isStep : component.IsStep)
include isStep

theorem IsStep.pieces_bytes : pieces component.bytes = [component.bytes] := Text.fields_eq_singleton isStep.1

theorem IsStep.isIdle_bytes : isIdle component.bytes = false := by
  rw [← Bool.not_eq_true, ← step?_eq_none_iff, isStep.2]
  simp

theorem IsStep.isAbsolute : Path.isAbsolute ⟨component.bytes⟩ = false := by
  cases top : Path.isAbsolute ⟨component.bytes⟩ with
  | false => rfl
  | true => exact absurd (List.mem_of_mem_head? (by simpa [Path.isAbsolute] using top)) isStep.1

theorem IsStep.components_join {base : Path} (some : base.bytes ≠ []) :
    (base.join ⟨component.bytes⟩).components = base.components ++ [component] := by
  rw [Path.components_join some isStep.isAbsolute, isStep.pieces_bytes, List.filterMap_cons_some isStep.2]
  rfl

/-- A step alone is a path of that one component. -/
theorem IsStep.components_bytes : Path.components ⟨component.bytes⟩ = [component] := by
  have moves : ∀ first ∈ [component.bytes].head?, isIdle first = false := by
    rintro first ⟨⟩
    exact isStep.isIdle_bytes
  have steps := components_of_steps (fun text there => List.mem_singleton.mp there ▸ isStep.1) moves
  rwa [List.intercalate_singleton, List.filterMap_cons_some isStep.2] at steps

end Component

/-- Steps of which none leads up lead to entries. -/
theorem exists_entries {texts : List Name} (noParent : .parent ∉ texts.filterMap step?) :
    ∃ names : List Name, texts.filterMap step? = names.map .entry := by
  have all : ∀ component ∈ texts.filterMap step?, ∃ name, component = .entry name := by
    intro component there
    obtain ⟨notRoot, notCurrent⟩ := ne_start_of_mem_filterMap there
    cases component with
    | root => exact absurd rfl notRoot
    | current => exact absurd rfl notCurrent
    | parent => exact absurd there noParent
    | entry name => exact ⟨name, rfl⟩
  generalize texts.filterMap step? = steps at all
  induction steps with
  | nil => exact ⟨[], rfl⟩
  | cons component rest ih =>
    obtain ⟨name, rfl⟩ := all component List.mem_cons_self
    obtain ⟨names, rfl⟩ := ih fun later there => all later (List.mem_cons_of_mem _ there)
    exact ⟨name :: names, rfl⟩

/-! ### The shortest spelling -/

theorem components_foldl_join {steps : List Component} (all : ∀ component ∈ steps, component.IsStep)
    {path : Path} (some : path.bytes ≠ []) :
    (steps.foldl (fun path component => path.join ⟨component.bytes⟩) path).components
      = path.components ++ steps := by
  induction steps generalizing path with
  | nil => exact (List.append_nil _).symm
  | cons component rest ih =>
    have isStep := all component List.mem_cons_self
    rw [List.foldl_cons, ih (fun later there => all later (List.mem_cons_of_mem component there))
      (bytes_join_ne_nil some isStep.isAbsolute), isStep.components_join some, List.append_assoc]
    rfl

theorem join_empty (inner : Path) : join ⟨[]⟩ inner = inner := by
  unfold join
  split
  · rfl
  · rw [if_pos (.inl rfl)]
    rfl

/-- A component that is a path of its own, with steps behind it. -/
theorem components_ofComponents {first : Component} (alone : components ⟨first.bytes⟩ = [first])
    {steps : List Component} (all : ∀ component ∈ steps, component.IsStep) :
    (ofComponents (first :: steps)).components = first :: steps := by
  have some : Path.bytes ⟨first.bytes⟩ ≠ [] := by
    intro empty
    have none : components ⟨first.bytes⟩ = components ⟨[]⟩ :=
      congrArg (fun bytes => components ⟨bytes⟩) empty
    rw [alone] at none
    cases none
  rw [ofComponents, List.foldl_cons, join_empty, components_foldl_join all some, alone]
  rfl

/-- **The shortest spelling** of a path has the components of the path. -/
theorem components_tidy (path : Path) : path.tidy.components = path.components := by
  have all : ∀ component ∈ (pieces path.bytes).filterMap step?, component.IsStep :=
    fun component there => Component.isStep_of_mem there
  rw [tidy, components_eq path]
  rcases startOf_cases (pieces path.bytes) with start | start | start <;> rw [start]
  · rw [List.nil_append]
    cases steps : (pieces path.bytes).filterMap step? with
    | nil => rfl
    | cons first rest =>
      rw [steps] at all
      exact components_ofComponents (all first List.mem_cons_self).components_bytes
        fun component there => all component (List.mem_cons_of_mem first there)
  · exact components_ofComponents (by decide) all
  · exact components_ofComponents (by decide) all

/-! ### Absolute paths -/

/-- Whether a path is absolute is read off its components. -/
theorem isAbsolute_iff_components {path : Path} :
    path.isAbsolute = true ↔ path.components.head? = some .root := by
  rw [isAbsolute_iff_start, components, start_eq]
  rcases startOf_cases (pieces path.bytes) with start | start | start <;> rw [start]
  · have noPiece : ((pieces path.bytes).filterMap step?).head? ≠ some .root :=
      fun first => absurd rfl (ne_start_of_mem_filterMap (List.mem_of_mem_head? first)).1
    constructor
    · intro top
      cases top
    · exact fun first => absurd first noPiece
  · exact ⟨fun _ => rfl, fun _ => rfl⟩
  · simp

/-- Entries behind a path leave it absolute or relative. -/
theorem isAbsolute_of_entries {path base : Path} {names : List Name}
    (below : path.components = base.components ++ names.map .entry) : path.isAbsolute = base.isAbsolute := by
  rw [Bool.eq_iff_iff, isAbsolute_iff_components, isAbsolute_iff_components, below]
  cases base.components with
  | cons first rest => exact Iff.rfl
  | nil => cases names <;> simp

/-! ### Back from a relative path -/

/-- A path has no components only if nothing is written. -/
theorem bytes_eq_nil_of_components {path : Path} (none : path.components = []) : path.bytes = [] := by
  have whole : [slash].intercalate (pieces path.bytes) = path.bytes := Text.intercalate_fields slash path.bytes
  rw [components_eq, List.append_eq_nil_iff] at none
  obtain ⟨noStart, noSteps⟩ := none
  obtain ⟨first, rest, cut⟩ := List.exists_cons_of_ne_nil (pieces_ne_nil path.bytes)
  rw [cut] at noStart noSteps whole
  have idle : isIdle first = true := step?_eq_none_iff.mp (List.filterMap_eq_nil_iff.mp noSteps first (by simp))
  -- a first piece that makes no step is the beginning of a path, or all of it
  rcases (by simpa [isIdle] using idle : first = [] ∨ first = dot) with rfl | rfl
  · cases rest with
    | nil => exact whole.symm
    | cons second more => cases noStart
  · cases noStart

/-- A path that does not begin at a place of its own leads on from any base. -/
theorem components_join_of_start {base inner : Path} (bare : inner.start = []) :
    (base.join inner).components = base.components ++ inner.components := by
  have own : inner.components = (pieces inner.bytes).filterMap step? := by rw [components, bare, List.nil_append]
  by_cases none : base.bytes = []
  · obtain ⟨bytes⟩ := base
    cases none
    rw [join_empty]
    rfl
  · have relative : inner.isAbsolute = false := by
      rw [← Bool.not_eq_true, isAbsolute_iff_start, bare]
      simp
    rw [components_join none relative, own]

/-- Behind the first component of a path there are steps alone. -/
theorem ne_start_of_mem_drop {path : Path} {count : Nat} (positive : 0 < count) {component : Component}
    (there : component ∈ path.components.drop count) : component ≠ .root ∧ component ≠ .current := by
  have short : path.start.length ≤ count := by
    rw [start_eq]
    rcases startOf_cases (pieces path.bytes) with start | start | start <;> rw [start]
    · exact Nat.zero_le count
    all_goals exact positive
  rw [components, List.drop_append, List.drop_eq_nil_of_le short, List.nil_append] at there
  exact ne_start_of_mem_filterMap (List.mem_of_mem_drop there)

/-- What remains of a path behind another one that is not empty does not begin at a place of its own. -/
theorem start_relativeTo {path base : Path} (some : base.components ≠ [])
    (below : base.components <+: path.components) : (path.relativeTo base).start = [] := by
  have steps := components_relativeTo path base
  rw [if_pos below] at steps
  have none : ∀ component ∈ (path.relativeTo base).start, component ≠ .root ∧ component ≠ .current := by
    intro component there
    have remains : component ∈ (path.relativeTo base).components := List.mem_append_left _ there
    rw [steps] at remains
    exact ne_start_of_mem_drop (List.length_pos_iff.mpr some) remains
  rw [start_eq] at none ⊢
  rcases startOf_cases (pieces (path.relativeTo base).bytes) with start | start | start <;> rw [start] at none ⊢
  · exact absurd rfl (none .root (by simp)).1
  · exact absurd rfl (none .current (by simp)).2

/-- **What remains of a path behind another one leads back to the path** from there. -/
theorem same_join_relativeTo {path base : Path} (below : base.components <+: path.components) :
    (base.join (path.relativeTo base)).Same path := by
  have steps := components_relativeTo path base
  rw [if_pos below] at steps
  show (base.join (path.relativeTo base)).components = path.components
  by_cases none : base.components = []
  · obtain ⟨bytes⟩ := base
    cases bytes_eq_nil_of_components none
    rw [join_empty, steps, none]
    rfl
  · rw [components_join_of_start (start_relativeTo none below), steps]
    exact List.prefix_iff_eq_append.mp below

/-- Behind the components of the base, a joined path has components of the inner one alone. -/
theorem mem_components_of_mem_join {base inner : Path} {component : Component}
    (there : component ∈ (base.join inner).components.drop base.components.length) :
    component ∈ inner.components := by
  by_cases none : base.bytes = []
  · obtain ⟨bytes⟩ := base
    cases none
    rw [join_empty] at there
    exact List.mem_of_mem_drop there
  · cases top : inner.isAbsolute with
    | true =>
      rw [join, if_pos top] at there
      exact List.mem_of_mem_drop there
    | false =>
      rw [components_join none top, List.drop_left] at there
      exact List.mem_append_right _ there

end AnnotationCheck.Path
